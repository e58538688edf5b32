/-
# UTF-8

Files and the streams of commands hold bytes. Decoding walks them once and yields a character for
every well-formed sequence and a fault for every longest piece of a sequence that cannot be
completed. Strict decoding refuses any fault; lenient decoding puts the replacement character in
its place.
-/
import HtmlMinifier.Text.Basic

namespace HtmlMinifier

/-- A sequence of bytes. -/
abbrev Bytes := List UInt8

namespace Utf8

/-- The bytes of a text. -/
def encode (text : Text) : Bytes := text.flatMap String.utf8EncodeChar

/-- A character of which some bytes are read: how many are owed, the bounds of the next one, and
the value of those that are read. -/
structure Partial where
  owed : Nat
  low : Nat
  high : Nat
  value : Nat
  deriving DecidableEq, Repr

/-- What the first byte of a longer sequence begins. Bytes that could only begin an overlong form,
a surrogate or a code point out of range begin nothing. -/
def lead? (byte : Nat) : Option Partial :=
  if 0xC2 ≤ byte ∧ byte ≤ 0xDF then some ⟨1, 0x80, 0xBF, byte - 0xC0⟩
  else if byte = 0xE0 then some ⟨2, 0xA0, 0xBF, 0⟩
  else if byte = 0xED then some ⟨2, 0x80, 0x9F, 0xD⟩
  else if 0xE1 ≤ byte ∧ byte ≤ 0xEF then some ⟨2, 0x80, 0xBF, byte - 0xE0⟩
  else if byte = 0xF0 then some ⟨3, 0x90, 0xBF, 0⟩
  else if byte = 0xF4 then some ⟨3, 0x80, 0x8F, 4⟩
  else if 0xF1 ≤ byte ∧ byte ≤ 0xF3 then some ⟨3, 0x80, 0xBF, byte - 0xF0⟩
  else none

/-- One byte between characters: what it completes, and what it begins. A fault is `none`. -/
def begin (byte : Nat) : List (Option Char) × Option Partial :=
  if byte < 0x80 then ([some (Char.ofNat byte)], none)
  else
    match lead? byte with
    | some started => ([], some started)
    | none => ([none], none)

/-- One byte: what it completes, and what is still incomplete after it. A byte that does not fit
ends the incomplete character in a fault and is read anew. -/
def step (state : Option Partial) (byte : Nat) : List (Option Char) × Option Partial :=
  match state with
  | none => begin byte
  | some held =>
      if held.low ≤ byte ∧ byte ≤ held.high then
        let value := held.value * 64 + (byte - 0x80)
        if held.owed ≤ 1 then ([some (Char.ofNat value)], none)
        else ([], some ⟨held.owed - 1, 0x80, 0xBF, value⟩)
      else (none :: (begin byte).1, (begin byte).2)

/-- The characters and faults of a sequence of bytes, read with a character incomplete or not. -/
def unitsAfter (state : Option Partial) : Bytes → List (Option Char)
  | [] => if state.isSome then [none] else []
  | byte :: bytes =>
      let stepped := step state byte.toNat
      stepped.1 ++ unitsAfter stepped.2 bytes

/-- The text of bytes without a fault. -/
def decode? (bytes : Bytes) : Option Text := (unitsAfter none bytes).mapM id

/-- The text of bytes, with the replacement character for every fault. -/
def decodeLossy (bytes : Bytes) : Text :=
  (unitsAfter none bytes).map fun found => found.getD '\ufffd'

end Utf8

end HtmlMinifier

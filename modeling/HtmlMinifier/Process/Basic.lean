/-
# What a command leaves behind

A command reads its input and leaves two streams of bytes, the way in which it ended and the time
that it took. Time is counted in milliseconds and passes only while a command sleeps.
-/
import HtmlMinifier.Style.Compressor
import HtmlMinifier.Text.Utf8

namespace HtmlMinifier.Process

/-- What a finished command leaves behind. -/
structure Report where
  output : Bytes
  errors : Bytes
  status : Style.ExitStatus
  elapsed : Nat
  deriving DecidableEq, Repr

/-- A command that ends at once with an output and nothing else. -/
def Report.success (output : Bytes) : Report := ⟨output, [], .code 0, 0⟩

/-- A command that ends at once with a complaint. -/
def Report.failure (code : Nat) (complaint : String) : Report :=
  ⟨[], Utf8.encode (complaint ++ "\n").toList, .code code, 0⟩

/-- The exit code that a shell sees: a signal counts from 128 on. -/
def exitCode : Style.ExitStatus → Nat
  | .code value => value
  | .signal number => 128 + number

/-- The value of an octal digit. -/
def octalDigit? (c : Char) : Option Nat :=
  if '0' ≤ c ∧ c ≤ '7' then some (c.toNat - '0'.toNat) else none

/-- The value of up to `most` octal digits at the head of a text, and what follows them. -/
def readOctal (most : Nat) (value : Nat) : Text → Nat × Text
  | [] => (value, [])
  | c :: text =>
      match most, octalDigit? c with
      | fewer + 1, some digit => readOctal fewer (value * 8 + digit) text
      | _, _ => (value, c :: text)

/-- The byte that a letter stands for after a backslash. -/
def escapeByte? : Char → Option UInt8
  | 'a' => some 7
  | 'b' => some 8
  | 't' => some 9
  | 'n' => some 10
  | 'v' => some 11
  | 'f' => some 12
  | 'r' => some 13
  | '\\' => some 92
  | _ => none

end HtmlMinifier.Process

/-
# Character references

A reference stands for one character: a number in decimal or hexadecimal digits, or a name, between
`&` and `;`. Decoding replaces every reference that is known and leaves everything else as it is;
it is one pass, so what it writes is not decoded again. Encoding writes references for the few
characters that would be read as markup, two more of them inside attribute values.

Both walk the text one character at a time. At an `&` the decoder looks ahead for a `;` that comes
before any other `&`, and where that yields nothing it goes on with the character after the `&`.
-/
import HtmlMinifier.Reference.LowerNamesFromM
import HtmlMinifier.Reference.LowerNamesToL
import HtmlMinifier.Reference.UpperNames
import HtmlMinifier.Text.Basic

namespace HtmlMinifier.Reference

/-- The references whose name begins with a letter. -/
def namesFrom : Char → List (String × Nat)
  | 'A' => namesUpperA
  | 'B' => namesUpperB
  | 'C' => namesUpperC
  | 'D' => namesUpperD
  | 'E' => namesUpperE
  | 'F' => namesUpperF
  | 'G' => namesUpperG
  | 'H' => namesUpperH
  | 'I' => namesUpperI
  | 'J' => namesUpperJ
  | 'K' => namesUpperK
  | 'L' => namesUpperL
  | 'M' => namesUpperM
  | 'N' => namesUpperN
  | 'O' => namesUpperO
  | 'P' => namesUpperP
  | 'Q' => namesUpperQ
  | 'R' => namesUpperR
  | 'S' => namesUpperS
  | 'T' => namesUpperT
  | 'U' => namesUpperU
  | 'V' => namesUpperV
  | 'W' => namesUpperW
  | 'X' => namesUpperX
  | 'Y' => namesUpperY
  | 'Z' => namesUpperZ
  | 'a' => namesLowerA
  | 'b' => namesLowerB
  | 'c' => namesLowerC
  | 'd' => namesLowerD
  | 'e' => namesLowerE
  | 'f' => namesLowerF
  | 'g' => namesLowerG
  | 'h' => namesLowerH
  | 'i' => namesLowerI
  | 'j' => namesLowerJ
  | 'k' => namesLowerK
  | 'l' => namesLowerL
  | 'm' => namesLowerM
  | 'n' => namesLowerN
  | 'o' => namesLowerO
  | 'p' => namesLowerP
  | 'q' => namesLowerQ
  | 'r' => namesLowerR
  | 's' => namesLowerS
  | 't' => namesLowerT
  | 'u' => namesLowerU
  | 'v' => namesLowerV
  | 'w' => namesLowerW
  | 'x' => namesLowerX
  | 'y' => namesLowerY
  | 'z' => namesLowerZ
  | _ => []

/-- The character that a name stands for. Case matters. -/
def ofName? (name : Text) : Option Char :=
  let word := String.ofList name
  (((namesFrom (name.headD ' ')).find? fun entry => entry.1 = word).map fun entry =>
    Char.ofNat entry.2)

/-- Controls below the space cannot be referred to by number, except tab, line feed, form feed and
carriage return. -/
def isForbiddenControl (code : Nat) : Bool :=
  code < 0x20 && code != 0x9 && code != 0xA && code != 0xC && code != 0xD

/-- The character with a code point, if it may be referred to by number. -/
def ofCode? (code : Nat) : Option Char :=
  if code.isValidChar ∧ isForbiddenControl code = false then some (Char.ofNat code) else none

/-- The value of a digit in a base of at most sixteen. -/
def digit? (base : Nat) (c : Char) : Option Nat :=
  let value :=
    if '0' ≤ c ∧ c ≤ '9' then c.toNat - '0'.toNat
    else if 'a' ≤ c ∧ c ≤ 'f' then c.toNat - 'a'.toNat + 10
    else if 'A' ≤ c ∧ c ≤ 'F' then c.toNat - 'A'.toNat + 10
    else 16
  if value < base then some value else none

/-- The number written by one or more digits. -/
def number? (base : Nat) (digits : Text) : Option Nat :=
  if digits = [] then none
  else digits.foldlM (fun total c => (digit? base c).map fun value => total * base + value) 0

/-- The character that the text between `&` and `;` refers to. -/
def ofBody? : Text → Option Char
  | '#' :: 'x' :: digits => (number? 16 digits).bind ofCode?
  | '#' :: 'X' :: digits => (number? 16 digits).bind ofCode?
  | '#' :: digits => (number? 10 digits).bind ofCode?
  | name => ofName? name

/-- The reference at the head of a text whose `&` has been read: its character and what follows its
semicolon. -/
def read? (input : Text) : Option (Char × Text) :=
  match input.dropWhile fun c => c != ';' && c != '&' with
  | ';' :: rest =>
      (ofBody? (input.takeWhile fun c => c != ';' && c != '&')).map fun c => (c, rest)
  | _ => none

/-- What follows a reference is shorter than what began with it. -/
theorem length_of_read? {input rest : Text} {c : Char} (found : read? input = some (c, rest)) :
    rest.length < input.length := by
  have suffix := (List.dropWhile_suffix (l := input) fun c => c != ';' && c != '&').length_le
  unfold read? at found
  split at found
  · next rest' same =>
      simp only [Option.map_eq_some_iff, Prod.mk.injEq] at found
      obtain ⟨_, _, _, rfl⟩ := found
      simp only [same, List.length_cons] at suffix
      omega
  · simp at found

/-- Replace every known reference by its character. -/
def decode : Text → Text
  | [] => []
  | c :: input =>
      if c = '&' then
        match _found : read? input with
        | some (decoded, rest) => decoded :: decode rest
        | none => '&' :: decode input
      else c :: decode input
termination_by input => input.length
decreasing_by
  · have := length_of_read? _found
    simp only [List.length_cons]
    omega
  · simp
  · simp

/-- The written form of a character of text. -/
def encodeChar (c : Char) : Text :=
  if c = '&' then "&amp;".toList
  else if c = '<' then "&lt;".toList
  else if c = '>' then "&gt;".toList
  else [c]

/-- The written form of a character of an attribute value, safe between quotes of either kind. -/
def encodeAttributeChar (c : Char) : Text :=
  if c = '"' then "&quot;".toList
  else if c = '\'' then "&#x27;".toList
  else encodeChar c

/-- Write references for what would be read as markup. -/
def encode (text : Text) : Text := text.flatMap encodeChar

/-- Write references for what would be read as markup or as a quote. -/
def encodeAttribute (text : Text) : Text := text.flatMap encodeAttributeChar

/-- Text with as few references as markup allows. Quotes are written as they are. -/
def normalize (text : Text) : Text := encode (decode text)

/-- An attribute value with as few references as any quoting allows. -/
def normalizeAttribute (value : Text) : Text := encodeAttribute (decode value)

end HtmlMinifier.Reference

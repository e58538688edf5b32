/-
# Values that are written as one word

Booleans, numbers and dates are words that run up to the next blank, comma, equals sign, bracket,
brace or comment. Only between a date and a time of day there may be a blank inside.
-/
import HtmlMinifier.Toml.Lexical
import HtmlMinifier.Toml.Number

namespace HtmlMinifier.Toml

/-- A number of exactly so many digits at the head of a text, within bounds. -/
def readField? (digits low high : Nat) (text : Text) : Option (Nat × Text) :=
  if text.length < digits then none
  else
    (Reference.number? 10 (text.take digits)).bind fun value =>
      if low ≤ value ∧ value ≤ high then some (value, text.drop digits) else none

/-- The number of days of a month. -/
def daysIn (year month : Nat) : Nat :=
  if month = 2 then
    if year % 4 = 0 && (year % 100 ≠ 0 || year % 400 = 0) then 29 else 28
  else if month = 4 || month = 6 || month = 9 || month = 11 then 30
  else 31

/-- What follows a separator. -/
def dropMark? (mark : Char) : Text → Option Text
  | c :: text => if c = mark then some text else none
  | [] => none

/-- What follows a date at the head of a text. -/
def dropDate? (text : Text) : Option Text := do
  let year ← readField? 4 0 9999 text
  let month ← (dropMark? '-' year.2).bind (readField? 2 1 12)
  let day ← (dropMark? '-' month.2).bind (readField? 2 1 (daysIn year.1 month.1))
  pure day.2

/-- What follows a time of day at the head of a text. Seconds may be left out. -/
def dropTime? (text : Text) : Option Text := do
  let hour ← readField? 2 0 23 text
  let minute ← (dropMark? ':' hour.2).bind (readField? 2 0 59)
  match minute.2 with
  | ':' :: rest =>
      let second ← readField? 2 0 60 rest
      match second.2 with
      | '.' :: decimals =>
          if (decimals.takeWhile Char.isDigit) = [] then none
          else pure (decimals.dropWhile Char.isDigit)
      | rest => pure rest
  | rest => pure rest

/-- Whether a text is an offset from universal time, or nothing. -/
def isOffset (text : Text) : Bool :=
  match text with
  | [] => true
  | ['Z'] => true
  | ['z'] => true
  | sign :: rest =>
      (sign = '+' || sign = '-') &&
        (match ((readField? 2 0 23 rest).bind fun hour => dropMark? ':' hour.2).bind
            (readField? 2 0 59) with
          | some minute => minute.2 = []
          | none => false)

/-- A date, a time of day, or both with or without an offset. -/
def isDate (text : Text) : Bool :=
  match dropDate? text with
  | some [] => true
  | some (separator :: rest) =>
      (separator = 'T' || separator = 't' || separator = ' ') &&
        (match dropTime? rest with
          | some offset => isOffset offset
          | none => false)
  | none => dropTime? text = some []

/-- The characters that end a word. Quotes do not. -/
def endsScalar (c : Char) : Bool :=
  isLineBlank c || c = '\n' || c = '\r' || c = '#' || c = ',' || c = '=' || c = '[' || c = ']' ||
    c = '\x7b' || c = '\x7d'

/-- The value of a word. -/
def ofWord? (word : Text) : Option Value :=
  if word = "true".toList then some (.boolean true)
  else if word = "false".toList then some (.boolean false)
  else
    (readNumber? word).or (if isDate word then some .date else none)

/-- The word at the head of a text. Between a date and a time of day there may be a blank. -/
def readScalar? (text : Text) : Option (Value × Text) :=
  let word := text.takeWhile fun c => !endsScalar c
  let rest := text.dropWhile fun c => !endsScalar c
  match dropDate? word, rest with
  | some [], ' ' :: c :: more =>
      if c.isDigit then
        let time := (c :: more).takeWhile fun c => !endsScalar c
        (ofWord? (word ++ ' ' :: time)).map fun value =>
          (value, (c :: more).dropWhile fun c => !endsScalar c)
      else (ofWord? word).map fun value => (value, rest)
  | _, _ => (ofWord? word).map fun value => (value, rest)

end HtmlMinifier.Toml

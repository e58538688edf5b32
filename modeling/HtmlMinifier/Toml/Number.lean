/-
# Numbers in settings files

An underscore may stand between two digits. A decimal number does not begin with a needless zero,
and only decimal numbers have a sign.

A number may pass for one as it is written and still have no value: an integer of more than 128
bits, the mark of a base without digits behind it, a fraction so large that it rounds to no finite
number of double precision, or an integer in which something other than a digit stands behind an
underscore. Reading such a number succeeds with `Value.unrepresentable`, so that it does harm only
where somebody asks for its value.
-/
import HtmlMinifier.Reference.Basic
import HtmlMinifier.Toml.Value

namespace HtmlMinifier.Toml

/-- Whether a character is a digit in a base. -/
def isDigitIn (base : Nat) (c : Char) : Bool := (Reference.digit? base c).isSome

/-- The parts of a number between its underscores. -/
def splitGroups (text : Text) : List Text := text.splitOnP (· = '_')

/-- Whether every underscore between these groups has digits on both sides. Only the characters
next to an underscore are looked at. -/
def areJoined (base : Nat) (groups : List Text) : Bool :=
  (groups.zip groups.tail).all fun pair =>
    pair.1.getLast?.any (isDigitIn base) && pair.2.head?.any (isDigitIn base)

/-- Whether decimal digits begin with a zero that stands for nothing. -/
def hasLeadingZero (digits : Text) : Bool := digits.head? = some '0' && digits.length ≠ 1

/-- A number without its sign. -/
def dropSign : Text → Text
  | '+' :: text => text
  | '-' :: text => text
  | text => text

/-- An integer, if it fits into 128 bits with a sign or without one. -/
def Value.ofInt (value : Int) : Value :=
  if -170141183460469231731687303715884105728 ≤ value ∧
      value ≤ 340282366920938463463374607431768211455 then
    .integer value
  else .unrepresentable

/-- An integer of decimal digits with or without a sign. -/
def Value.ofDecimal (text : Text) : Value :=
  match Reference.number? 10 (dropSign text) with
  | some value => .ofInt (if text.head? = some '-' then -Int.ofNat value else Int.ofNat value)
  | none => .unrepresentable

/-- An integer without a sign behind the mark of its base. A mark alone is a number without a
value. -/
def readBased? (base : Nat) (text : Text) : Option Value :=
  let groups := splitGroups text
  if text = [] then some .unrepresentable
  else if groups.all fun group => group ≠ [] && group.all (isDigitIn base) then
    (Reference.number? base groups.flatten).map fun value => .ofInt value
  else none

/-- A decimal integer. Only its first digits and the surroundings of its underscores are looked at
here; whether the rest are digits as well shows in the value. -/
def readDecimal? (text : Text) : Option Value :=
  let groups := splitGroups text
  let unsigned := dropSign text
  let behind := unsigned.dropWhile Char.isDigit
  if unsigned = [] || hasLeadingZero unsigned || !(behind = [] || behind.head? = some '_') ||
      !areJoined 16 groups then
    none
  else some (.ofDecimal groups.flatten)

/-- The digits at the head of a text, of which there must be one, and what follows them. -/
def takeDigits? (text : Text) : Option (Text × Text) :=
  let digits := text.takeWhile Char.isDigit
  if digits = [] then none else some (digits, text.dropWhile Char.isDigit)

/-- The digits of a fraction at the head of a text, if there is a fraction, and what follows it. -/
def readFraction? : Text → Option (Text × Text)
  | '.' :: text => takeDigits? text
  | text => some ([], text)

/-- The exponent that a text consists of. No text stands for zero. -/
def readExponent? : Text → Option Int
  | [] => some 0
  | mark :: text =>
      if mark = 'e' || mark = 'E' then
        (Reference.number? 10 (dropSign text)).map fun value =>
          if text.head? = some '-' then -Int.ofNat value else Int.ofNat value
      else none

/-- The least magnitude that rounds to no finite number of double precision: the largest finite
number is 2 ^ 1024 - 2 ^ 971, and half a unit above it lies the tie that is rounded away. -/
def overflowThreshold : Nat := Nat.pow 2 1024 - Nat.pow 2 970

/-- Whether the number of some decimal digits, scaled by a power of ten, is too large. Nonzero
digits scaled by 309 places always are, and digits scaled down by as many places as there are
digits never are, so the power need not be followed any further. -/
def overflows (digits : Text) (power : Int) : Bool :=
  let coefficient := (Reference.number? 10 digits).getD 0
  overflowThreshold * Nat.pow 10 (min (-power).toNat digits.length) ≤
    coefficient * Nat.pow 10 (min power.toNat 309)

/-- A decimal number with a fraction, an exponent or both. -/
def readFloat? (text : Text) : Option Value :=
  let groups := splitGroups text
  if !areJoined 10 groups then none
  else do
    let whole ← takeDigits? (dropSign groups.flatten)
    if hasLeadingZero whole.1 then none
    let fraction ← readFraction? whole.2
    let power ← readExponent? fraction.2
    pure (if overflows (whole.1 ++ fraction.1) (power - fraction.1.length) then .unrepresentable
      else .float)

/-- Whether a text is one of the numbers that have no digits. -/
def isSpecial (text : Text) : Bool :=
  dropSign text = "inf".toList || dropSign text = "nan".toList

/-- A number. A point or the letter of an exponent anywhere in it tells a fraction from an
integer. -/
def readNumber? (text : Text) : Option Value :=
  match text with
  | '0' :: 'x' :: digits => readBased? 16 digits
  | '0' :: 'o' :: digits => readBased? 8 digits
  | '0' :: 'b' :: digits => readBased? 2 digits
  | _ =>
      if isSpecial text then some .float
      else if text.any fun c => c = '.' || c = 'e' || c = 'E' then readFloat? text
      else readDecimal? text

end HtmlMinifier.Toml

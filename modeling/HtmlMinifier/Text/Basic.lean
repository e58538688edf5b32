/-
# Text as a list of characters

Every reader of this library consumes a list of characters and hands on the rest, so text is kept
as that list from the first reader to the last writer. This module holds the few operations that
all of them share: ASCII letter case, the five blanks of HTML, literals at the head of a text, and
splitting at the first occurrence of a literal. Lengths in UTF-8 bytes occur only in log lines.
-/

namespace HtmlMinifier

/-- Text is the list of its Unicode scalar values. -/
abbrev Text := List Char

namespace Text

/-- ASCII upper-case letters become lower case; every other character, accented letters included,
stays as it is. -/
def lower (text : Text) : Text := text.map Char.toLower

/-- The characters that HTML counts as white space: space, tab, line feed, form feed and carriage
return. The no-break space and the vertical tab are content. -/
def isBlank (c : Char) : Bool :=
  c = ' ' || c = '\t' || c = '\n' || c = '\x0c' || c = '\r'

/-- Cut the blanks off the front. -/
def trimStart (text : Text) : Text := text.dropWhile isBlank

/-- Cut the blanks off the end. -/
def trimEnd (text : Text) : Text := (text.reverse.dropWhile isBlank).reverse

/-- Cut the blanks off both ends. -/
def trim (text : Text) : Text := trimEnd (trimStart text)

/-- What follows `literal` at the head of a text, letters compared without regard to ASCII case. -/
def dropFolded? : (literal text : Text) → Option Text
  | [], text => some text
  | _ :: _, [] => none
  | l :: literal, c :: text => if l.toLower = c.toLower then dropFolded? literal text else none

/-- Whether a text begins with `literal`, letters compared without regard to ASCII case. -/
def startsFolded (literal text : Text) : Bool := (dropFolded? literal text).isSome

/-- The text before the first occurrence of `stop` and the text after it. Without an occurrence the
first part is everything and nothing follows. -/
def splitAt (stop : Text) : Text → Text × Text
  | [] => ([], [])
  | c :: text =>
      match dropFolded? stop (c :: text) with
      | some rest => ([], rest)
      | none =>
          let later := splitAt stop text
          (c :: later.1, later.2)

/-- The number of bytes of the UTF-8 encoding. -/
def utf8Length (text : Text) : Nat :=
  text.foldr (fun c length => c.utf8Size + length) 0

/-- A literal that is found leaves a text shorter by the length of the literal. -/
theorem length_of_dropFolded? {literal text rest : Text}
    (found : dropFolded? literal text = some rest) :
    rest.length + literal.length = text.length := by
  fun_induction dropFolded? literal text with
  | case1 text => simp_all
  | case2 => simp at found
  | case3 l literal c text same ih => simp [← ih found]; omega
  | case4 => simp at found

/-- Splitting never hands on more than it was given. -/
theorem length_splitAt_le (stop text : Text) : (splitAt stop text).2.length ≤ text.length := by
  induction text with
  | nil => simp [splitAt]
  | cons c text ih =>
      simp only [splitAt]
      split
      · next rest found => have := length_of_dropFolded? found; simp at *; omega
      · simp; omega

/-! ## The Unicode property White_Space

The body of a doctype and the text of a conditional comment are trimmed by the Unicode property,
which is wider than the five blanks of HTML: it has the vertical tab, the no-break space and the
spaces of general punctuation, but neither the zero-width space nor the byte order mark. -/

/-- Whether a character has the Unicode property White_Space. -/
def isWhiteSpace (c : Char) : Bool :=
  let code := c.toNat
  (0x9 ≤ code && code ≤ 0xD) || code = 0x20 || code = 0x85 || code = 0xA0 || code = 0x1680 ||
    (0x2000 ≤ code && code ≤ 0x200A) || code = 0x2028 || code = 0x2029 || code = 0x202F ||
    code = 0x205F || code = 0x3000

/-- Cut White_Space off both ends. -/
def trimWhiteSpace (text : Text) : Text :=
  ((text.dropWhile isWhiteSpace).reverse.dropWhile isWhiteSpace).reverse

end Text

end HtmlMinifier

/-
# Conditional comments

Some old browsers read the text of certain comments, so those comments are content and are kept. A
comment is conditional in two ways: somewhere in it a bracket opens with `[if`, white space
follows, and before the bracket closes `ie` stands as a word of its own; or the comment is nothing
but `<![endif]` with white space around it. Letters are compared without regard to ASCII case.
-/
import HtmlMinifier.Text.WordChar

namespace HtmlMinifier.Canonical

/-- Whether `ie` stands as a word of its own in a text that has `before` in front of it and `after`
behind it. -/
def hasWordIe (before after : Char) : Text → Bool
  | [] => false
  | c :: text =>
      (match Text.dropFolded? "ie".toList (c :: text) with
        | some rest => !Text.isWordChar before && !Text.isWordChar (rest.headD after)
        | none => false) ||
      hasWordIe c after text

/-- Whether a condition begins at the head of a text: `[if`, one character of white space, and `ie`
as a word before the next closing bracket, which has to be there. -/
def opensCondition (text : Text) : Bool :=
  match Text.dropFolded? "[if".toList text with
  | some (blank :: inside) =>
      Text.isWhiteSpace blank && inside.contains ']' &&
        hasWordIe blank ']' (inside.takeWhile (· ≠ ']'))
  | _ => false

/-- Whether a condition begins anywhere in a text. -/
def hasCondition : Text → Bool
  | [] => false
  | c :: text => opensCondition (c :: text) || hasCondition text

/-- Whether a text is the end of a condition and nothing else. -/
def isConditionEnd (text : Text) : Bool :=
  Text.lower (Text.trimWhiteSpace text) = "<![endif]".toList

/-- Whether the body of a comment is read by some browsers. -/
def isConditional (text : Text) : Bool := hasCondition text || isConditionEnd text

end HtmlMinifier.Canonical

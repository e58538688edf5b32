/-
# The pieces of a written document

A document is written piece by piece: its doctype, tags, kept comments and runs of text. Keeping
the pieces apart makes it plain what may be cut off again: trailing blanks of runs of text, and
nothing that belongs to a tag or a comment.
-/
import HtmlMinifier.Canonical.Attribute

namespace HtmlMinifier.Canonical

/-- One piece of a written document. A run of text is verbatim if its white space is content. -/
inductive Piece where
  | doctype
  | startTag (name : Text) (attributes : List (Text × Option Text))
  | endTag (name : Text)
  | comment (body : Text)
  | run (verbatim : Bool) (text : Text)
  deriving DecidableEq, Repr

/-- The text of a piece. -/
def Piece.render : Piece → Text
  | .doctype => Element.doctype
  | .startTag name attributes => '<' :: name ++ attributes.flatMap renderAttribute ++ ['>']
  | .endTag name => '<' :: '/' :: name ++ ['>']
  | .comment body => "<!--".toList ++ body ++ "-->".toList
  | .run _ text => text

/-- The text of pieces that are listed latest first. -/
def render (pieces : List Piece) : Text := pieces.reverse.flatMap Piece.render

/-- Cut the blanks off the end of pieces that are listed latest first. Runs of blanks alone vanish,
and every other piece ends with what is no blank. -/
def trimRuns : List Piece → List Piece
  | .run verbatim text :: earlier =>
      let trimmed := Text.trimEnd text
      if trimmed = [] then trimRuns earlier else .run verbatim trimmed :: earlier
  | pieces => pieces

end HtmlMinifier.Canonical

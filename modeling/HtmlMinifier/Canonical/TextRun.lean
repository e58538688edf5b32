/-
# Runs of text

How a run of text is written depends on where it stands: on the elements around it, and on what was
written just before it. Directly in an element whose text is not markup it is left alone. Elsewhere
its references are decoded and written anew, and outside preformatted elements every run of blanks
becomes one space. A space at the front is dropped where it cannot be seen: after a tag beside
which white space does not count, and after another space.
-/
import HtmlMinifier.Element
import HtmlMinifier.Reference.Basic

namespace HtmlMinifier.Canonical

/-- What the written document ends with. The tag of a void element counts as its end tag as soon as
the element is closed, although no end tag is written. -/
inductive Tail where
  | doctype
  | startTag (name : Text)
  | endTag (name : Text)
  | text (endsWithSpace : Bool)
  | comment
  deriving DecidableEq, Repr

/-- Where a run of text stands: the names of the elements around it, innermost first, and the end
of what is written so far. -/
structure Place where
  ancestors : List Text
  tail : Tail
  deriving DecidableEq, Repr

namespace Place

/-- The innermost element. -/
def current? (place : Place) : Option Text := place.ancestors.head?

/-- Directly in an element whose text is not markup. -/
def inRawText (place : Place) : Bool := place.current?.any Element.isRawText

/-- Under an element that keeps its white space. -/
def inPreformatted (place : Place) : Bool := place.ancestors.any Element.isPreformatted

/-- Under a `head`. -/
def inHead (place : Place) : Bool := place.ancestors.any (· = "head".toList)

/-- Text outside a `head` belongs to the body, whether or not a `body` is open. -/
def inFlowContent (place : Place) : Bool := !place.inHead

/-- Directly in `html` or `head`. -/
def inSkeleton (place : Place) : Bool := place.current?.any Element.isSkeleton

/-- Whether a space at the front of the run can be seen. -/
def keepsLeadingSpace (place : Place) : Bool :=
  match place.tail with
  | .startTag name => Element.isFlow name && !Element.isBlock name && place.inFlowContent
  | .endTag name => Element.isFlow name && place.inFlowContent
  | .text endsWithSpace => !endsWithSpace
  | .doctype => false
  | .comment => false

end Place

/-- Write every run of blanks as one space. `keep` says whether a space may be written at the
front; once a character is written a space may follow it, and after a space none may. -/
def collapse (keep : Bool) : Text → Text
  | [] => []
  | c :: text =>
      if Text.isBlank c then
        if keep then ' ' :: collapse false text else collapse false text
      else c :: collapse true text

/-- The written form of a complete run of text at a place. -/
def Place.normalize (place : Place) (text : Text) : Text :=
  if place.inRawText then text
  else if place.inPreformatted then Reference.normalize text
  else
    let collapsed := collapse place.keepsLeadingSpace (Reference.normalize text)
    if place.inSkeleton && collapsed.all Text.isBlank then [] else collapsed

end HtmlMinifier.Canonical

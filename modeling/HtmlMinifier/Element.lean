/-
# What is known about elements

The tables here are the whole of the library's knowledge about element names: which elements are
void, which keep their white space, which are blocks, and which start tags imply end tags. Names
are lower case throughout, and no table changes case on its own.
-/
import HtmlMinifier.Text.Basic

namespace HtmlMinifier.Element

/-- The document type that every written document begins with. -/
def doctype : Text := "<!doctype html>".toList

/-- Elements that have neither content nor an end tag. -/
def voidNames : List Text :=
  ["area", "base", "br", "col", "command", "embed", "hr", "img", "input", "keygen", "link", "meta",
    "param", "source", "track", "wbr"].map String.toList

/-- Elements under which white space is content. -/
def preformattedNames : List Text := ["pre", "script", "style", "textarea"].map String.toList

/-- Elements whose text is not markup at all, so that it has no character references either. -/
def rawTextNames : List Text := ["script", "style"].map String.toList

/-- Elements whose body is read up to the matching end tag, whatever else it looks like. -/
def verbatimNames : List Text := ["script", "style", "textarea", "title"].map String.toList

/-- Flow content: white space beside these elements can be seen. -/
def flowNames : List Text :=
  ["a", "abbr", "address", "area", "article", "aside", "audio", "b", "bdo", "blockquote", "br",
    "button", "canvas", "cite", "code", "command", "datalist", "del", "details", "dfn", "div",
    "dl", "em", "embed", "fieldset", "figure", "footer", "form", "h1", "h2", "h3", "h4", "h5",
    "h6", "header", "hgroup", "hr", "i", "iframe", "img", "input", "ins", "kbd", "keygen", "label",
    "link", "map", "mark", "math", "menu", "meta", "meter", "nav", "noscript", "object", "ol",
    "output", "p", "pre", "progress", "q", "ruby", "samp", "script", "section", "select", "small",
    "span", "strong", "style", "sub", "sup", "svg", "table", "textarea", "time", "ul", "var",
    "video",
    "wbr"].map String.toList

/-- Blocks: white space around their tags is never seen. -/
def blockNames : List Text :=
  ["address", "article", "aside", "audio", "blockquote", "canvas", "dd", "div", "dl", "fieldset",
    "figcaption", "figure", "footer", "form", "h1", "h2", "h3", "h4", "h5", "h6", "header",
    "hgroup", "hr", "li", "noscript", "ol", "output", "p", "pre", "section", "table", "tfoot",
    "thead", "tr",
    "ul", "video"].map String.toList

/-- Elements directly under which text of white space alone is never rendered. -/
def skeletonNames : List Text := ["head", "html"].map String.toList

/-- Elements whose start tag ends an open paragraph. -/
def paragraphClosers : List Text :=
  ["address", "article", "aside", "blockquote", "details", "dialog", "dir", "div", "dl",
    "fieldset",
    "figcaption", "figure", "footer", "form", "h1", "h2", "h3", "h4", "h5", "h6", "header",
    "hgroup", "hr", "main", "menu", "nav", "ol", "p", "pre", "search", "section", "table",
    "ul"].map String.toList

/-- Elements whose end tag does not imply the end of a paragraph inside them. -/
def paragraphEndBlockers : List Text :=
  ["a", "audio", "del", "ins", "map", "noscript", "video"].map String.toList

/-- Elements that begin foreign content, in which a start tag may close itself. -/
def foreignRoots : List Text := ["math", "svg"].map String.toList

/-- The key of the attributes that are boolean on every element. -/
def anyElement : Text := "*".toList

/-- The attributes that are written as a bare name, by the element that carries them. -/
def booleanAttributes : List (Text × List Text) :=
  [("*", ["autofocus", "hidden", "inert", "itemscope"]),
    ("audio", ["autoplay", "controls", "loop", "muted"]),
    ("button", ["disabled", "formnovalidate"]),
    ("details", ["open"]),
    ("dialog", ["open"]),
    ("fieldset", ["disabled"]),
    ("form", ["novalidate"]),
    ("iframe", ["allowfullscreen"]),
    ("img", ["ismap"]),
    ("input", ["checked", "disabled", "formnovalidate", "multiple", "readonly", "required"]),
    ("ol", ["reversed"]),
    ("optgroup", ["disabled"]),
    ("option", ["disabled", "selected"]),
    ("script", ["async", "defer", "nomodule"]),
    ("select", ["disabled", "multiple", "required"]),
    ("textarea", ["disabled", "readonly", "required"]),
    ("track", ["default"]),
    ("video", ["autoplay", "controls", "loop", "muted", "playsinline"])].map
      fun entry => (entry.1.toList, entry.2.map String.toList)

/-- The start tags that imply end tags, each with the elements they end. -/
def impliedEndTable : List (List Text × List Text) :=
  [(["li"], ["li"]),
    (["dt", "dd"], ["dd", "dt"]),
    (["rt", "rp"], ["rp", "rt"]),
    (["option"], ["option"]),
    (["optgroup"], ["optgroup", "option"]),
    (["tr"], ["colgroup", "td", "th", "tr"]),
    (["td", "th"], ["td", "th"]),
    (["thead", "tbody", "tfoot"],
      ["colgroup", "tbody", "td", "tfoot", "th", "thead", "tr"])].map
      (fun entry => (entry.1.map String.toList, entry.2.map String.toList)) ++
    [(paragraphClosers, [['p']])]

/-- Whether the element has neither content nor an end tag. -/
def isVoid (name : Text) : Bool := voidNames.contains name

/-- Whether white space is content under the element. -/
def isPreformatted (name : Text) : Bool := preformattedNames.contains name

/-- Whether the text of the element is not markup at all. -/
def isRawText (name : Text) : Bool := rawTextNames.contains name

/-- Whether the body of the element is read up to the matching end tag. -/
def isVerbatim (name : Text) : Bool := verbatimNames.contains name

/-- Whether white space beside the element can be seen. -/
def isFlow (name : Text) : Bool := flowNames.contains name

/-- Whether white space around the tags of the element is never seen. -/
def isBlock (name : Text) : Bool := blockNames.contains name

/-- Whether white space alone directly under the element is never rendered. -/
def isSkeleton (name : Text) : Bool := skeletonNames.contains name

/-- Whether the element begins foreign content. -/
def isForeignRoot (name : Text) : Bool := foreignRoots.contains name

/-- Whether the attribute is written as a bare name on the element. -/
def isBooleanAttribute (element name : Text) : Bool :=
  booleanAttributes.any fun entry =>
    (entry.1 = anyElement || entry.1 = element) && entry.2.contains name

/-- The elements that the start tag of `name` ends while they are innermost. -/
def impliedEnds (name : Text) : List Text :=
  match impliedEndTable.find? fun entry => entry.1.contains name with
  | some entry => entry.2
  | none => []

/-- Text that is not markup keeps its white space. -/
theorem isPreformatted_of_isRawText {name : Text} (raw : isRawText name = true) :
    isPreformatted name = true := by
  simp only [isRawText, rawTextNames, List.contains_iff_mem, List.map_cons, List.map_nil,
    List.mem_cons, List.not_mem_nil, or_false] at raw
  rcases raw with rfl | rfl <;> decide

end HtmlMinifier.Element

/-
# A balanced event stream for any tokens

Events describe a document as a walk through its tree. A stream of events honours three promises:
the document starts exactly once and first; every element that is opened is closed again, innermost
first; and text that is given in several consecutive pieces is one run of text.

The builder keeps the names of the open elements, innermost first. A start tag may first close
elements whose end tags it implies, an end tag closes everything inside the element that it names,
and whatever is open at the end is closed there, so the stream is balanced whatever the tokens
were. The implied end tags are the ones that written documents leave out: a minified document is
read back as the events it was written from.

`Event.feed` answers for one token and `Event.feedLog` reports on it; both look at the same stack.
-/
import HtmlMinifier.Element
import HtmlMinifier.Log
import HtmlMinifier.Token.Scan

namespace HtmlMinifier

/-- One step of the walk through a document. An attribute without a value has the empty value. -/
inductive Event where
  | documentStart
  | elementOpen (name : Text) (attributes : List (Text × Text))
  | elementClose (name : Text)
  | characters (text : Text)
  | cdata (text : Text)
  | comment (text : Text)
  deriving DecidableEq, Repr

namespace Event

/-- The names of the elements that are open, innermost first. -/
abbrev OpenElements := List Text

/-- The closes of a number of open elements, innermost first. -/
def closeAll (names : List Text) : List Event := names.map elementClose

/-- The innermost elements whose end tags the start tag of `name` implies. -/
def impliedlyClosed (name : Text) (stack : OpenElements) : List Text :=
  stack.takeWhile fun current => (Element.impliedEnds name).contains current

/-- What stays open once the start tag of `name` has closed what it implies. -/
def afterImplied (name : Text) (stack : OpenElements) : OpenElements :=
  stack.dropWhile fun current => (Element.impliedEnds name).contains current

/-- Whether an element of this name, opened on this stack, is foreign content. -/
def isForeign (name : Text) (stack : OpenElements) : Bool :=
  Element.isForeignRoot name || stack.any Element.isForeignRoot

/-- Open an element. A void element, and a foreign element whose tag closes itself, is closed at
once. -/
def openTag (name : Text) (attributes : List (Text × Option Text)) (selfClosing : Bool)
    (stack : OpenElements) : List Event × OpenElements :=
  let outer := afterImplied name stack
  let opened := elementOpen name (attributes.map fun given => (given.1, given.2.getD []))
  let closes := closeAll (impliedlyClosed name stack)
  if Element.isVoid name || (selfClosing && isForeign name outer) then
    (closes ++ [opened, elementClose name], outer)
  else (closes ++ [opened], name :: outer)

/-- Close the innermost element of this name and everything inside it. Without such an element the
end tag is ignored. -/
def closeTag (name : Text) (stack : OpenElements) : List Event × OpenElements :=
  if stack.contains name then
    (closeAll (stack.takeWhile (· ≠ name) ++ [name]), (stack.dropWhile (· ≠ name)).tail)
  else ([], stack)

/-- The events of one token, and the elements that are open after it. A doctype is dropped, because
a written document has its own. -/
def feed (stack : OpenElements) : Token → List Event × OpenElements
  | .doctype _ => ([], stack)
  | .startTag name attributes selfClosing => openTag name attributes selfClosing stack
  | .endTag name => closeTag name stack
  | .comment body => ([comment body], stack)
  | .cdata body => ([cdata body], stack)
  | .text body => (if body = [] then [] else [characters body], stack)

/-- The events of a list of tokens read with these elements open, with the closes of whatever is
open at the end. -/
def ofTokensWithin (stack : OpenElements) : List Token → List Event
  | [] => closeAll stack
  | token :: tokens =>
      let fed := feed stack token
      fed.1 ++ ofTokensWithin fed.2 tokens

/-- The balanced event stream of a list of tokens. -/
def ofTokens (tokens : List Token) : List Event :=
  documentStart :: ofTokensWithin [] tokens

/-- The balanced event stream of a text. -/
def parse (input : Text) : List Event := ofTokens (Token.tokenize input)

/-- What the builder reports on one token. -/
def feedLog (stack : OpenElements) : Token → List Log.Entry
  | .startTag name _ _ =>
      (impliedlyClosed name stack).map fun current =>
        ⟨.trace, "html.events",
          "<" ++ String.ofList name ++ "> implies </" ++ String.ofList current ++ ">"⟩
  | .endTag name =>
      if stack.contains name then []
      else [⟨.trace, "html.events", "ignoring stray end tag </" ++ String.ofList name ++ ">"⟩]
  | _ => []

/-- What the builder reports on a list of tokens read with these elements open. -/
def logWithin (stack : OpenElements) : List Token → List Log.Entry
  | [] =>
      if stack = [] then []
      else
        [⟨.trace, "html.events",
          "closing " ++ toString stack.length ++ " element(s) left open at end of input"⟩]
  | token :: tokens => feedLog stack token ++ logWithin (feed stack token).2 tokens

/-- What is reported when a text is read as events. -/
def parseLog (input : Text) : List Log.Entry :=
  let tokens := Token.tokenize input
  ⟨.trace, "html.tokenizer",
    "tokenized " ++ toString (Text.utf8Length input) ++ " bytes into " ++ toString tokens.length ++
      " tokens"⟩ :: logWithin [] tokens

end Event

end HtmlMinifier

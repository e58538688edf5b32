/-
# Writing a document from events

A draft is a document in the making. Before its start nothing can be written; after it a draft is a
writer, which holds the pieces written so far, the text that waits to be written and the names of
the open elements. Text waits until the next tag or comment, so that a run of text is normalized
once and as a whole, however many events it came in.

`Draft.push` takes one event and either answers the next draft or says which promise of the event
stream is broken. A broken promise is noticed before anything is changed. `Draft.requests` and
`Draft.log` tell, of the same draft and event, what a compressor is asked and what is reported.
-/
import HtmlMinifier.Canonical.Comment
import HtmlMinifier.Canonical.Piece
import HtmlMinifier.Canonical.TextRun
import HtmlMinifier.Event.Build
import HtmlMinifier.Style.Compressor

namespace HtmlMinifier.Canonical

/-- The promise of an event stream that was broken. Names are in lower case. -/
inductive StreamError where
  | notStarted
  | duplicateDocumentStart
  | emptyElementName
  | closeWithoutOpen (name : Text)
  | mismatchedClose (expected found : Text)
  | unclosedElements (count : Nat) (innermost : Text)
  deriving DecidableEq, Repr

/-- The error in words. -/
def StreamError.message : StreamError → String
  | .notStarted => "event received before document start"
  | .duplicateDocumentStart => "document start received twice"
  | .emptyElementName => "element open with an empty name"
  | .closeWithoutOpen name => "close of </" ++ String.ofList name ++ "> with no element open"
  | .mismatchedClose expected found =>
      "close of </" ++ String.ofList found ++ "> while <" ++ String.ofList expected ++
        "> is the innermost open element"
  | .unclosedElements count innermost =>
      "document ended with " ++ toString count ++ " open element(s), innermost <" ++
        String.ofList innermost ++ ">"

/-- The choices a writer leaves to its user. -/
structure Options where
  collapseEmptyAttributes : Bool := true
  compressor : Option Style.Compressor := none

/-- A document after its start: its pieces, latest first; the text that waits to be written; the
open elements, innermost first; and what the written text ends with. -/
structure Writer where
  pieces : List Piece
  pending : Text
  stack : List Text
  tail : Tail
  deriving DecidableEq, Repr

namespace Writer

/-- A document of which only the doctype is written. -/
def start : Writer := ⟨[.doctype], [], [], .doctype⟩

/-- Where text that is written now would stand. -/
def place (writer : Writer) : Place := ⟨writer.stack, writer.tail⟩

/-- The text that is written so far. -/
def written (writer : Writer) : Text := render writer.pieces

/-- Write the waiting text as one run. Nothing is written for a run that normalizes to nothing. -/
def flush (writer : Writer) : Writer :=
  let text := writer.place.normalize writer.pending
  if writer.pending = [] then writer
  else if text = [] then { writer with pending := [] }
  else
    { writer with
      pieces := .run writer.place.inPreformatted text :: writer.pieces
      pending := []
      tail := .text (text.getLast?.any Text.isBlank) }

/-- Before the tag of a block the blanks at the end of what is written are cut off, unless they are
content. -/
def trimBefore (name : Text) (writer : Writer) : Writer :=
  if Element.isBlock name && !writer.place.inPreformatted then
    { writer with pieces := trimRuns writer.pieces }
  else writer

/-- Write a start tag. -/
def openElement (options : Options) (name : Text) (attributes : List (Text × Text))
    (writer : Writer) : Writer :=
  let ready := writer.flush.trimBefore name
  { ready with
    pieces := .startTag name
      (canonicalAttributes options.collapseEmptyAttributes name attributes) :: ready.pieces
    stack := name :: ready.stack
    tail := .startTag name }

/-- The waiting text that a compressor is asked about when the innermost element is closed. -/
def styleText? (name : Text) (writer : Writer) : Option Text :=
  if name = "style".toList && !writer.pending.all Text.isBlank then some writer.pending else none

/-- Let the compressor replace the waiting text of a `style` element. -/
def compressStyle (options : Options) (name : Text) (writer : Writer) : Writer :=
  match options.compressor, writer.styleText? name with
  | some compressor, some css =>
      match compressor css with
      | .ok compressed => { writer with pending := Text.trim compressed }
      | .error _ => writer
  | _, _ => writer

/-- Write the end tag of the innermost element. A void element has none. -/
def closeElement (options : Options) (name : Text) (writer : Writer) : Writer :=
  let ready := ((writer.compressStyle options name).flush).trimBefore name
  { ready with
    pieces := if Element.isVoid name then ready.pieces else .endTag name :: ready.pieces
    stack := ready.stack.tail
    tail := .endTag name }

/-- Write a conditional comment and drop any other. -/
def comment (body : Text) (writer : Writer) : Writer :=
  let ready := writer.flush
  if isConditional body then
    { ready with pieces := .comment body :: ready.pieces, tail := .comment }
  else ready

/-- Let more text wait. -/
def characters (text : Text) (writer : Writer) : Writer :=
  { writer with pending := writer.pending ++ text }

/-- Take one event after the start of the document. -/
def push (options : Options) (writer : Writer) : Event → Except StreamError Writer
  | .documentStart => .error .duplicateDocumentStart
  | .elementOpen name attributes =>
      if name = [] then .error .emptyElementName
      else .ok (writer.openElement options (Text.lower name) attributes)
  | .elementClose name =>
      match writer.stack with
      | [] => .error (.closeWithoutOpen (Text.lower name))
      | current :: _ =>
          if current = Text.lower name then .ok (writer.closeElement options (Text.lower name))
          else .error (.mismatchedClose current (Text.lower name))
  | .characters text => .ok (writer.characters text)
  | .cdata text => .ok (writer.characters text)
  | .comment body => .ok (writer.comment body)

/-- The finished document, trimmed at both ends, if every element is closed. -/
def finish (writer : Writer) : Except StreamError Text :=
  match writer.stack with
  | [] => .ok (Text.trim writer.flush.written)
  | innermost :: _ => .error (.unclosedElements writer.stack.length innermost)

/-- What a compressor is asked at one event that is accepted. -/
def request? (writer : Writer) : Event → Option Text
  | .elementClose name =>
      if writer.stack.head? = some (Text.lower name) then writer.styleText? (Text.lower name)
      else none
  | _ => none

/-- What is reported at one event. -/
def log (options : Options) (writer : Writer) : Event → List Log.Entry
  | .elementOpen name _ =>
      if name = [] then []
      else
        [⟨.trace, "minify.serializer",
          "open <" ++ String.ofList (Text.lower name) ++ "> depth=" ++
            toString writer.stack.length⟩]
  | .elementClose name =>
      if writer.stack.head? = some (Text.lower name) then
        (match options.compressor, writer.styleText? (Text.lower name) with
          | some compressor, some css => Style.answerLog css (compressor css)
          | _, _ => []) ++
        [⟨.trace, "minify.serializer",
          "close </" ++ String.ofList (Text.lower name) ++ "> depth=" ++
            toString (writer.stack.length - 1)⟩]
      else []
  | .comment body =>
      if isConditional body then []
      else
        [⟨.trace, "minify.serializer",
          "dropping comment (" ++ toString (Text.utf8Length body) ++ " bytes)"⟩]
  | _ => []

end Writer

/-- A document in the making, or `none` before its start. -/
abbrev Draft := Option Writer

namespace Draft

/-- A draft before its start. -/
def blank : Draft := none

/-- Take one event. -/
def push (options : Options) (draft : Draft) (event : Event) : Except StreamError Draft :=
  match draft with
  | some writer => (writer.push options event).map some
  | none => if event = .documentStart then .ok (some Writer.start) else .error .notStarted

/-- Take events in order, up to the first that breaks a promise. -/
def pushAll (options : Options) (draft : Draft) (events : List Event) : Except StreamError Draft :=
  events.foldlM (push options) draft

/-- Take one event if it is accepted. A broken promise leaves the draft as it was. -/
def attempt (options : Options) (draft : Draft) (event : Event) : Draft :=
  match draft.push options event with
  | .ok next => next
  | .error _ => draft

/-- The finished document. -/
def finish : Draft → Except StreamError Text
  | some writer => writer.finish
  | none => .error .notStarted

/-- The names of the open elements, innermost first. -/
def stack : Draft → List Text
  | some writer => writer.stack
  | none => []

/-- What a compressor is asked while events are taken in order and broken promises are passed
over. -/
def requests (options : Options) (draft : Draft) : List Event → List Text
  | [] => []
  | event :: events =>
      (draft.bind fun writer => writer.request? event).toList ++
        requests options (draft.attempt options event) events

/-- The events in order up to the first that breaks a promise. -/
def accepted (options : Options) (draft : Draft) : List Event → List Event
  | [] => []
  | event :: events =>
      match draft.push options event with
      | .ok next => event :: accepted options next events
      | .error _ => []

/-- What is reported while events are taken in order and broken promises are passed over. -/
def log (options : Options) (draft : Draft) : List Event → List Log.Entry
  | [] => []
  | event :: events =>
      (match draft with
        | some writer => writer.log options event
        | none => []) ++
      log options (draft.attempt options event) events

end Draft

/-- The canonical document of an event stream. -/
def serialize (options : Options) (events : List Event) : Except StreamError Text :=
  (Draft.blank.pushAll options events).bind Draft.finish

end HtmlMinifier.Canonical

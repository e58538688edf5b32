/-
# Writing a document in place

A caller who writes a document by hand holds a session and changes it operation by operation. Each
operation is a course of small changes: the session has no copy to go back to, and an operation
that fails leaves it as it is at that moment. So the order in which an operation checks and changes
things matters. A session also remembers what its compressor was asked.

A session does step by step what a draft does at once, and the theory of sessions shows that the
two agree.
-/
import HtmlMinifier.Canonical.Writer

namespace HtmlMinifier.Canonical

/-- A document in the hands of a caller: whether it was started, what a writer holds of it, and
what the compressor was asked, in order. -/
structure Session where
  started : Bool
  writer : Writer
  asked : List Text
  deriving DecidableEq, Repr

namespace Session

/-- A session before the start of the document. -/
def fresh : Session := ⟨false, ⟨[], [], [], .doctype⟩, []⟩

/-- Changes of a session, one after the other, up to the first failure. -/
abbrev Operation := EStateM StreamError Session

/-- Change what the writer holds. -/
def change (edit : Writer → Writer) : Operation Unit :=
  modify fun session => { session with writer := edit session.writer }

/-- Write one piece. -/
def write (piece : Piece) : Operation Unit :=
  change fun writer => { writer with pieces := piece :: writer.pieces }

/-- Note what the written text ends with. -/
def setTail (tail : Tail) : Operation Unit := change fun writer => { writer with tail := tail }

/-- Refuse to go on before the start of the document. -/
def ensureStarted : Operation Unit := do
  unless (← get).started do
    throw .notStarted

/-- Refuse to start the document again. -/
def ensureNotStarted : Operation Unit := do
  if (← get).started then
    throw .duplicateDocumentStart

/-- Refuse an element without a name. -/
def ensureNamed (name : Text) : Operation Unit := do
  if name = [] then
    throw .emptyElementName

/-- Refuse to close any element but the innermost. -/
def ensureInnermost (name : Text) : Operation Unit := do
  match (← get).writer.stack with
  | [] => throw (.closeWithoutOpen name)
  | current :: _ =>
      if current ≠ name then
        throw (.mismatchedClose current name)

/-- Refuse to leave elements open. -/
def ensureClosed : Operation Unit := do
  match (← get).writer.stack with
  | [] => pure ()
  | innermost :: outer => throw (.unclosedElements (outer.length + 1) innermost)

/-- Start the document. -/
def startDocument : Operation Unit := do
  ensureNotStarted
  modify fun session => { session with started := true }
  write .doctype
  setTail .doctype

/-- Open an element. -/
def openElement (options : Options) (name : Text) (attributes : List (Text × Text)) :
    Operation Unit := do
  ensureStarted
  ensureNamed name
  let element := Text.lower name
  change Writer.flush
  change (Writer.trimBefore element)
  write (.startTag element (canonicalAttributes options.collapseEmptyAttributes element
    attributes))
  change fun writer => { writer with stack := element :: writer.stack }
  setTail (.startTag element)

/-- Ask the compressor about the waiting text of a `style` element, unless it is blank, and let the
answer wait in its place. -/
def compressStyle (options : Options) (element : Text) : Operation Unit := do
  match options.compressor, (← get).writer.styleText? element with
  | some compressor, some css =>
      modify fun session => { session with asked := session.asked ++ [css] }
      match compressor css with
      | .ok compressed => change fun writer => { writer with pending := Text.trim compressed }
      | .error _ => pure ()
  | _, _ => pure ()

/-- Write the end tag of an element. A void element has none. -/
def writeEndTag (element : Text) : Operation Unit :=
  if Element.isVoid element then pure () else write (.endTag element)

/-- Close an element. -/
def closeElement (options : Options) (name : Text) : Operation Unit := do
  ensureStarted
  let element := Text.lower name
  ensureInnermost element
  compressStyle options element
  change Writer.flush
  change (Writer.trimBefore element)
  change fun writer => { writer with stack := writer.stack.tail }
  writeEndTag element
  setTail (.endTag element)

/-- Add text, of whichever kind. -/
def characters (text : Text) : Operation Unit := do
  ensureStarted
  change (Writer.characters text)

/-- Write a comment, if it is a conditional one. -/
def writeComment (body : Text) : Operation Unit := do
  if isConditional body then
    write (.comment body)
    setTail .comment

/-- Write a conditional comment and drop any other. -/
def comment (body : Text) : Operation Unit := do
  ensureStarted
  change Writer.flush
  writeComment body

/-- The operation that an event asks for. -/
def operation (options : Options) : Event → Operation Unit
  | .documentStart => startDocument
  | .elementOpen name attributes => openElement options name attributes
  | .elementClose name => closeElement options name
  | .characters text => characters text
  | .cdata text => characters text
  | .comment body => comment body

/-- Write what waits, and hand out the document if every element is closed. -/
def finish : Operation Text := do
  ensureStarted
  change Writer.flush
  ensureClosed
  return Text.trim (← get).writer.written

/-- What an operation answers, and the session as it leaves it. -/
def perform {α : Type} (operation : Operation α) (session : Session) :
    Except StreamError α × Session :=
  match operation session with
  | .ok answer next => (.ok answer, next)
  | .error reason next => (.error reason, next)

/-- The events in order, each with the answer of its operation. A failure does not end the
session. -/
def answers (options : Options) (session : Session) :
    List Event → List (Event × Except StreamError Unit)
  | [] => []
  | event :: later =>
      (event, (perform (operation options event) session).1) ::
        answers options (perform (operation options event) session).2 later

/-- The session after the operations of some events, whether they succeed or fail. -/
def after (options : Options) (session : Session) (events : List Event) : Session :=
  events.foldl (fun current event => (perform (operation options event) current).2) session

end Session

end HtmlMinifier.Canonical

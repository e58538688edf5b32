/-
# A writer accepts every balanced stream

The stack of a writer is the stack of the stream it takes, with names in lower case, so a promise
that the stream keeps is never found broken. What a writer does with an accepted event is given by
a step without failures. No step touches the document type that everything begins with.
-/
import HtmlMinifier.Proofs.Canonical.Written
import HtmlMinifier.Proofs.Event.Balanced

namespace HtmlMinifier.Canonical

open Event (Balanced)

namespace Writer

/-- What becomes of a writer at an event that is accepted. -/
def step (options : Options) (writer : Writer) : Event → Writer
  | .documentStart => writer
  | .elementOpen name attributes => writer.openElement options (Text.lower name) attributes
  | .elementClose name => writer.closeElement options (Text.lower name)
  | .characters text => writer.characters text
  | .cdata text => writer.characters text
  | .comment body => writer.comment body

/-- What becomes of a writer at events that are accepted. -/
def steps (options : Options) (writer : Writer) (events : List Event) : Writer :=
  events.foldl (step options) writer

@[simp]
theorem steps_nil (options : Options) (writer : Writer) : writer.steps options [] = writer := rfl

@[simp]
theorem steps_cons (options : Options) (writer : Writer) (event : Event) (later : List Event) :
    writer.steps options (event :: later) = (writer.step options event).steps options later := rfl

theorem steps_append (options : Options) (writer : Writer) (first second : List Event) :
    writer.steps options (first ++ second) = (writer.steps options first).steps options second :=
  List.foldl_append

/-- A writer with the stack of a balanced stream takes all of it, and closes all that is open. -/
theorem pushAll_of_balanced (options : Options) {stack : List Text} {events : List Event}
    (balanced : Balanced stack events) (writer : Writer)
    (same : writer.stack = stack.map Text.lower) :
    Draft.pushAll options (some writer) events = .ok (some (writer.steps options events)) ∧
      (writer.steps options events).stack = [] := by
  induction balanced generalizing writer with
  | done => exact ⟨rfl, same⟩
  | opened _ named _ ih =>
      rw [Draft.pushAll, List.foldlM_cons, Draft.push, push, if_neg named]
      apply ih
      rw [openElement_stack, same, List.map_cons]
  | @closed stack name later _ ih =>
      have innermost : writer.stack = Text.lower name :: stack.map Text.lower := same
      have accepted : writer.push options (.elementClose name) =
          .ok (writer.closeElement options (Text.lower name)) := by
        rw [push, innermost]
        exact if_pos rfl
      rw [Draft.pushAll, List.foldlM_cons, Draft.push, accepted]
      apply ih
      rw [closeElement_stack, innermost, List.tail_cons]
  | characters _ ih | cdata _ ih => exact ih _ same
  | comment _ ih =>
      apply ih
      rw [comment_stack, same]

/-! ## The document type -/

/-- No step reaches into what begins the text and ends with no blank. -/
theorem prefix_written_step (options : Options) {first : Text}
    (solid : Text.endsBlank first = false)
    {writer : Writer} (begins : first <+: writer.written) (event : Event) :
    first <+: (writer.step options event).written := by
  have flushed : ∀ current : Writer, first <+: current.written →
      first <+: current.flush.written := by
    intro current whole
    rw [written_flush]
    exact whole.trans (List.prefix_append _ _)
  have trimmed : ∀ (current : Writer) (name : Text), first <+: current.written →
      first <+: (current.trimBefore name).written := by
    intro current name whole
    rw [written_trimBefore]
    split
    · exact Text.prefix_trimEnd solid whole
    · exact whole
  cases event with
  | documentStart => exact begins
  | elementOpen name attributes =>
      rw [step, written_openElement]
      exact (trimmed _ _ (flushed _ begins)).trans (List.prefix_append _ _)
  | elementClose name =>
      rw [step, written_closeElement]
      refine (trimmed _ _ (flushed _ ?_)).trans (List.prefix_append _ _)
      rw [compressStyle_written]
      exact begins
  | characters text | cdata text => exact begins
  | comment body =>
      rw [step, written_comment]
      exact (flushed _ begins).trans (List.prefix_append _ _)

theorem prefix_written_steps (options : Options) {first : Text}
    (solid : Text.endsBlank first = false)
    {writer : Writer} (begins : first <+: writer.written) (events : List Event) :
    first <+: (writer.steps options events).written := by
  induction events generalizing writer with
  | nil => exact begins
  | cons event events ih => exact ih (prefix_written_step options solid begins event)

end Writer

/-- A balanced stream behind the start of a document is written as a whole. -/
theorem serialize_of_balanced (options : Options) {events : List Event}
    (balanced : Balanced [] events) :
    serialize options (.documentStart :: events) =
      .ok (Text.trim (Writer.start.steps options events).flush.written) := by
  obtain ⟨taken, closed⟩ := Writer.pushAll_of_balanced options balanced
    Writer.start rfl
  change (Draft.pushAll options (some Writer.start) events).bind Draft.finish = _
  rw [taken]
  simp only [Except.bind, Draft.finish, Writer.finish, closed]

/-- Trimming a text that begins with the document type only cuts off its end. -/
theorem trim_of_doctype {text : Text} (begins : Element.doctype <+: text) :
    Text.trim text = Text.trimEnd text := by
  have bracket : ['<'] <+: Element.doctype := ⟨Element.doctype.tail, rfl⟩
  exact Text.trim_of_prefix (by decide) (bracket.trans begins)

/-- What is left of a text that begins with the document type still does so when it is trimmed. -/
theorem doctype_prefix_trim {text : Text} (begins : Element.doctype <+: text) :
    Element.doctype <+: Text.trim text := by
  rw [trim_of_doctype begins]
  exact Text.prefix_trimEnd (by decide) begins

/-- What is written of a balanced stream begins with the document type. -/
theorem doctype_prefix_serialize (options : Options) {events : List Event}
    (balanced : Balanced [] events) :
    ∃ out, serialize options (.documentStart :: events) = .ok out ∧ Element.doctype <+: out ∧
      Text.endsBlank out = false := by
  have begins : Element.doctype <+: (Writer.start.steps options events).flush.written := by
    rw [Writer.written_flush]
    have solid : Text.endsBlank Element.doctype = false := by decide
    exact (Writer.prefix_written_steps options solid List.prefix_rfl events).trans
      (List.prefix_append _ _)
  refine ⟨_, serialize_of_balanced options balanced, doctype_prefix_trim begins, ?_⟩
  rw [trim_of_doctype begins, Text.endsBlank_trimEnd]

end HtmlMinifier.Canonical

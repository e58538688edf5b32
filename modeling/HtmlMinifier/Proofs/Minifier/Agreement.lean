/-
# Writers that end alike and writers that do not

What a writer does with the events to come depends on the text that it has written, but not on the
pieces that this text was written in. So writers that agree on the text, on what waits, on the open
elements and on the tail end with the same document. Writers have parted once one of them has
written a blank where the other one has written something else: what is no blank is never cut off
again, so they end with different documents whatever comes.
-/
import HtmlMinifier.Proofs.Canonical.Acceptance
import HtmlMinifier.Proofs.Minifier.Compression

namespace HtmlMinifier.Canonical

variable {options : Options}

/-! ## Accepted events -/

namespace Writer

/-- Whether an event is accepted depends on the open elements alone, and so does the error. An
event that is accepted is taken by a step. -/
theorem push_alike (options : Options) {first second : Writer} (same : second.stack = first.stack)
    (event : Event) :
    (∃ error, first.push options event = .error error ∧ second.push options event = .error error) ∨
      first.push options event = .ok (first.step options event) ∧
        second.push options event = .ok (second.step options event) := by
  cases event with
  | documentStart => exact .inl ⟨_, rfl, rfl⟩
  | elementOpen name attributes =>
      rw [push, push]
      split
      · exact .inl ⟨_, rfl, rfl⟩
      · exact .inr ⟨rfl, rfl⟩
  | elementClose name =>
      rw [push, push, same]
      split
      · exact .inl ⟨_, rfl, rfl⟩
      · split
        · exact .inr ⟨rfl, rfl⟩
        · exact .inl ⟨_, rfl, rfl⟩
  | characters text | cdata text | comment body => exact .inr ⟨rfl, rfl⟩

/-- Only the innermost element is closed. -/
theorem exists_outer_of_push {writer next : Writer} {name : Text}
    (accepted : writer.push options (.elementClose name) = .ok next) :
    ∃ outer, writer.stack = Text.lower name :: outer := by
  rw [push] at accepted
  split at accepted
  · cases accepted
  · next current outer around =>
      split at accepted
      · next same => exact ⟨outer, by rw [around, same]⟩
      · cases accepted

end Writer

namespace Draft

theorem pushAll_step {writer : Writer} {event : Event}
    (taken : writer.push options event = .ok (writer.step options event)) (later : List Event) :
    pushAll options (some writer) (event :: later) =
      pushAll options (some (writer.step options event)) later := by
  rw [pushAll_cons, push, taken]
  rfl

theorem pushAll_of_error {writer : Writer} {event : Event} {error : StreamError}
    (failed : writer.push options event = .error error) (later : List Event) :
    pushAll options (some writer) (event :: later) = .error error := by
  rw [pushAll_cons, push, failed]
  rfl

/-- Events that are accepted are taken by steps. -/
theorem eq_steps_of_pushAll {writer : Writer} {events : List Event} {draft : Draft}
    (accepted : pushAll options (some writer) events = .ok draft) :
    draft = some (writer.steps options events) := by
  induction events generalizing writer with
  | nil =>
      cases accepted
      rfl
  | cons event later ih =>
      rcases Writer.push_alike options (rfl : writer.stack = writer.stack) event with
        ⟨error, failed, _⟩ | ⟨taken, _⟩
      · rw [pushAll_of_error failed] at accepted
        cases accepted
      · rw [pushAll_step taken] at accepted
        exact ih accepted

/-- A document that is begun has taken a start and, by steps, the events behind it. -/
theorem exists_steps_of_pushAll {events : List Event} {writer : Writer}
    (accepted : blank.pushAll options events = .ok (some writer)) :
    ∃ later, events = .documentStart :: later ∧ writer = Writer.start.steps options later := by
  cases events with
  | nil => cases accepted
  | cons event later =>
      by_cases isStart : event = .documentStart
      · rw [isStart] at accepted
        exact ⟨later, by rw [isStart], Option.some.inj (eq_steps_of_pushAll accepted)⟩
      · have refused : blank.push options event = .error .notStarted := if_neg isStart
        rw [pushAll_cons, refused] at accepted
        cases accepted

end Draft

namespace Writer

/-- The document that a writer ends with when it takes more events, or the error. -/
def ending (options : Options) (writer : Writer) (events : List Event) : Except StreamError Text :=
  (Draft.pushAll options (some writer) events).bind Draft.finish

@[simp]
theorem ending_nil (writer : Writer) : writer.ending options [] = writer.finish := rfl

theorem ending_step {writer : Writer} {event : Event}
    (taken : writer.push options event = .ok (writer.step options event)) (later : List Event) :
    writer.ending options (event :: later) = (writer.step options event).ending options later := by
  rw [ending, Draft.pushAll_step taken, ending]

theorem ending_of_error {writer : Writer} {event : Event} {error : StreamError}
    (failed : writer.push options event = .error error) (later : List Event) :
    writer.ending options (event :: later) = .error error := by
  rw [ending, Draft.pushAll_of_error failed]
  rfl

/-- The first of some events that lead to a document is accepted. -/
theorem push_of_ending {writer : Writer} {event : Event} {later : List Event} {out : Text}
    (ends : writer.ending options (event :: later) = .ok out) :
    writer.push options event = .ok (writer.step options event) := by
  rcases push_alike options (rfl : writer.stack = writer.stack) event with ⟨error, failed,
    _⟩ | ⟨taken, _⟩
  · rw [ending_of_error failed] at ends
    cases ends
  · exact taken

/-! ## Waiting text -/

theorem flush_of_nothing {writer : Writer} (none : writer.pending = []) :
    writer.flush = writer := by
  rw [flush]
  exact if_pos none

/-- A tag or a comment finds no text waiting, whether it was written before or is written now. -/
theorem step_flush (none : options.compressor = none) (writer : Writer) {event : Event}
    (noText : Style.addsText event = false) (noStart : event ≠ .documentStart) :
    writer.flush.step options event = writer.step options event := by
  have same : writer.flush.flush = writer.flush := flush_of_nothing (flush_pending writer)
  cases event with
  | documentStart => exact absurd rfl noStart
  | elementOpen name attributes => rw [step, step, openElement, openElement, same]
  | elementClose name =>
      rw [step, step, closeElement, closeElement, compressStyle_eq_self none,
        compressStyle_eq_self none,
        same]
  | characters text | cdata text => cases noText
  | comment body => rw [step, step, comment, comment, same]

/-- In front of anything but more text, waiting text may as well be written. -/
theorem ending_flush (none : options.compressor = none) (writer : Writer) {events : List Event}
    (noText : ∀ event, events.head? = some event → Style.addsText event = false) :
    writer.flush.ending options events = writer.ending options events := by
  cases events with
  | nil =>
      rw [ending_nil, ending_nil, finish, finish, flush_stack,
        flush_of_nothing (flush_pending writer)]
  | cons event later =>
      rcases push_alike options (flush_stack writer) event with ⟨error, failed, alsoFailed⟩
        | ⟨taken, alsoTaken⟩
      · rw [ending_of_error failed, ending_of_error alsoFailed]
      · have noStart : event ≠ .documentStart := by
          rintro rfl
          cases taken
        rw [ending_step taken, ending_step alsoTaken, step_flush none writer (noText event rfl)
          noStart]

/-! ## Writers that agree -/

/-- Two writers with the same text, cut into pieces in different ways. -/
structure Agrees (first second : Writer) : Prop where
  written : second.written = first.written
  pending : second.pending = first.pending
  stack : second.stack = first.stack
  tail : second.tail = first.tail

namespace Agrees

variable {first second : Writer}

theorem place (agrees : first.Agrees second) : second.place = first.place := by
  rw [Writer.place, Writer.place, agrees.stack, agrees.tail]

theorem flush (agrees : first.Agrees second) : first.flush.Agrees second.flush where
  written := by rw [written_flush, written_flush, agrees.written, agrees.place, agrees.pending]
  pending := by rw [flush_pending, flush_pending]
  stack := by rw [flush_stack, flush_stack, agrees.stack]
  tail := by rw [flush_tail, flush_tail, agrees.tail, agrees.place, agrees.pending]

theorem trimBefore (agrees : first.Agrees second) (name : Text) :
    (first.trimBefore name).Agrees (second.trimBefore name) where
  written := by
    rw [written_trimBefore, written_trimBefore, agrees.written, cutsBefore, cutsBefore,
      agrees.place]
  pending := by rw [trimBefore_pending, trimBefore_pending, agrees.pending]
  stack := by rw [trimBefore_stack, trimBefore_stack, agrees.stack]
  tail := by rw [trimBefore_tail, trimBefore_tail, agrees.tail]

theorem compressStyle (agrees : first.Agrees second) (options : Options) (name : Text) :
    (first.compressStyle options name).Agrees (second.compressStyle options name) := by
  have asked : second.styleText? name = first.styleText? name := by
    rw [styleText?, styleText?, agrees.pending]
  rw [Writer.compressStyle, Writer.compressStyle, asked]
  split
  · split
    · exact ⟨agrees.written, rfl, agrees.stack, agrees.tail⟩
    · exact agrees
  · exact agrees

theorem step (agrees : first.Agrees second) (options : Options) (event : Event) :
    (first.step options event).Agrees (second.step options event) := by
  cases event with
  | documentStart => exact agrees
  | elementOpen name attributes =>
      have ready := agrees.flush.trimBefore (Text.lower name)
      refine ⟨?_, ?_, ?_, rfl⟩
      · rw [Writer.step, Writer.step, written_openElement, written_openElement, ready.written]
      · rw [Writer.step, Writer.step, openElement_pending, openElement_pending]
      · rw [Writer.step, Writer.step, openElement_stack, openElement_stack, agrees.stack]
  | elementClose name =>
      have ready := (agrees.compressStyle options (Text.lower name)).flush.trimBefore
        (Text.lower name)
      refine ⟨?_, ?_, ?_, rfl⟩
      · rw [Writer.step, Writer.step, written_closeElement, written_closeElement, ready.written]
      · rw [Writer.step, Writer.step, closeElement_pending, closeElement_pending]
      · rw [Writer.step, Writer.step, closeElement_stack, closeElement_stack, agrees.stack]
  | characters text | cdata text =>
      refine ⟨agrees.written, ?_, agrees.stack, agrees.tail⟩
      rw [Writer.step, Writer.step, characters, characters, agrees.pending]
  | comment body =>
      have ready := agrees.flush
      refine ⟨?_, ?_, ?_, ?_⟩
      · rw [Writer.step, Writer.step, written_comment, written_comment, ready.written]
      · rw [Writer.step, Writer.step, comment_pending, comment_pending]
      · rw [Writer.step, Writer.step, comment_stack, comment_stack, agrees.stack]
      · simp only [Writer.step, comment]
        split
        · rfl
        · exact ready.tail

theorem finish (agrees : first.Agrees second) : second.finish = first.finish := by
  rw [Writer.finish, Writer.finish, agrees.stack, agrees.flush.written]

/-- Writers that agree end alike. -/
theorem ending_eq (agrees : first.Agrees second) (options : Options) (events : List Event) :
    second.ending options events = first.ending options events := by
  induction events generalizing first second with
  | nil => exact agrees.finish
  | cons event later ih =>
      rcases push_alike options agrees.stack event with ⟨error, failed, alsoFailed⟩ | ⟨taken,
        alsoTaken⟩
      · rw [ending_of_error failed, ending_of_error alsoFailed]
      · rw [ending_step taken, ending_step alsoTaken]
        exact ih (agrees.step options event)

end Agrees

/-! ## Writers that have parted -/

/-- One writer has written a blank where the other one has written something else, and something
else stands behind the blank, too. -/
structure Parts (first second : Writer) : Prop where
  begins : ['<'] <+: first.written ∧ ['<'] <+: second.written
  differs : ∃ front c d, Text.isBlank c = false ∧ Text.isBlank d = false ∧
    front ++ [c] <+: first.written ∧ front ++ [' ', d] <+: second.written

theorem Parts.of_written {first second : Writer} {front later behind : Text} {c d : Char}
    (begins : ['<'] <+: front) (solid : Text.isBlank c = false)
    (solidBehind : Text.isBlank d = false)
    (written : first.written = front ++ c :: later)
    (alsoWritten : second.written = front ++ ' ' :: d :: behind) : first.Parts second where
  begins := by
    rw [written, alsoWritten]
    exact ⟨begins.trans (List.prefix_append _ _), begins.trans (List.prefix_append _ _)⟩
  differs := by
    refine ⟨front, c, d, solid, solidBehind, ?_, ?_⟩
    · rw [written]
      exact ⟨later, by rw [List.append_assoc]; rfl⟩
    · rw [alsoWritten]
      exact ⟨behind, by rw [List.append_assoc]; rfl⟩

/-- What ends with no blank is there for good. -/
theorem prefix_of_ending {writer : Writer} {events : List Event} {out front : Text}
    (ends : writer.ending options events = .ok out) (begins : ['<'] <+: writer.written)
    (solid : Text.endsBlank front = false) (written : front <+: writer.written) :
    front <+: out := by
  induction events generalizing writer with
  | nil =>
      rw [ending_nil, finish] at ends
      split at ends
      · cases ends
        have flushed : writer.written <+: writer.flush.written := by
          rw [written_flush]
          exact List.prefix_append _ _
        rw [Text.trim_of_prefix (by decide) (begins.trans flushed)]
        exact Text.prefix_trimEnd solid (written.trans flushed)
      · cases ends
  | cons event later ih =>
      rw [ending_step (push_of_ending ends)] at ends
      exact ih ends (prefix_written_step options (by decide) begins event)
        (prefix_written_step options solid written event)

/-- Writers that have parted end with different documents. -/
theorem Parts.ending_ne {first second : Writer} (parts : first.Parts second) {events : List Event}
    {out : Text} (ends : first.ending options events = .ok out) :
    second.ending options events ≠ .ok out := by
  intro alsoEnds
  obtain ⟨front, c, d, solid, solidBehind, written, alsoWritten⟩ := parts.differs
  have stays := prefix_of_ending ends parts.begins.1 (by rw [Text.endsBlank_concat, solid]) written
  have solidBoth : Text.endsBlank (front ++ [' ', d]) = false := by
    rw [List.append_cons, Text.endsBlank_concat, solidBehind]
  have alsoStays := prefix_of_ending alsoEnds parts.begins.2 solidBoth alsoWritten
  have shorter : front ++ [' '] <+: out := by
    refine List.IsPrefix.trans ⟨[d], ?_⟩ alsoStays
    rw [List.append_assoc]
    rfl
  have same : front ++ [c] = front ++ [' '] :=
    List.IsPrefix.eq_of_length (List.prefix_of_prefix_length_le stays shorter (by simp)) (by simp)
  obtain rfl : c = ' ' := by simpa using same
  exact absurd solid (by decide)

end Writer

end HtmlMinifier.Canonical

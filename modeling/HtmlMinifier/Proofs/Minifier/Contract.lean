/-
# What an event stream promises

An event stream promises to start the document once and first, to name every element that it opens,
to close elements innermost first and to leave none open. A stream is minified exactly if it keeps
these promises, whatever its text, attributes and comments are. Otherwise the error tells of the
first event that breaks one, and of the end of the stream only if no event does.

The names of the open elements are a matter of the stream alone. A draft that has taken some events
has the same names on its stack, so it breaks off at the first event that the stream itself shows
to be wrong.
-/
import HtmlMinifier.Minifier
import HtmlMinifier.Proofs.Canonical.Written

namespace HtmlMinifier.Canonical

/-! ## The promises -/

/-- The names of the open elements once an event has been taken, innermost first and in lower
case. -/
def openAfter (names : List Text) : Event → List Text
  | .elementOpen name _ => Text.lower name :: names
  | .elementClose _ => names.tail
  | _ => names

/-- The names of the elements that a stream leaves open, innermost first and in lower case. -/
def openElements (events : List Event) : List Text := events.foldl openAfter []

@[simp]
theorem openElements_nil : openElements [] = [] := rfl

@[simp]
theorem openElements_concat (events : List Event) (event : Event) :
    openElements (events ++ [event]) = openAfter (openElements events) event :=
  List.foldl_concat openAfter [] event events

/-- A stream that keeps all of its promises. -/
structure KeepsPromises (events : List Event) : Prop where
  started : events.head? = some .documentStart
  startedOnce : .documentStart ∉ events.tail
  named : ∀ name attributes, .elementOpen name attributes ∈ events.tail → name ≠ []
  nested : ∀ earlier name later, events = earlier ++ .elementClose name :: later →
    (openElements earlier).head? = some (Text.lower name)
  closed : openElements events = []

/-- An event that breaks a promise behind the events before it, and the error that tells so. Before
the document is started every other promise waits. -/
inductive Violation (earlier : List Event) : Event → StreamError → Prop
  | notStarted {event : Event} (first : earlier = []) (other : event ≠ .documentStart) :
      Violation earlier event .notStarted
  | startedAgain (started : earlier ≠ []) : Violation earlier .documentStart
    .duplicateDocumentStart
  | unnamed (started : earlier ≠ []) (attributes : List (Text × Text)) :
      Violation earlier (.elementOpen [] attributes) .emptyElementName
  | noneOpen {name : Text} (started : earlier ≠ []) (none : openElements earlier = []) :
      Violation earlier (.elementClose name) (.closeWithoutOpen (Text.lower name))
  | otherOpen {name innermost : Text} (started : earlier ≠ [])
      (current : (openElements earlier).head? = some innermost)
        (differs : innermost ≠ Text.lower name) :
      Violation earlier (.elementClose name) (.mismatchedClose innermost (Text.lower name))

/-- A stream none of whose events breaks a promise. -/
def Faultless (events : List Event) : Prop :=
  ∀ earlier event later error, events = earlier ++ event :: later → ¬ Violation earlier event error

/-- The error of a stream that breaks a promise: that of its first wrong event or, if no event is
wrong, that of its end. -/
inductive Breaks : List Event → StreamError → Prop
  | event {earlier later : List Event} {event : Event} {error : StreamError}
      (faultless : Faultless earlier) (violation : Violation earlier event error) :
      Breaks (earlier ++ event :: later) error
  | empty : Breaks [] .notStarted
  | unclosed {events : List Event} {innermost : Text} {outer : List Text} (some : events ≠ [])
      (faultless : Faultless events) (leaves : openElements events = innermost :: outer) :
      Breaks events (.unclosedElements (outer.length + 1) innermost)

theorem faultless_nil : Faultless [] := by
  intro earlier event later error parts
  exact absurd parts.symm (by simp)

/-- One more event keeps a stream faultless if it breaks no promise itself. -/
theorem faultless_concat {events : List Event} {event : Event} :
    Faultless (events ++ [event]) ↔ Faultless events ∧ ∀ error,
    ¬ Violation events event error := by
  constructor
  · intro whole
    refine ⟨fun earlier wrong later error parts => ?_,
      fun error => whole events event [] error rfl⟩
    exact whole earlier wrong (later ++ [event]) error (by rw [parts]; simp)
  · rintro ⟨faultless, last⟩ earlier wrong later error parts
    rcases List.eq_nil_or_concat later with rfl | ⟨inner, other, rfl⟩
    · obtain ⟨rfl, same⟩ := List.append_inj' parts rfl
      cases same
      exact last error
    · have shorter : events ++ [event] = (earlier ++ wrong :: inner) ++ [other] := by
        rw [parts]
        simp
      exact faultless earlier wrong inner error (List.append_inj' shorter rfl).1

/-- A stream keeps its promises if no event breaks one, and neither does its end. -/
theorem keepsPromises_iff {events : List Event} :
    KeepsPromises events ↔ Faultless events ∧ events ≠ [] ∧ openElements events = [] := by
  constructor
  · intro keeps
    have inTail : ∀ earlier event later, earlier ≠ [] → events = earlier ++ event :: later →
        event ∈ events.tail := by
      intro earlier event later started parts
      rw [parts, List.tail_append_of_ne_nil started]
      simp
    refine ⟨fun earlier event later error parts violation => ?_, fun none => ?_, keeps.closed⟩
    · cases violation with
      | notStarted first other =>
          have head := keeps.started
          rw [parts, first] at head
          exact other (Option.some.inj head)
      | startedAgain started => exact keeps.startedOnce (inTail _ _ _ started parts)
      | unnamed started attributes =>
          exact keeps.named [] attributes (inTail _ _ _ started parts) rfl
      | noneOpen started none =>
          have current := keeps.nested earlier _ later parts
          rw [none] at current
          cases current
      | otherOpen started current differs =>
          rw [keeps.nested earlier _ later parts] at current
          exact differs (Option.some.inj current).symm
    · have head := keeps.started
      rw [none] at head
      cases head
  · rintro ⟨faultless, some, closed⟩
    obtain ⟨first, rest, rfl⟩ := List.exists_cons_of_ne_nil some
    have split : ∀ event ∈ rest, ∃ earlier later, earlier ≠ [] ∧
        first :: rest = earlier ++ event :: later := by
      intro event member
      obtain ⟨before, behind, rfl⟩ := List.append_of_mem member
      exact ⟨first :: before, behind, List.cons_ne_nil _ _, rfl⟩
    have isStart : first = .documentStart := by
      by_contra other
      exact faultless [] first rest .notStarted rfl (.notStarted rfl other)
    refine ⟨by rw [isStart]; rfl, fun member => ?_, fun name attributes member none => ?_,
      fun earlier name later parts => ?_, closed⟩
    · obtain ⟨earlier, later, started, parts⟩ := split _ member
      exact faultless earlier _ later _ parts (.startedAgain started)
    · obtain ⟨earlier, later, started, parts⟩ := split _ member
      rw [none] at parts
      exact faultless earlier _ later _ parts (.unnamed started attributes)
    · have started : earlier ≠ [] := by
        rintro rfl
        rw [isStart] at parts
        cases parts
      cases current : openElements earlier with
      | nil => exact absurd (.noneOpen started current) (faultless earlier _ later _ parts)
      | cons innermost outer =>
          rw [List.head?_cons]
          by_contra differs
          exact faultless earlier _ later _ parts
            (.otherOpen started (by rw [current]; rfl) fun same => differs (by rw [same]))

/-! ## A draft knows what is open -/

/-- An event that is accepted changes the open elements as it says. -/
theorem Writer.stack_of_push {options : Options} {writer next : Writer} {event : Event}
    (accepted : writer.push options event = .ok next) :
    next.stack = openAfter writer.stack event := by
  cases event with
  | documentStart => cases accepted
  | elementOpen name attributes =>
      rw [push] at accepted
      split at accepted
      · cases accepted
      · cases accepted
        exact openElement_stack options (Text.lower name) attributes writer
  | elementClose name =>
      rw [push] at accepted
      split at accepted
      · cases accepted
      · split at accepted
        · cases accepted
          exact closeElement_stack options (Text.lower name) writer
        · cases accepted
  | characters text | cdata text =>
      cases accepted
      exact characters_stack text writer
  | comment body =>
      cases accepted
      exact comment_stack writer body

/-- A draft that has taken events: it is a writer from the first of them on, with their open
elements on its stack. -/
structure Draft.HasTaken (draft : Draft) (events : List Event) : Prop where
  begins : draft = none ↔ events = []
  stack : draft.stack = openElements events

namespace Draft

variable {options : Options} {draft next : Draft} {events : List Event} {event : Event}

theorem hasTaken_nil : blank.HasTaken [] := ⟨⟨fun _ => rfl, fun _ => rfl⟩, rfl⟩

/-- A draft refuses exactly the events that break a promise. -/
theorem HasTaken.push_eq_error_iff (options : Options) (taken : draft.HasTaken events)
    {error : StreamError} :
    draft.push options event = .error error ↔ Violation events event error := by
  cases draft with
  | none =>
      have first : events = [] := taken.begins.1 rfl
      rw [push]
      constructor
      · intro refused
        split at refused
        · cases refused
        · next other =>
            cases refused
            exact .notStarted first other
      · intro violation
        cases violation with
        | notStarted _ other => rw [if_neg other]
        | startedAgain started | unnamed started | noneOpen started | otherOpen started =>
            exact absurd first started
  | some writer =>
      have started : events ≠ [] := fun none => nomatch taken.begins.2 none
      have sameStack : writer.stack = openElements events := taken.stack
      constructor
      · intro refused
        cases event with
        | documentStart =>
            cases refused
            exact .startedAgain started
        | elementOpen name attributes =>
            by_cases none : name = []
            · rw [push, Writer.push, if_pos none] at refused
              cases refused
              rw [none]
              exact .unnamed started attributes
            · rw [push, Writer.push, if_neg none] at refused
              cases refused
        | elementClose name =>
            rw [push, Writer.push] at refused
            split at refused
            · next none =>
                cases refused
                exact .noneOpen started (sameStack.symm.trans none)
            · next innermost outer current =>
                split at refused
                · cases refused
                · next differs =>
                    cases refused
                    refine .otherOpen started ?_ differs
                    rw [← sameStack, current]
                    rfl
        | characters text | cdata text | comment body => cases refused
      · intro violation
        cases violation with
        | notStarted first other => exact absurd first started
        | startedAgain _ => rfl
        | unnamed _ attributes => rw [push, Writer.push, if_pos rfl]; rfl
        | noneOpen _ none => rw [push, Writer.push, sameStack, none]; rfl
        | @otherOpen name innermost _ current differs =>
            rw [← sameStack] at current
            obtain ⟨outer, around⟩ := List.head?_eq_some_iff.1 current
            rw [push, Writer.push, around]
            simp only [if_neg differs]
            rfl

/-- What a draft has taken grows by the event that it accepts. -/
theorem HasTaken.concat (taken : draft.HasTaken events)
    (accepted : draft.push options event = .ok next) :
    next.HasTaken (events ++ [event]) := by
  cases draft with
  | none =>
      have first : events = [] := taken.begins.1 rfl
      rw [push] at accepted
      split at accepted
      · next isStart =>
          cases accepted
          exact ⟨by simp, by rw [first, isStart]; rfl⟩
      · cases accepted
  | some writer =>
      have sameStack : writer.stack = openElements events := taken.stack
      rw [push] at accepted
      cases pushed : writer.push options event with
      | error error =>
          rw [pushed] at accepted
          cases accepted
      | ok after =>
          rw [pushed] at accepted
          cases accepted
          exact ⟨by simp,
            by rw [openElements_concat, ← sameStack]; exact Writer.stack_of_push pushed⟩

theorem pushAll_append (options : Options) (draft : Draft) (earlier later : List Event) :
    draft.pushAll options (earlier ++ later) =
      (draft.pushAll options earlier).bind fun next => next.pushAll options later :=
  List.foldlM_append

theorem pushAll_singleton (options : Options) (draft : Draft) (event : Event) :
    draft.pushAll options [event] = draft.push options event := by
  rw [pushAll, List.foldlM_cons]
  exact bind_pure _

/-- What a draft has taken in the end is all that it was given. -/
theorem hasTaken_pushAll (accepted : blank.pushAll options events = .ok draft) :
    draft.HasTaken events := by
  induction events using List.reverseRecOn generalizing draft with
  | nil =>
      cases accepted
      exact hasTaken_nil
  | append_singleton events event ih =>
      rw [pushAll_append] at accepted
      cases earlier : blank.pushAll options events with
      | error error =>
          rw [earlier] at accepted
          cases accepted
      | ok middle =>
          rw [earlier] at accepted
          have last : middle.pushAll options [event] = .ok draft := accepted
          rw [pushAll_singleton] at last
          exact (ih earlier).concat last

/-- A draft takes all of a stream if none of its events breaks a promise. -/
theorem exists_pushAll_iff (options : Options) (events : List Event) :
    (∃ draft, blank.pushAll options events = .ok draft) ↔ Faultless events := by
  induction events using List.reverseRecOn with
  | nil => exact ⟨fun _ => faultless_nil, fun _ => ⟨blank, rfl⟩⟩
  | append_singleton events event ih =>
      rw [faultless_concat, ← ih, pushAll_append]
      cases earlier : blank.pushAll options events with
      | error error =>
          constructor
          · rintro ⟨draft, accepted⟩
            cases accepted
          · rintro ⟨⟨draft, accepted⟩, _⟩
            cases accepted
      | ok middle =>
          have taken := hasTaken_pushAll earlier
          have last : ((Except.ok middle).bind fun next => next.pushAll options [event]) =
              middle.push options event := pushAll_singleton options middle event
          rw [last]
          simp only [← taken.push_eq_error_iff options]
          cases middle.push options event with
          | error error => simp
          | ok next => simp

/-- A draft breaks off at the first event that breaks a promise. -/
theorem pushAll_eq_error_iff {error : StreamError} :
    blank.pushAll options events = .error error ↔
      ∃ earlier event later, events = earlier ++ event :: later ∧ Faultless earlier ∧
        Violation earlier event error := by
  constructor
  · intro refused
    induction events using List.reverseRecOn with
    | nil => cases refused
    | append_singleton events event ih =>
        rw [pushAll_append] at refused
        cases before : blank.pushAll options events with
        | error found =>
            rw [before] at refused
            cases refused
            obtain ⟨earlier, wrong, later, rfl, faultless, violation⟩ := ih before
            exact ⟨earlier, wrong, later ++ [event], by simp, faultless, violation⟩
        | ok middle =>
            rw [before] at refused
            have last : middle.pushAll options [event] = .error error := refused
            rw [pushAll_singleton, (hasTaken_pushAll before).push_eq_error_iff options] at last
            exact ⟨events, event, [], rfl, (exists_pushAll_iff options events).1 ⟨middle,
              before⟩, last⟩
  · rintro ⟨earlier, event, later, rfl, faultless, violation⟩
    obtain ⟨draft, accepted⟩ := (exists_pushAll_iff options earlier).2 faultless
    have refused := ((hasTaken_pushAll accepted).push_eq_error_iff options).2 violation
    have behind : draft.pushAll options (event :: later) = .error error := by
      rw [pushAll, List.foldlM_cons, refused]
      rfl
    rw [pushAll_append, accepted]
    exact behind

/-- At the end of a stream a draft fails for an element that is still open, and before its
start. -/
theorem HasTaken.finish_eq_error_iff (taken : draft.HasTaken events) {error : StreamError} :
    draft.finish = .error error ↔
      (events = [] ∧ error = .notStarted) ∨
        (events ≠ [] ∧ ∃ innermost outer, openElements events = innermost :: outer ∧
          error = .unclosedElements (outer.length + 1) innermost) := by
  cases draft with
  | none =>
      have first : events = [] := taken.begins.1 rfl
      rw [finish, Except.error.injEq, first]
      simp [eq_comm]
  | some writer =>
      have started : events ≠ [] := fun none => nomatch taken.begins.2 none
      have sameStack : writer.stack = openElements events := taken.stack
      rw [finish, Writer.finish, ← sameStack]
      cases writer.stack with
      | nil => simp [started]
      | cons innermost outer => simp [started, eq_comm]

/-- A stream that is taken whole is finished if it has begun and left nothing open. -/
theorem HasTaken.exists_finish_iff (taken : draft.HasTaken events) :
    (∃ out, draft.finish = .ok out) ↔ events ≠ [] ∧ openElements events = [] := by
  cases draft with
  | none => simp [finish, taken.begins.1 rfl]
  | some writer =>
      have started : events ≠ [] := fun none => nomatch taken.begins.2 none
      have sameStack : writer.stack = openElements events := taken.stack
      rw [finish, Writer.finish, ← sameStack]
      cases writer.stack with
      | nil => simp [started]
      | cons innermost outer => simp

end Draft

/-! ## Serialized streams -/

/-- A stream is serialized exactly if it keeps its promises. -/
theorem exists_serialize_iff (options : Options) (events : List Event) :
    (∃ out, serialize options events = .ok out) ↔ KeepsPromises events := by
  rw [keepsPromises_iff, ← Draft.exists_pushAll_iff options, serialize]
  cases pushed : Draft.blank.pushAll options events with
  | error error => simp [Except.bind]
  | ok draft =>
      have finished := (Draft.hasTaken_pushAll pushed).exists_finish_iff
      simpa [Except.bind] using finished

/-- A stream that is not serialized fails with the error of the first promise that it breaks. -/
theorem serialize_eq_error_iff (options : Options) (events : List Event) (error : StreamError) :
    serialize options events = .error error ↔ Breaks events error := by
  rw [serialize]
  cases pushed : Draft.blank.pushAll options events with
  | error found =>
      have faulty : ¬ Faultless events := by
        rw [← Draft.exists_pushAll_iff options, pushed]
        rintro ⟨draft, accepted⟩
        cases accepted
      constructor
      · intro failed
        cases failed
        obtain ⟨earlier, event, later, rfl, faultless, violation⟩ :=
          Draft.pushAll_eq_error_iff.1 pushed
        exact .event faultless violation
      · intro breaks
        cases breaks with
        | @event earlier later event _ faultless violation =>
            have same : Draft.blank.pushAll options (earlier ++ event :: later) = .error error :=
              Draft.pushAll_eq_error_iff.2 ⟨earlier, event, later, rfl, faultless, violation⟩
            rw [pushed] at same
            cases same
            rfl
        | empty => exact absurd faultless_nil faulty
        | unclosed some faultless leaves => exact absurd faultless faulty
  | ok draft =>
      have faultless : Faultless events :=
        (Draft.exists_pushAll_iff options events).1 ⟨draft, pushed⟩
      change draft.finish = .error error ↔ _
      rw [(Draft.hasTaken_pushAll pushed).finish_eq_error_iff]
      constructor
      · rintro (⟨rfl, rfl⟩ | ⟨some, innermost, outer, leaves, rfl⟩)
        · exact .empty
        · exact .unclosed some faultless leaves
      · intro breaks
        cases breaks with
        | @event earlier later event _ _ violation =>
            exact absurd violation (faultless earlier event later error rfl)
        | empty => exact .inl ⟨rfl, rfl⟩
        | unclosed some _ leaves => exact .inr ⟨some, _, _, leaves, rfl⟩

end HtmlMinifier.Canonical

namespace HtmlMinifier.Minifier

open Canonical (KeepsPromises Breaks)

/-- Leaving out optional tags neither fails nor mends a failure, so a stream is minified exactly if
it keeps its promises, and fails with the error of the first promise that it breaks. -/
theorem minifyEvents_contract (minifier : Minifier) (events : List Event) :
    ((∃ out, minifier.minifyEvents events = .ok out) ↔ KeepsPromises events) ∧
      ∀ error, minifier.minifyEvents events = .error error ↔ Breaks events error := by
  rw [← Canonical.exists_serialize_iff minifier.options]
  simp only [← Canonical.serialize_eq_error_iff minifier.options, minifyEvents]
  cases Canonical.serialize minifier.options events with
  | error found => simp [Except.map]
  | ok written => simp [Except.map]

/-- A close that matches nothing is told of before the element that stays open. -/
example :
    ({} : Minifier).minifyEvents
        [.documentStart, .elementOpen "UL".toList [], .elementClose "Li".toList] =
      .error (.mismatchedClose "ul".toList "li".toList) := by
  decide

end HtmlMinifier.Minifier

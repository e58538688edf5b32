/-
# An operation that fails leaves no mark

An operation on a session is a course of changes, and nothing takes them back when it fails. Still
a failure leaves no mark, because every operation makes all of its checks first: a check changes
nothing, and what comes behind the checks cannot fail. So whatever is done later is done as if the
operation had never been tried: it gets the same answers, the compressor is asked the same, and the
document comes out the same.

This is also why a draft may do at once what a session does step by step.
-/
import HtmlMinifier.Canonical.Session
import HtmlMinifier.Proofs.Canonical.Trimming

namespace HtmlMinifier.Canonical

/-- The answers of a draft to events, which are passed over where they break a promise. -/
def Draft.answers (options : Options) (draft : Draft) : List Event → List (Except StreamError Unit)
  | [] => []
  | event :: later =>
      (draft.push options event).map (fun _ => ()) :: (draft.attempt options event).answers
        options later

namespace Session

/-! ## Checks and changes -/

section

variable {α β : Type}

@[simp]
theorem perform_pure (answer : α) (session : Session) :
    perform (pure answer) session = (.ok answer, session) := rfl

@[simp]
theorem perform_throw (reason : StreamError) (session : Session) :
    perform (throw reason : Operation α) session = (.error reason, session) := rfl

@[simp]
theorem perform_get (session : Session) : perform get session = (.ok session, session) := rfl

@[simp]
theorem perform_modify (edit : Session → Session) (session : Session) :
    perform (modify edit) session = (.ok (), edit session) := rfl

@[simp]
theorem perform_change (edit : Writer → Writer) (session : Session) :
    perform (change edit) session = (.ok (), { session with writer := edit session.writer }) := rfl

/-- The second operation goes on where the first one ends, unless that one fails. -/
theorem perform_bind (first : Operation α) (second : α → Operation β) (session : Session) :
    perform (first >>= second) session =
      match perform first session with
      | (.ok answer, next) => perform (second answer) next
      | (.error reason, next) => (.error reason, next) := by
  simp only [perform, bind, EStateM.bind]
  cases first session <;> rfl

/-- An operation that changes nothing, whether it fails or not. -/
def IsCheck (operation : Operation α) : Prop := ∀ session, (perform operation session).2 = session

/-- An operation that does not fail. -/
def Succeeds (operation : Operation α) : Prop :=
  ∀ session, ∃ answer, (perform operation session).1 = .ok answer

/-- An operation that changes nothing if it fails. -/
def LeavesNoMark (operation : Operation α) : Prop :=
  ∀ session reason, (perform operation session).1 = .error reason →
    (perform operation session).2 = session

theorem Succeeds.leavesNoMark {operation : Operation α} (succeeds : Succeeds operation) :
    LeavesNoMark operation := by
  intro session reason failed
  obtain ⟨answer, answered⟩ := succeeds session
  rw [answered] at failed
  cases failed

theorem Succeeds.bind {first : Operation α} {second : α → Operation β}
    (firstSucceeds : Succeeds first)
    (secondSucceeds : ∀ answer, Succeeds (second answer)) : Succeeds (first >>= second) := by
  intro session
  obtain ⟨answer, answered⟩ := firstSucceeds session
  have parts : perform first session = (.ok answer, (perform first session).2) :=
    Prod.ext answered rfl
  rw [perform_bind, parts]
  exact secondSucceeds answer _

/-- Behind a check the session is as it was in front of it. -/
theorem IsCheck.bind_leavesNoMark {check : Operation α} {rest : α → Operation β}
    (isCheck : IsCheck check)
    (leaves : ∀ answer, LeavesNoMark (rest answer)) : LeavesNoMark (check >>= rest) := by
  intro session reason failed
  cases checked : (perform check session).1 with
  | ok answer =>
      have parts : perform check session = (.ok answer, session) :=
        Prod.ext checked (isCheck session)
      rw [perform_bind, parts] at failed ⊢
      exact leaves answer session reason failed
  | error refused =>
      have parts : perform check session = (.error refused, session) :=
        Prod.ext checked (isCheck session)
      rw [perform_bind, parts]

end

/-! ## The checks -/

theorem isCheck_ensureStarted : IsCheck ensureStarted := by
  intro session
  rw [ensureStarted, perform_bind, perform_get]
  dsimp only
  split <;> rfl

theorem isCheck_ensureNotStarted : IsCheck ensureNotStarted := by
  intro session
  rw [ensureNotStarted, perform_bind, perform_get]
  dsimp only
  split <;> rfl

theorem isCheck_ensureNamed (name : Text) : IsCheck (ensureNamed name) := by
  intro session
  rw [ensureNamed]
  split <;> rfl

theorem isCheck_ensureInnermost (name : Text) : IsCheck (ensureInnermost name) := by
  intro session
  rw [ensureInnermost, perform_bind, perform_get]
  dsimp only
  split
  · rfl
  · split <;> rfl

/-! ## The changes -/

theorem succeeds_change (edit : Writer → Writer) : Succeeds (change edit) := fun _ => ⟨(), rfl⟩

theorem succeeds_modify (edit : Session → Session) : Succeeds (modify edit : Operation Unit) :=
  fun _ => ⟨(), rfl⟩

theorem succeeds_compressStyle (options : Options) (element : Text) :
    Succeeds (compressStyle options element) := by
  intro session
  rw [compressStyle, perform_bind, perform_get]
  dsimp only
  split
  · rw [perform_bind, perform_modify]
    dsimp only
    split <;> exact ⟨(), rfl⟩
  · exact ⟨(), rfl⟩

theorem succeeds_writeEndTag (element : Text) : Succeeds (writeEndTag element) := by
  intro session
  rw [writeEndTag]
  split <;> exact ⟨(), rfl⟩

theorem succeeds_writeComment (body : Text) : Succeeds (writeComment body) := by
  intro session
  rw [writeComment]
  split <;> exact ⟨(), rfl⟩

/-! ## One operation -/

variable (options : Options)

/-- Every operation makes its checks first, and nothing behind them fails. -/
theorem leavesNoMark_operation (event : Event) : LeavesNoMark (operation options event) := by
  cases event with
  | documentStart =>
      refine isCheck_ensureNotStarted.bind_leavesNoMark fun _ => Succeeds.leavesNoMark ?_
      exact (succeeds_modify _).bind fun _ => (succeeds_change _).bind fun _ => succeeds_change _
  | elementOpen name attributes =>
      refine isCheck_ensureStarted.bind_leavesNoMark fun _ => ?_
      refine (isCheck_ensureNamed name).bind_leavesNoMark fun _ => Succeeds.leavesNoMark ?_
      exact (succeeds_change _).bind fun _ => (succeeds_change _).bind fun _ =>
        (succeeds_change _).bind fun _ => (succeeds_change _).bind fun _ => succeeds_change _
  | elementClose name =>
      refine isCheck_ensureStarted.bind_leavesNoMark fun _ => ?_
      refine (isCheck_ensureInnermost _).bind_leavesNoMark fun _ => Succeeds.leavesNoMark ?_
      exact (succeeds_compressStyle options _).bind fun _ => (succeeds_change _).bind fun _ =>
        (succeeds_change _).bind fun _ => (succeeds_change _).bind fun _ =>
          (succeeds_writeEndTag _).bind fun _ => succeeds_change _
  | characters text | cdata text =>
      exact isCheck_ensureStarted.bind_leavesNoMark fun _ => (succeeds_change _).leavesNoMark
  | comment body =>
      refine isCheck_ensureStarted.bind_leavesNoMark fun _ => Succeeds.leavesNoMark ?_
      exact (succeeds_change _).bind fun _ => succeeds_writeComment body

/-! ## All operations -/

variable {options} {session : Session} {events : List Event}
  {remaining : List (Event × Except StreamError Unit)}

theorem after_cons (options : Options) (session : Session) (event : Event) (later : List Event) :
    after options session (event :: later) =
      after options (perform (operation options event) session).2 later := rfl

/-- Operations that fail may be left out of those that a session goes through: the others get the
same answers, and the session is the same in the end. -/
theorem answers_of_sublist (part : remaining.Sublist (answers options session events))
    (successes : remaining.filter (fun tried => tried.2.isOk) =
      (answers options session events).filter fun tried => tried.2.isOk) :
    answers options session (remaining.map Prod.fst) = remaining ∧
      after options session (remaining.map Prod.fst) = after options session events := by
  induction events generalizing session remaining with
  | nil =>
      obtain rfl := List.sublist_nil.1 part
      exact ⟨rfl, rfl⟩
  | cons event later ih =>
      rw [answers] at part successes
      cases part with
      | cons_cons _ further =>
          rw [List.filter_cons, List.filter_cons] at successes
          have rest := ih further (by split at successes <;> simpa using successes)
          exact ⟨congrArg _ rest.1, rest.2⟩
      | cons _ further =>
          -- What was left out has failed, since no success is missing; so the session went on
          -- unchanged.
          cases answered : (perform (operation options event) session).1 with
          | ok answer =>
              have fewer := (further.filter fun tried => tried.2.isOk).length_le
              rw [successes, List.filter_cons_of_pos (by rw [answered]; rfl)] at fewer
              exact absurd fewer (Nat.not_succ_le_self _)
          | error reason =>
              have unchanged := leavesNoMark_operation options event session reason answered
              rw [List.filter_cons_of_neg (by rw [answered]; exact Bool.false_ne_true)]
                at successes
              have rest := ih further successes
              rw [unchanged] at rest
              rw [after_cons, unchanged]
              exact rest

/-! ## Sessions and drafts -/

/-- The session that holds a draft, after the compressor was asked some texts. -/
def ofDraft (asked : List Text) : Draft → Session
  | none => { fresh with asked := asked }
  | some writer => ⟨true, writer, asked⟩

/-- What the compressor is asked at an event, if there is one. -/
def calls (options : Options) (draft : Draft) (event : Event) : List Text :=
  if options.compressor.isSome then (draft.bind fun writer => writer.request? event).toList else []

section

variable (options : Options) (asked : List Text)

theorem calls_of_request?_eq_none {writer : Writer} {event : Event}
    (none : writer.request? event = Option.none) : calls options (some writer) event = [] := by
  rw [calls, Option.bind_some, none]
  exact ite_self _

theorem perform_compressStyle (element : Text) (writer : Writer) :
    perform (compressStyle options element) ⟨true, writer, asked⟩ =
      (.ok (), ⟨true, writer.compressStyle options element,
        asked ++ if options.compressor.isSome then (writer.styleText? element).toList else
        []⟩) := by
  rw [compressStyle, perform_bind, perform_get, Writer.compressStyle]
  dsimp only
  cases options.compressor with
  | none => simp
  | some compressor =>
      cases writer.styleText? element with
      | none => simp
      | some css =>
          dsimp only
          rw [perform_bind, perform_modify]
          dsimp only
          cases compressor css <;> rfl

theorem perform_writeEndTag (element : Text) (session : Session) :
    perform (writeEndTag element) session =
      (.ok (), { session with
        writer.pieces := if Element.isVoid element then session.writer.pieces
          else .endTag element :: session.writer.pieces }) := by
  rw [writeEndTag]
  split <;> rfl

theorem perform_ensureInnermost {name : Text} {writer : Writer}
    (innermost : writer.stack.head? = some name) :
    perform (ensureInnermost name) ⟨true, writer, asked⟩ = (.ok (), ⟨true, writer, asked⟩) := by
  obtain ⟨outer, around⟩ := List.head?_eq_some_iff.1 innermost
  rw [ensureInnermost, perform_bind, perform_get]
  simp [around]

theorem perform_closeElement_refused {name : Text} {writer : Writer} {reason : StreamError}
    (refused : (perform (ensureInnermost (Text.lower name)) ⟨true, writer, asked⟩).1 =
    .error reason) :
    perform (closeElement options name) ⟨true, writer, asked⟩ =
    (.error reason, ⟨true, writer, asked⟩) := by
  have started : perform ensureStarted ⟨true, writer, asked⟩ = (.ok (), ⟨true, writer, asked⟩) :=
    rfl
  have parts : perform (ensureInnermost (Text.lower name)) ⟨true, writer, asked⟩ =
      (.error reason, ⟨true, writer, asked⟩) := Prod.ext refused (isCheck_ensureInnermost _ _)
  rw [closeElement, perform_bind, started]
  simp only [perform_bind, parts]

theorem perform_closeElement {name : Text} {writer : Writer}
    (innermost : writer.stack.head? = some (Text.lower name)) :
    perform (closeElement options name) ⟨true, writer, asked⟩ =
      (.ok (), ⟨true, writer.closeElement options (Text.lower name),
        asked ++ calls options (some writer) (.elementClose name)⟩) := by
  have asks : calls options (some writer) (.elementClose name) =
      if options.compressor.isSome then (writer.styleText? (Text.lower name)).toList else [] := by
    rw [calls, Option.bind_some, Writer.request?, if_pos innermost]
  have started : perform ensureStarted ⟨true, writer, asked⟩ = (.ok (), ⟨true, writer, asked⟩) :=
    rfl
  rw [asks, closeElement, perform_bind, started]
  simp only [perform_bind, perform_ensureInnermost asked innermost, perform_compressStyle,
    perform_change,
    perform_writeEndTag, setTail]
  rfl

theorem perform_comment (body : Text) (writer : Writer) :
    perform (comment body) ⟨true, writer, asked⟩ =
    (.ok (), ⟨true, writer.comment body, asked⟩) := by
  have started : perform ensureStarted ⟨true, writer, asked⟩ = (.ok (), ⟨true, writer, asked⟩) :=
    rfl
  rw [comment, perform_bind, started]
  simp only [perform_bind, perform_change, Writer.comment]
  rw [writeComment]
  split <;> rfl

/-- An operation does to the session of a draft what the draft does at once. If the draft refuses
the event, the operation fails for the same reason. -/
theorem perform_operation_ofDraft (draft : Draft) (event : Event) :
    perform (operation options event) (ofDraft asked draft) =
      match draft.push options event with
      | .ok next => (.ok (), ofDraft (asked ++ calls options draft event) next)
      | .error reason => (.error reason, ofDraft asked draft) := by
  cases draft with
  | none =>
      cases event with
      | documentStart =>
          have silent : calls options none .documentStart = [] := ite_self _
          rw [silent, List.append_nil]
          rfl
      | _ => rfl
  | some writer =>
      have silent : ∀ {event : Event}, writer.request? event = none →
          asked ++ calls options (some writer) event = asked := by
        intro event none
        rw [calls_of_request?_eq_none options none, List.append_nil]
      cases event with
      | documentStart => rfl
      | elementOpen name attributes =>
          rw [Draft.push, Writer.push]
          by_cases none : name = []
          · rw [if_pos none, operation, openElement, none]
            rfl
          · rw [if_neg none]
            change _ = (Except.ok (), ofDraft (asked ++ _) (some _))
            rw [silent rfl, operation, openElement, ensureNamed, if_neg none]
            rfl
      | elementClose name =>
          cases around : writer.stack with
          | nil =>
              simp only [Draft.push, Writer.push, around]
              apply perform_closeElement_refused
              rw [ensureInnermost, perform_bind, perform_get]
              simp [around]
          | cons current outer =>
              by_cases same : current = Text.lower name
              · have innermost : writer.stack.head? = some (Text.lower name) := by
                  rw [around, same]; rfl
                simp only [Draft.push, Writer.push, around, if_pos same]
                exact perform_closeElement options asked innermost
              · simp only [Draft.push, Writer.push, around, if_neg same]
                apply perform_closeElement_refused
                rw [ensureInnermost, perform_bind, perform_get]
                simp [around, same]
      | characters text | cdata text =>
          change _ = (Except.ok (), ofDraft (asked ++ _) (some _))
          rw [silent rfl]
          rfl
      | comment body =>
          change _ = (Except.ok (), ofDraft (asked ++ _) (some _))
          rw [silent rfl]
          exact perform_comment asked body writer

/-- Nothing is asked at an event that is refused. -/
theorem request?_of_refused {options : Options} {draft : Draft} {event : Event}
    {reason : StreamError}
    (refused : draft.push options event = .error reason) :
    (draft.bind fun writer => writer.request? event) = none := by
  cases draft with
  | none => rfl
  | some writer =>
      cases event with
      | elementClose name =>
          rw [Option.bind_some, Writer.request?, if_neg]
          intro innermost
          obtain ⟨outer, around⟩ := List.head?_eq_some_iff.1 innermost
          simp only [Draft.push, Writer.push, around, if_pos] at refused
          cases refused
      | _ => rfl

/-- The session of a draft remains the session of what becomes of the draft, and gives the answers
of the draft. -/
theorem answers_ofDraft (draft : Draft) (events : List Event) :
    (answers options (ofDraft asked draft) events).map Prod.snd = draft.answers options events ∧
      after options (ofDraft asked draft) events =
        ofDraft (asked ++ if options.compressor.isSome then draft.requests options events else [])
          (draft.attemptAll options events) := by
  induction events generalizing draft asked with
  | nil => exact ⟨rfl, by simp [after, Draft.requests, Draft.attemptAll]⟩
  | cons event later ih =>
      have performed := perform_operation_ofDraft options asked draft event
      have unfolded : draft.attemptAll options (event :: later) =
          (draft.attempt options event).attemptAll options later := rfl
      rw [answers, Draft.answers, after_cons, unfolded, Draft.requests, performed]
      cases pushed : draft.push options event with
      | ok next =>
          have taken : draft.attempt options event = next := by rw [Draft.attempt, pushed]
          obtain ⟨given, last⟩ := ih (asked ++ calls options draft event) next
          rw [taken]
          refine ⟨congrArg _ given, last.trans ?_⟩
          rw [calls]
          cases options.compressor.isSome <;> simp
      | error reason =>
          have passedOver : draft.attempt options event = draft := by rw [Draft.attempt, pushed]
          obtain ⟨given, last⟩ := ih asked draft
          rw [passedOver, request?_of_refused pushed]
          exact ⟨congrArg _ given, last⟩

/-- A session hands out the document that its draft makes up. -/
theorem perform_finish_ofDraft (draft : Draft) :
    (perform finish (ofDraft asked draft)).1 = draft.finish := by
  cases draft with
  | none => rfl
  | some writer =>
      have started : perform ensureStarted ⟨true, writer, asked⟩ =
        (.ok (), ⟨true, writer, asked⟩) := rfl
      rw [ofDraft, finish, perform_bind, started]
      simp only [perform_bind, perform_change, ensureClosed, perform_get, Writer.flush_stack,
        Draft.finish, Writer.finish]
      cases writer.stack <;> rfl

end

/-! ## Failures -/

/-- Operations that fail leave no mark on a session. Whichever of them are left out, the others are
answered as before, and in the end the session is the same: it holds the same document, so that it
finishes alike, and it has asked the compressor the same. Here a session gives the answers of the
draft, finishes as the draft does that has passed over broken promises, and asks what this draft
asks. -/
theorem failures_leave_no_mark (options : Options) (events : List Event)
    {remaining : List (Event × Except StreamError Unit)}
    (part : remaining.Sublist (answers options fresh events))
    (successes : remaining.filter (fun tried => tried.2.isOk) =
      (answers options fresh events).filter fun tried => tried.2.isOk) :
    (answers options fresh (remaining.map Prod.fst) = remaining ∧
      after options fresh (remaining.map Prod.fst) = after options fresh events) ∧
    (answers options fresh events).map Prod.snd = Draft.blank.answers options events ∧
    (perform finish (after options fresh events)).1 =
    (Draft.blank.attemptAll options events).finish ∧
    (options.compressor.isSome = true →
      (after options fresh events).asked = Draft.blank.requests options events) := by
  obtain ⟨given, last⟩ := answers_ofDraft options [] .blank events
  have whole : after options fresh events = ofDraft
      (if options.compressor.isSome then Draft.blank.requests options events else [])
      (Draft.blank.attemptAll options events) := last
  refine ⟨answers_of_sublist part successes, given, ?_, fun asks => ?_⟩
  · rw [whole, perform_finish_ofDraft]
  · rw [whole, if_pos asks]
    cases Draft.blank.attemptAll options events <;> rfl

/-- Text in front of the start, a second start, and the closes of elements that are not innermost
may be left out; the compressor is asked once. -/
theorem failures_leave_no_mark_style :
    let options : Options := { compressor := some fun _ => .ok "b".toList }
    let events : List Event :=
      [.characters "x".toList, .documentStart, .documentStart, .elementOpen "style".toList [],
        .elementClose "p".toList, .characters "a".toList, .elementClose "STYLE".toList,
        .elementClose "style".toList]
    let remaining : List (Event × Except StreamError Unit) :=
      [(.documentStart, .ok ()), (.elementOpen "style".toList [], .ok ()),
        (.elementClose "p".toList, .error (.mismatchedClose "style".toList "p".toList)),
        (.characters "a".toList, .ok ()), (.elementClose "STYLE".toList, .ok ())]
    (remaining.Sublist (answers options fresh events) ∧
        remaining.filter (fun tried => tried.2.isOk) =
          (answers options fresh events).filter fun tried => tried.2.isOk) ∧
      answers options fresh (remaining.map Prod.fst) = remaining ∧
      (after options fresh (remaining.map Prod.fst)).asked = ["a".toList] := by
  intro options events remaining
  have part : remaining.Sublist (answers options fresh events) := by decide +kernel
  have successes : remaining.filter (fun tried => tried.2.isOk) =
      (answers options fresh events).filter fun tried => tried.2.isOk := by
    decide +kernel
  have same := (failures_leave_no_mark options events part successes).1
  refine ⟨⟨part, successes⟩, same.1, ?_⟩
  rw [same.2]
  decide +kernel

end Session

end HtmlMinifier.Canonical

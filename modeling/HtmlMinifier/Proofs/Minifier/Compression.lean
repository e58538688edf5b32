/-
# Compressed style text

What a compressor does to a document can be done to its stream beforehand: the text in front of the
close of a `style` element is replaced by the answer of the compressor, and the document is then
written without one. The writer asks about the text that waits when the element is closed. A stream
shows this text by itself, because a text waits until the next tag or comment, whether the comment
is kept or not.

The two runs are in step between the events: the writer with the compressor has the same text
waiting as the other one would have if the compressor had no answer, and after every tag or comment
none.
-/
import HtmlMinifier.Proofs.Minifier.LogicalStream
import HtmlMinifier.Proofs.Canonical.Written

namespace HtmlMinifier.Style

/-! ## Style text in a stream -/

/-- The text that an event adds to a run. -/
def addedText : Event → Text
  | .characters text => text
  | .cdata text => text
  | _ => []

/-- The text of a run that comes in several events. -/
def runText (run : List Event) : Text := run.flatMap addedText

@[simp]
theorem runText_nil : runText [] = [] := rfl

@[simp]
theorem runText_concat (run : List Event) (event : Event) :
    runText (run ++ [event]) = runText run ++ addedText event := by
  rw [runText, List.flatMap_append, List.flatMap_singleton, runText]

/-- The text that a compressor is asked about at the close of an element in front of which a text
stands: the text of a `style` element, unless it is blank. -/
def asked? (name text : Text) : Option Text :=
  if Text.lower name = "style".toList && !text.all Text.isBlank then some text else none

/-- The texts that a compressor is asked about, in the order of a stream in front of which a text
stands. A text ends at every event that adds none. -/
def styleTexts (text : Text) : List Event → List Text
  | [] => []
  | .characters more :: later => styleTexts (text ++ more) later
  | .cdata more :: later => styleTexts (text ++ more) later
  | .elementClose name :: later => (asked? name text).toList ++ styleTexts [] later
  | .documentStart :: later => styleTexts [] later
  | .elementOpen _ _ :: later => styleTexts [] later
  | .comment _ :: later => styleTexts [] later

/-- A run of text in front of a close, with the answer of the compressor in its place if the
compressor is asked and has one. -/
def answered (compressor : Compressor) (name : Text) (run : List Event) : List Event :=
  match asked? name (runText run) with
  | none => run
  | some css =>
      match compressor css with
      | .ok compressed => [.characters (Text.trim compressed)]
      | .error _ => run

/-- A stream behind a run of text, with the answers of a compressor in the place of style text. -/
def compressed (compressor : Compressor) (run : List Event) : List Event → List Event
  | [] => run
  | .characters text :: later => compressed compressor (run ++ [.characters text]) later
  | .cdata text :: later => compressed compressor (run ++ [.cdata text]) later
  | .elementClose name :: later =>
      answered compressor name run ++ .elementClose name :: compressed compressor [] later
  | .documentStart :: later => run ++ .documentStart :: compressed compressor [] later
  | .elementOpen name attributes :: later =>
      run ++ .elementOpen name attributes :: compressed compressor [] later
  | .comment body :: later => run ++ .comment body :: compressed compressor [] later

/-- Only the answers to the style texts of a stream matter. -/
theorem compressed_congr {first second : Compressor} (run : List Event) {events : List Event}
    (same : ∀ css ∈ styleTexts (runText run) events, first css = second css) :
    compressed first run events = compressed second run events := by
  induction events generalizing run with
  | nil => rfl
  | cons event later ih =>
      cases event with
      | characters text | cdata text =>
          apply ih
          rw [runText_concat]
          exact same
      | elementClose name =>
          have here : answered first name run = answered second name run := by
            unfold answered
            split
            · rfl
            · next css asked =>
                rw [same css
                  (List.mem_append_left _ (by rw [asked]; exact List.mem_singleton_self css))]
          rw [compressed, compressed, here,
            ih [] fun css member => same css (List.mem_append_right _ member)]
      | documentStart | elementOpen name attributes | comment body =>
          rw [compressed, compressed, ih [] same]

/-- A compressor without answers changes nothing. -/
theorem compressed_of_error {compressor : Compressor}
    (fails : ∀ css, ∃ reason, compressor css = .error reason) (run events : List Event) :
    compressed compressor run events = run ++ events := by
  induction events generalizing run with
  | nil => exact (List.append_nil run).symm
  | cons event later ih =>
      cases event with
      | characters text | cdata text =>
          rw [compressed, ih, List.append_assoc, List.singleton_append]
      | elementClose name =>
          have same : answered compressor name run = run := by
            unfold answered
            split
            · rfl
            · next css _ =>
                obtain ⟨reason, failed⟩ := fails css
                rw [failed]
          rw [compressed, same, ih, List.nil_append]
      | documentStart | elementOpen name attributes | comment body =>
          rw [compressed, ih, List.nil_append]

/-- Whether an event adds to a run of text. -/
def addsText : Event → Bool
  | .characters _ | .cdata _ => true
  | _ => false

/-- Events that are one run of text. -/
def IsRun (run : List Event) : Prop := ∀ event ∈ run, addsText event = true

theorem isRun_nil : IsRun [] := fun _ none => nomatch none

theorem IsRun.concat {run : List Event} (isRun : IsRun run) {event : Event}
    (adds : addsText event = true) :
    IsRun (run ++ [event]) :=
  List.forall_mem_append.2 ⟨isRun, List.forall_mem_singleton.2 adds⟩

section

variable {compressor : Compressor} {name : Text} {run : List Event}

/-- Where no text stands, nothing is asked. -/
theorem answered_nil (compressor : Compressor) (name : Text) :
    answered compressor name [] = [] := by
  have none : asked? name [] = none := if_neg (by simp)
  rw [answered, runText_nil, none]

/-- What stands in the place of a run of text is a run of text. -/
theorem IsRun.answered (isRun : IsRun run) : IsRun (answered compressor name run) := by
  unfold Style.answered
  split
  · exact isRun
  · split
    · exact List.forall_mem_singleton.2 rfl
    · exact isRun

theorem answered_ne_nil (some : run ≠ []) : answered compressor name run ≠ [] := by
  unfold answered
  split
  · exact some
  · split
    · exact List.cons_ne_nil _ _
    · exact some

/-- A run of text stands at the front of its stream, if only as the answer of a compressor. -/
theorem IsRun.exists_compressed_eq_cons (isRun : IsRun run) (some : run ≠ [])
    (events : List Event) :
    ∃ first behind, compressed compressor run events = first :: behind ∧ addsText first =
    true := by
  have inFront : ∀ {run : List Event}, IsRun run → run ≠ [] → ∀ later : List Event,
      ∃ first behind, run ++ later = first :: behind ∧ addsText first = true := by
    intro run isRun some later
    obtain ⟨first, behind, rfl⟩ := List.exists_cons_of_ne_nil some
    exact ⟨first, behind ++ later, rfl, isRun first List.mem_cons_self⟩
  induction events generalizing run with
  | nil =>
      have whole := inFront isRun some []
      rwa [List.append_nil] at whole
  | cons event later ih =>
      cases event with
      | characters text | cdata text => exact ih (isRun.concat rfl) (by simp)
      | elementClose name => exact inFront isRun.answered (answered_ne_nil some) _
      | documentStart | elementOpen name attributes | comment body => exact inFront isRun some _

end

end HtmlMinifier.Style

namespace HtmlMinifier.Canonical

open Style (IsRun addedText addsText answered asked? compressed runText styleTexts)

/-! ## Writers with and without a compressor -/

/-- The options with a compressor. -/
def Options.compressing (options : Options) (compressor : Style.Compressor) : Options :=
  { options with compressor := some compressor }

/-- The options without a compressor. -/
def Options.plain (options : Options) : Options := { options with compressor := none }

namespace Writer

variable {writer : Writer}

/-- A writer without waiting text asks about the text that it is given next. -/
theorem styleText?_characters (none : writer.pending = []) (name text : Text) :
    (writer.characters text).styleText? (Text.lower name) = asked? name text := by
  rw [styleText?, asked?, characters, none, List.nil_append]

/-- Compressing waiting text is waiting with the answer. -/
theorem compressStyle_characters (none : writer.pending = []) (options : Options)
    (compressor : Style.Compressor) (name : Text) (run : List Event) :
    (writer.characters (runText run)).compressStyle (options.compressing compressor)
    (Text.lower name) =
      writer.characters (runText (answered compressor name run)) := by
  rw [compressStyle, styleText?_characters none, answered]
  cases asked? name (runText run) with
  | none => rfl
  | some css =>
      simp only [Options.compressing]
      cases compressor css with
      | error reason => rfl
      | ok answer => simp [characters, none, runText, addedText]

/-- An element is closed with a compressor as it is without one behind the answer. -/
theorem closeElement_compressing (none : writer.pending = []) (options : Options)
    (compressor : Style.Compressor) (name : Text) (run : List Event) :
    (writer.characters (runText run)).closeElement (options.compressing compressor)
    (Text.lower name) =
      (writer.characters (runText (answered compressor name run))).closeElement options.plain
        (Text.lower name) := by
  rw [closeElement, closeElement, compressStyle_characters none, compressStyle_eq_self rfl]

/-- A close is taken or refused for the same reason, with or without a compressor. -/
theorem push_close_compressing (none : writer.pending = []) (options : Options)
    (compressor : Style.Compressor) (name : Text) (run : List Event) :
    (writer.characters (runText run)).push (options.compressing compressor) (.elementClose name) =
      (writer.characters (runText (answered compressor name run))).push options.plain
        (.elementClose name) := by
  rw [push, push, closeElement_compressing none]
  rfl

end Writer

namespace Draft

variable {writer : Writer}

/-- A run of text waits as a whole. -/
theorem pushAll_run (options : Options) (writer : Writer) {run : List Event} (isRun : IsRun run)
    (later : List Event) :
    pushAll options (some writer) (run ++ later) =
      pushAll options (some (writer.characters (runText run))) later := by
  induction run generalizing writer with
  | nil => rw [List.nil_append, Style.runText_nil, Writer.characters_nil]
  | cons event run ih =>
      obtain ⟨adds, isRun⟩ := List.forall_mem_cons.1 isRun
      have waits : pushAll options (some writer) (event :: (run ++ later)) =
          pushAll options (some (writer.characters (addedText event))) (run ++ later) := by
        cases event with
        | characters text | cdata text => rfl
        | documentStart | elementOpen name attributes | elementClose name | comment body =>
            cases adds
      rw [List.cons_append, waits, ih _ isRun, Writer.characters_characters]
      rfl

/-- A draft with a compressor takes a stream as a draft without one takes the compressed stream. -/
theorem pushAll_compressed (options : Options) (compressor : Style.Compressor)
    (none : writer.pending = [])
    {run : List Event} (isRun : IsRun run) (events : List Event) :
    pushAll (options.compressing compressor) (some (writer.characters (runText run))) events =
      pushAll options.plain (some writer) (compressed compressor run events) := by
  induction events generalizing writer run with
  | nil =>
      have whole := pushAll_run options.plain writer isRun []
      rw [List.append_nil] at whole
      rw [compressed, whole]
      rfl
  | cons event later ih =>
      -- A tag or a comment leaves no text waiting, so the runs behind it begin anew.
      have anew : ∀ next : Writer, next.pending = [] →
          pushAll (options.compressing compressor) (some next) later =
            pushAll options.plain (some next) (compressed compressor [] later) := by
        intro next empty
        have behind := ih empty Style.isRun_nil
        rwa [Style.runText_nil, Writer.characters_nil] at behind
      cases event with
      | characters text =>
          have more := ih none (isRun.concat (show addsText (.characters text) = true from rfl))
          rwa [Style.runText_concat, ← Writer.characters_characters] at more
      | cdata text =>
          have more := ih none (isRun.concat (show addsText (.cdata text) = true from rfl))
          rwa [Style.runText_concat, ← Writer.characters_characters] at more
      | elementClose name =>
          rw [compressed, pushAll_run _ _ isRun.answered, pushAll_cons,
            pushAll_cons, push, push, Writer.push_close_compressing none]
          rw [Writer.push]
          split
          · rfl
          · split
            · exact anew _ (Writer.closeElement_pending _ _ _)
            · rfl
      | documentStart =>
          rw [compressed, pushAll_run _ _ isRun]
          rfl
      | elementOpen name attributes =>
          rw [compressed, pushAll_run _ _ isRun, pushAll_cons, pushAll_cons, push, push,
            Writer.push,
            Writer.push]
          split
          · rfl
          · exact anew _ (Writer.openElement_pending _ _ _ _)
      | comment body =>
          rw [compressed, pushAll_run _ _ isRun]
          exact anew _ (Writer.comment_pending _ _)

/-- Before its start a draft refuses whatever is no start. -/
theorem pushAll_blank_of_addsText (options : Options) {event : Event}
    (adds : addsText event = true)
    (later : List Event) : blank.pushAll options (event :: later) = .error .notStarted := by
  cases event with
  | characters text | cdata text => rfl
  | documentStart | elementOpen name attributes | elementClose name | comment body => cases adds

/-- A draft with a compressor takes a stream from its start on as a draft without one takes the
compressed stream. -/
theorem pushAll_blank_compressed (options : Options) (compressor : Style.Compressor)
    (events : List Event) :
    blank.pushAll (options.compressing compressor) events =
      blank.pushAll options.plain (compressed compressor [] events) := by
  have refused : ∀ event later, addsText event = true →
      blank.pushAll (options.compressing compressor) (event :: later) =
        blank.pushAll options.plain (compressed compressor [event] later) := by
    intro event later adds
    have isRun : IsRun [event] := List.forall_mem_singleton.2 adds
    obtain ⟨first, behind, parts, still⟩ :=
      isRun.exists_compressed_eq_cons (List.cons_ne_nil event []) later
    rw [parts, pushAll_blank_of_addsText _ adds, pushAll_blank_of_addsText _ still]
  cases events with
  | nil => rfl
  | cons event later =>
      cases event with
      | documentStart =>
          exact pushAll_compressed options compressor (show Writer.start.pending = [] from rfl)
            Style.isRun_nil later
      | characters text => exact refused _ later rfl
      | cdata text => exact refused _ later rfl
      | elementClose name =>
          rw [compressed, Style.answered_nil]
          rfl
      | elementOpen name attributes | comment body => rfl

/-! ## What a compressor is asked -/

variable {options : Options} {draft last : Draft}

theorem exists_of_pushAll_cons {event : Event} {later : List Event}
    (taken : draft.pushAll options (event :: later) = .ok last) :
    ∃ next, draft.push options event = .ok next ∧ next.pushAll options later = .ok last := by
  rw [pushAll_cons] at taken
  cases accepted : draft.push options event with
  | error error =>
      rw [accepted] at taken
      cases taken
  | ok next =>
      rw [accepted] at taken
      exact ⟨next, rfl, taken⟩

/-- A stream that is taken whole is accepted whole. -/
theorem accepted_of_pushAll {events : List Event}
    (taken : draft.pushAll options events = .ok last) :
    accepted options draft events = events := by
  induction events generalizing draft with
  | nil => rfl
  | cons event later ih =>
      obtain ⟨next, pushed, behind⟩ := exists_of_pushAll_cons taken
      rw [accepted, pushed]
      exact congrArg (event :: ·) (ih behind)

/-- At an event that is accepted the compressor is asked what the stream says, and the text that is
left waiting is the text that the stream behind the event begins with. -/
theorem styleTexts_of_push {writer next : Writer} {event : Event}
    (accepted : writer.push options event = .ok next) (later : List Event) :
    styleTexts writer.pending (event :: later) =
      (writer.request? event).toList ++ styleTexts next.pending later := by
  cases event with
  | documentStart => cases accepted
  | elementOpen name attributes =>
      rw [Writer.push] at accepted
      split at accepted
      · cases accepted
      · cases accepted
        rw [Writer.openElement_pending]
        rfl
  | elementClose name =>
      rw [Writer.push] at accepted
      split at accepted
      · cases accepted
      · next innermost outer isOpen =>
          split at accepted
          · next same =>
              cases accepted
              rw [Writer.closeElement_pending, Writer.request?, isOpen, same, List.head?_cons,
                if_pos rfl]
              rfl
          · cases accepted
  | characters text | cdata text =>
      cases accepted
      rfl
  | comment body =>
      cases accepted
      rw [Writer.comment_pending]
      rfl

theorem attempt_of_push {next : Draft} {event : Event}
    (accepted : draft.push options event = .ok next) :
    draft.attempt options event = next := by
  rw [attempt, accepted]

/-- A draft that takes a stream asks about the style texts of the stream. -/
theorem requests_of_pushAll {writer : Writer} {events : List Event}
    (taken : pushAll options (some writer) events = .ok last) :
    requests options (some writer) events = styleTexts writer.pending events := by
  induction events generalizing writer with
  | nil => rfl
  | cons event later ih =>
      obtain ⟨next, pushed, behind⟩ := exists_of_pushAll_cons taken
      rw [requests, attempt_of_push pushed]
      rw [push] at pushed
      cases accepted : writer.push options event with
      | error error =>
          rw [accepted] at pushed
          cases pushed
      | ok after =>
          rw [accepted] at pushed
          cases pushed
          rw [styleTexts_of_push accepted, ih behind]
          rfl

/-- A draft that takes a stream from its start on asks about the style texts of the stream. -/
theorem requests_blank_of_pushAll {events : List Event}
    (taken : blank.pushAll options events = .ok last) :
    requests options blank events = styleTexts [] events := by
  cases events with
  | nil => rfl
  | cons event later =>
      obtain ⟨next, pushed, behind⟩ := exists_of_pushAll_cons taken
      rw [requests, attempt_of_push pushed]
      rw [blank, push] at pushed
      split at pushed
      · next isStart =>
          cases pushed
          rw [isStart, requests_of_pushAll behind]
          rfl
      · cases pushed

end Draft

end HtmlMinifier.Canonical

namespace HtmlMinifier.Minifier

open Canonical (Draft)
open Style (compressed styleTexts)

/-- The same minifier without a compressor. -/
def withoutCompressor (minifier : Minifier) : Minifier := { minifier with compressor := none }

/-- With a compressor a stream is minified as its compressed stream is without one, even to the
same error. -/
theorem minifyEvents_withCompressor (minifier : Minifier) (compressor : Style.Compressor)
    (events : List Event) :
    (minifier.withCompressor compressor).minifyEvents events =
      minifier.withoutCompressor.minifyEvents (compressed compressor [] events) := by
  have taken := Draft.pushAll_blank_compressed minifier.options compressor events
  rw [minifyEvents, minifyEvents, Canonical.serialize, Canonical.serialize]
  exact congrArg (fun taken => (Except.bind taken Draft.finish).map _) taken

/-- The compressor is asked about the style texts of a stream that is minified, once about each and
in their order, and about nothing else. The document is the one that is written without a
compressor of the stream in which its answers stand, so it depends on no other answers, and a
compressor without answers changes nothing. -/
theorem minifyEvents_compressed (minifier : Minifier) (compressor : Style.Compressor)
    (events : List Event) :
    ((∃ out, (minifier.withCompressor compressor).minifyEvents events = .ok out) →
        (minifier.withCompressor compressor).requests events = styleTexts [] events) ∧
      (minifier.withCompressor compressor).minifyEvents events =
        minifier.withoutCompressor.minifyEvents (compressed compressor [] events) ∧
      (∀ other : Style.Compressor, (∀ css ∈ styleTexts [] events, other css = compressor css) →
        (minifier.withCompressor other).minifyEvents events =
          (minifier.withCompressor compressor).minifyEvents events) ∧
      ((∀ css, ∃ reason, compressor css = .error reason) →
        (minifier.withCompressor compressor).minifyEvents events =
          minifier.withoutCompressor.minifyEvents events) := by
  refine ⟨?_, minifyEvents_withCompressor minifier compressor events, ?_, ?_⟩
  · rintro ⟨out, minified⟩
    rw [minifyEvents, Canonical.serialize] at minified
    cases taken : Draft.blank.pushAll (minifier.withCompressor compressor).options events with
    | error error =>
        rw [taken] at minified
        cases minified
    | ok last =>
        rw [requests, Draft.accepted_of_pushAll taken, Draft.requests_blank_of_pushAll taken]
  · intro other same
    rw [minifyEvents_withCompressor, minifyEvents_withCompressor, Style.compressed_congr [] same]
  · intro fails
    rw [minifyEvents_withCompressor, Style.compressed_of_error fails, List.nil_append]

/-- A text in two events is asked about as one, a blank text is not asked about, and a text without
an answer stays. -/
theorem minifyEvents_compressed_style :
    let minifier : Minifier := {}
    let compressor : Style.Compressor := fun css =>
      if css = "a  b".toList then .ok " ab ".toList else .error (.notFound [])
    let other : Style.Compressor := fun css => if css = "d".toList then .ok [] else compressor css
    let silent : Style.Compressor := fun _ => .error (.notFound [])
    let events : List Event :=
      [.documentStart, .elementOpen "style".toList [], .characters "a ".toList, .cdata " b".toList,
        .elementClose "style".toList, .elementOpen "style".toList [], .characters " ".toList,
        .elementClose "style".toList, .elementOpen "STYLE".toList [], .characters "c".toList,
        .elementClose "style".toList]
    let out := "<!doctype html><style>ab</style><style> </style><style>c</style>".toList
    ((minifier.withCompressor compressor).minifyEvents events = .ok out ∧
        (∀ css ∈ styleTexts [] events, other css = compressor css) ∧
        ∀ css, ∃ reason, silent css = .error reason) ∧
      (minifier.withCompressor compressor).requests events = ["a  b".toList, "c".toList] ∧
      minifier.withoutCompressor.minifyEvents (compressed compressor [] events) = .ok out ∧
      (minifier.withCompressor other).minifyEvents events = .ok out ∧
      (minifier.withCompressor silent).minifyEvents events =
        minifier.withoutCompressor.minifyEvents events := by
  intro minifier compressor other silent events out
  have minified : (minifier.withCompressor compressor).minifyEvents events = .ok out := by
    decide +kernel
  have texts : styleTexts [] events = ["a  b".toList, "c".toList] := by decide +kernel
  have same : ∀ css ∈ styleTexts [] events, other css = compressor css := by
    rw [texts]
    decide
  have fails : ∀ css, ∃ reason, silent css = .error reason := fun _ => ⟨.notFound [], rfl⟩
  obtain ⟨asked, written, alike, _⟩ := minifyEvents_compressed minifier compressor events
  obtain ⟨_, _, _, without⟩ := minifyEvents_compressed minifier silent events
  refine ⟨⟨minified, same, fails⟩, ?_, ?_, ?_, without fails⟩
  · rw [asked ⟨out, minified⟩, texts]
  · rw [← written, minified]
  · rw [alike other same, minified]

end HtmlMinifier.Minifier

/-
# Where a dropped comment shows

A comment that is dropped still ends a run of text, so the text around it is written in two parts,
each with regard to what stands in front of it. Almost everywhere the parts make up what the text
would be written as without the comment. Directly in `html` or `head` a part of blanks alone is
dropped even if the text around it is not blank, and then the space that the blanks stand for is
lost: between a text and blanks behind the comment, or between blanks in front of the comment and a
text.

A space that is lost at the end of a text need not be missed. The tag of a block would have cut it
off, and if only dropped comments and blanks stand in between, the next text may begin with a blank
of its own.
-/
import HtmlMinifier.Proofs.Canonical.TextRun
import HtmlMinifier.Proofs.Minifier.Agreement

namespace HtmlMinifier.Canonical

open Style (addedText addsText runText)

/-! ## Two parts of a text -/

namespace Place

/-- Whether text that is nothing but blanks is dropped wherever it stands: directly in `html` or
`head`, unless white space is kept there. -/
def dropsBlank (place : Place) : Bool := place.inSkeleton && !place.inPreformatted

/-- Whether a text loses the space at its front when it is cut in two behind blanks that it begins
with. -/
def losesFront (place : Place) (first second : Text) : Bool :=
  place.dropsBlank && place.keepsLeadingSpace && (first ≠ [] && first.all Text.isBlank) &&
    !second.all Text.isBlank && !Text.startsBlank second

/-- Whether a text loses the space at its end when it is cut in two in front of blanks that it ends
with. -/
def losesEnd (place : Place) (first second : Text) : Bool :=
  place.dropsBlank && !first.all Text.isBlank && !Text.endsBlank first &&
    (second ≠ [] && second.all Text.isBlank)

variable {place : Place} {first second : Text}

theorem normalize_of_dropsBlank (drops : place.dropsBlank = true) {text : Text}
    (plain : '&' ∉ text) :
    place.normalize text =
      if text.all Text.isBlank then []
      else Reference.encode (collapse place.keepsLeadingSpace text) := by
  obtain ⟨skeleton, flowing⟩ := Bool.and_eq_true_iff.1 drops
  rw [Bool.not_eq_true'] at flowing
  rw [normalize_of_flowing flowing, Reference.normalize_of_plain plain, Place.drops, skeleton,
    all_isBlank_collapse, Reference.all_isBlank_encode, Bool.true_and, collapse_encode]

/-- A text is written in two parts as it is in one where blanks alone are not dropped. -/
theorem normalize_append_of_keepsBlank (keeps : place.dropsBlank = false)
    (plain : '&' ∉ first ++ second) :
    place.normalize (first ++ second) =
      place.normalize first ++ (place.behind (place.normalize first)).normalize second := by
  have parts := Reference.normalize_append plain
  cases raw : place.inRawText with
  | true =>
      have sameRaw : ∀ run, (place.behind run).inRawText = true := fun _ => raw
      rw [normalize, normalize, normalize, sameRaw, raw]
      rfl
  | false =>
      cases pre : place.inPreformatted with
      | true =>
          rw [normalize_of_inPreformatted raw pre, normalize_of_inPreformatted raw pre,
            @normalize_of_inPreformatted (place.behind _) raw pre, parts]
      | false =>
          have noDrop : ∀ run, place.drops run = false := by
            intro run
            rw [dropsBlank, pre, Bool.not_false, Bool.and_true] at keeps
            rw [drops, keeps, Bool.false_and]
          have noDropBehind : ∀ written run, (place.behind written).drops run = false :=
            fun _ => noDrop
          rw [normalize_of_flowing pre, normalize_of_flowing pre,
            @normalize_of_flowing (place.behind _) pre, noDrop, noDrop, noDropBehind,
            keepsLeadingSpace_behind, parts, if_neg Bool.false_ne_true, if_neg Bool.false_ne_true,
            if_neg Bool.false_ne_true, collapse_append]

section

variable (drops : place.dropsBlank = true) (plain : '&' ∉ first ++ second)

include drops plain

/-- Behind blanks that are dropped, a text is written as if it was not cut, or it lacks a space. -/
theorem normalize_append_of_blank (blank : first.all Text.isBlank = true) :
    place.normalize first = [] ∧
      place.normalize (first ++ second) =
        (if place.losesFront first second then [' '] else []) ++ place.normalize second := by
  have plainParts := List.mem_append.not.1 plain
  rw [not_or] at plainParts
  rw [normalize_of_dropsBlank drops plain, normalize_of_dropsBlank drops plainParts.1,
    normalize_of_dropsBlank drops plainParts.2, List.all_append, blank, Bool.true_and]
  refine ⟨if_pos rfl, ?_⟩
  cases blankSecond : second.all Text.isBlank with
  | true => simp [losesFront, blankSecond]
  | false =>
      have dropped : collapse false first = [] := collapse_false_eq_nil_iff.2 blank
      rw [if_neg Bool.false_ne_true, if_neg Bool.false_ne_true, collapse_append]
      cases keeps : place.keepsLeadingSpace with
      | false => rw [dropped, losesFront, keeps, drops]; rfl
      | true =>
          cases first with
          | nil => rw [losesFront, drops, keeps]; rfl
          | cons c later =>
              have kept := collapse_true_of_blank blank (List.cons_ne_nil c later)
              have behind : keepBehind true [' '] = false := rfl
              have lost : place.losesFront (c :: later) second = !Text.startsBlank second := by
                rw [losesFront, drops, keeps, blank, blankSecond]
                rfl
              rw [kept, behind, lost, Reference.encode_append, collapse_true,
                Reference.encode_append]
              cases Text.startsBlank second <;> rfl

/-- Behind a text that is not blank, more of it is written as if it was not cut, or a space is
lacking at its end. -/
theorem normalize_append_of_solid (solid : first.all Text.isBlank = false) :
    place.normalize (first ++ second) =
      place.normalize first ++ ((place.behind (place.normalize first)).normalize second ++
        if place.losesEnd first second then [' '] else []) ∧
      place.normalize first ≠ [] ∧
      Text.endsBlank (place.normalize first) = Text.endsBlank first := by
  have plainParts := List.mem_append.not.1 plain
  rw [not_or] at plainParts
  have written : place.normalize first =
      Reference.encode (collapse place.keepsLeadingSpace first) := by
    rw [normalize_of_dropsBlank drops plainParts.1, solid, if_neg Bool.false_ne_true]
  have ends : Text.endsBlank (place.normalize first) = Text.endsBlank first := by
    rw [written, Reference.endsBlank_encode, endsBlank_collapse _ solid]
  have some : place.normalize first ≠ [] := by
    rw [written]
    exact encode_collapse_ne_nil _ solid
  refine ⟨?_, some, ends⟩
  have keeps : (place.behind (place.normalize first)).keepsLeadingSpace =
      !Text.endsBlank first := by
    rw [keepsLeadingSpace_behind, keepBehind, if_neg some, ends]
  have dropsBehind : (place.behind (place.normalize first)).dropsBlank = true := drops
  have keepsBehind : keepBehind place.keepsLeadingSpace (collapse place.keepsLeadingSpace first) =
      !Text.endsBlank first := by
    rw [keepBehind, if_neg, endsBlank_collapse _ solid]
    intro none
    rw [written, none] at some
    exact some rfl
  rw [normalize_of_dropsBlank drops plain, List.all_append, solid, Bool.false_and,
    if_neg Bool.false_ne_true, normalize_of_dropsBlank dropsBehind plainParts.2, keeps, written,
    collapse_append, Reference.encode_append, keepsBehind]
  congr 1
  rw [losesEnd, drops, solid, Bool.not_false, Bool.and_true, Bool.true_and]
  cases blankSecond : second.all Text.isBlank with
  | false => simp
  | true =>
      rw [if_pos rfl, List.nil_append, Bool.and_true]
      cases Text.endsBlank first with
      | true => rw [Bool.not_true, collapse_false_eq_nil_iff.2 blankSecond]; rfl
      | false =>
          rw [Bool.not_false]
          cases second with
          | nil => rfl
          | cons c later => rw [collapse_true_of_blank blankSecond (List.cons_ne_nil c later)]; rfl

end

/-- A text that loses no space is written in two parts as it is in one. -/
theorem normalize_append_of_loses (front : place.losesFront first second = false)
    (ends : place.losesEnd first second = false) (plain : '&' ∉ first ++ second) :
    place.normalize (first ++ second) =
      place.normalize first ++ (place.behind (place.normalize first)).normalize second := by
  cases drops : place.dropsBlank with
  | false => exact normalize_append_of_keepsBlank drops plain
  | true =>
      cases blank : first.all Text.isBlank with
      | true =>
          obtain ⟨none, whole⟩ := normalize_append_of_blank drops plain blank
          rw [whole, front, none, behind_nil]
          rfl
      | false =>
          rw [(normalize_append_of_solid drops plain blank).1, ends, if_neg Bool.false_ne_true,
            List.append_nil]

/-- The text behind a space that is lost at the front begins with no blank. -/
theorem exists_cons_of_losesFront (loses : place.losesFront first second = true)
    (plain : '&' ∉ second) :
    ∃ c later, place.normalize second = c :: later ∧ Text.isBlank c = false := by
  rw [losesFront, Bool.and_eq_true, Bool.and_eq_true, Bool.and_eq_true, Bool.and_eq_true,
    Bool.not_eq_true', Bool.not_eq_true'] at loses
  obtain ⟨⟨⟨⟨drops, _⟩, _⟩, solid⟩, starts⟩ := loses
  rw [normalize_of_dropsBlank drops plain, solid, if_neg Bool.false_ne_true]
  have some : second ≠ [] := by
    rintro rfl
    cases solid
  obtain ⟨c, later, rfl, isSolid⟩ := Text.exists_cons_of_not_startsBlank some starts
  apply Text.exists_cons_of_not_startsBlank
  · rw [collapse_cons_of_not_blank isSolid, Reference.encode, List.flatMap_cons]
    exact List.append_ne_nil_of_left_ne_nil (Reference.encodeChar_of_not_isBlank isSolid).1 _
  · rw [Reference.startsBlank_encode, collapse_cons_of_not_blank isSolid, Text.startsBlank_cons,
      isSolid]

end Place

/-! ## A blank that is missed -/

/-- Whether a blank that was left out is missed in front of a text: the text begins with none of
its own. For blanks alone this depends on what stands behind them. -/
def missedBefore (text : Text) (behind : Bool) : Bool :=
  if text.all Text.isBlank then behind else !Text.startsBlank text

/-- Whether a blank that was left out at the end of a text, directly in `html` or `head`, is missed
by the events behind it, where a text is waiting already. -/
def blankMissed (waiting : Text) : List Event → Bool
  | .characters text :: later => blankMissed (waiting ++ text) later
  | .cdata text :: later => blankMissed (waiting ++ text) later
  | .comment body :: later => missedBefore waiting (isConditional body || blankMissed [] later)
  | .elementOpen name _ :: _ => missedBefore waiting (!Element.isBlock (Text.lower name))
  | _ => missedBefore waiting true

namespace Writer

/-- A writer beside one that has written a blank more, directly in `html` or `head`. -/
structure Lacks (writer whole : Writer) : Prop where
  begins : ['<'] <+: writer.written
  solid : Text.endsBlank writer.written = false
  written : whole.written = writer.written ++ [' ']
  pending : whole.pending = writer.pending
  stack : whole.stack = writer.stack
  tail : writer.tail = .text false
  tailWhole : whole.tail = .text true
  drops : writer.place.dropsBlank = true

namespace Lacks

variable {options : Options} {writer whole : Writer}

theorem keepsLeadingSpace (lacks : writer.Lacks whole) :
    writer.place.keepsLeadingSpace = true ∧ whole.place.keepsLeadingSpace = false := by
  rw [Place.keepsLeadingSpace, Place.keepsLeadingSpace, place, place, lacks.tail, lacks.tailWhole]
  exact ⟨rfl, rfl⟩

theorem dropsWhole (lacks : writer.Lacks whole) : whole.place.dropsBlank = true := by
  have drops := lacks.drops
  rw [Place.dropsBlank, Place.inSkeleton, Place.current?, Place.inPreformatted, place] at drops ⊢
  rw [lacks.stack]
  exact drops

/-- Directly in `html` or `head` the tag of the element is neither that of a block nor that of a
void element. -/
theorem exists_innermost (lacks : writer.Lacks whole) :
    ∃ innermost outer, writer.stack = innermost :: outer ∧ Element.isBlock innermost = false ∧
      Element.isVoid innermost = false := by
  have skeleton := (Bool.and_eq_true_iff.1 lacks.drops).1
  rw [Place.inSkeleton, Place.current?, place] at skeleton
  cases around : writer.stack with
  | nil =>
      rw [around] at skeleton
      cases skeleton
  | cons innermost outer =>
      rw [around] at skeleton
      have table : ∀ name ∈ Element.skeletonNames,
          Element.isBlock name = false ∧ Element.isVoid name = false := by
        decide
      exact ⟨innermost, outer, rfl, table innermost (List.contains_iff_mem.1 skeleton)⟩

/-- Waiting blanks are dropped by both writers. -/
theorem flush_of_blank (lacks : writer.Lacks whole) (plain : '&' ∉ writer.pending)
    (blank : writer.pending.all Text.isBlank = true) : writer.flush.Lacks whole.flush := by
  have nothing : writer.place.normalize writer.pending = [] := by
    rw [Place.normalize_of_dropsBlank lacks.drops plain, if_pos blank]
  have nothingWhole : whole.place.normalize whole.pending = [] := by
    rw [lacks.pending, Place.normalize_of_dropsBlank lacks.dropsWhole plain, if_pos blank]
  have written : writer.flush.written = writer.written := by
    rw [written_flush, nothing, List.append_nil]
  have tail : writer.flush.tail = writer.tail := by
    rw [flush_tail, nothing, Tail.behind_nil]
  refine ⟨?_, ?_, ?_, ?_, ?_, ?_, ?_, ?_⟩
  · rw [written]
    exact lacks.begins
  · rw [written, lacks.solid]
  · rw [written, written_flush, nothingWhole, List.append_nil, lacks.written]
  · rw [flush_pending, flush_pending]
  · rw [flush_stack, flush_stack, lacks.stack]
  · rw [tail, lacks.tail]
  · rw [flush_tail, nothingWhole, Tail.behind_nil, lacks.tailWhole]
  · rw [place, flush_stack, tail]
    exact lacks.drops

/-- A waiting text that is not blank brings the writers together if it begins with a blank, and
parts them if it does not. -/
theorem flush_of_solid (lacks : writer.Lacks whole) (plain : '&' ∉ writer.pending)
    (solid : writer.pending.all Text.isBlank = false) :
    if Text.startsBlank writer.pending then writer.flush.Agrees whole.flush
    else writer.flush.Parts whole.flush := by
  have text := Place.normalize_of_dropsBlank lacks.drops plain
  have textWhole := Place.normalize_of_dropsBlank lacks.dropsWhole plain
  rw [solid, if_neg Bool.false_ne_true, lacks.keepsLeadingSpace.1, collapse_true,
    Reference.encode_append] at text
  rw [solid, if_neg Bool.false_ne_true, lacks.keepsLeadingSpace.2] at textWhole
  have some := encode_collapse_ne_nil false solid
  split
  · next starts =>
      rw [starts, if_pos rfl] at text
      refine ⟨?_, ?_, ?_, ?_⟩
      · rw [written_flush, written_flush, lacks.pending, lacks.written, text, textWhole,
          List.append_assoc]
        rfl
      · rw [flush_pending, flush_pending]
      · rw [flush_stack, flush_stack, lacks.stack]
      · rw [flush_tail, flush_tail, lacks.pending, text, textWhole, Tail.behind_append,
          Tail.behind,
          Tail.behind, if_neg some, if_neg some]
  · next starts =>
      rw [if_neg starts] at text
      obtain ⟨c, later, same, isSolid⟩ := Text.exists_cons_of_not_startsBlank some (by
        rw [Reference.startsBlank_encode, startsBlank_collapse_false])
      rw [same] at text textWhole
      have written : writer.flush.written = writer.written ++ c :: later := by
        rw [written_flush, text]
        rfl
      have writtenWhole : whole.flush.written = writer.written ++ ' ' :: c :: later := by
        rw [written_flush, lacks.pending, textWhole, lacks.written, List.append_assoc]
        rfl
      exact .of_written lacks.begins isSolid isSolid written writtenWhole

/-- Markup parts the writers. -/
theorem parts (lacks : writer.Lacks whole) {first second : Writer} {markup : Text}
    (opens : markup.head? = some '<') (written : first.written = writer.written ++ markup)
    (writtenWhole : second.written = whole.written ++ markup) : first.Parts second := by
  obtain ⟨later, rfl⟩ := List.head?_eq_some_iff.1 opens
  have solid : Text.isBlank '<' = false := by decide
  rw [lacks.written, List.append_assoc] at writtenWhole
  exact .of_written lacks.begins solid solid written writtenWhole

/-- The tag of a block in front of which nothing waits brings the writers together, and any other
start tag parts them. -/
theorem openElement_of_flush (lacks : writer.flush.Lacks whole.flush) (options : Options)
    (name : Text)
    (attributes : List (Text × Text)) :
    if Element.isBlock name then
      (writer.openElement options name attributes).Agrees
      (whole.openElement options name attributes)
    else (writer.openElement options name attributes).Parts
    (whole.openElement options name attributes) := by
  have stack : whole.stack = writer.stack := by
    rw [← flush_stack whole, lacks.stack, flush_stack]
  have cuts : writer.flush.cutsBefore name = Element.isBlock name := by
    rw [cutsBefore, (Bool.and_eq_true_iff.1 lacks.drops).2, Bool.and_true]
  have cutsWhole : whole.flush.cutsBefore name = Element.isBlock name := by
    rw [cutsBefore, (Bool.and_eq_true_iff.1 lacks.dropsWhole).2, Bool.and_true]
  have trimmed : Text.trimEnd writer.flush.written = writer.flush.written :=
    Text.trimEnd_eq_self_iff.2 lacks.solid
  split
  · next block =>
      refine ⟨?_, ?_, ?_, rfl⟩
      · rw [written_openElement, written_openElement, written_trimBefore, written_trimBefore, cuts,
          cutsWhole, if_pos block, if_pos block, lacks.written,
            Text.trimEnd_concat_of_blank (by decide)]
      · rw [openElement_pending, openElement_pending]
      · rw [openElement_stack, openElement_stack, stack]
  · next block =>
      have written := written_openElement options name attributes writer
      have writtenWhole := written_openElement options name attributes whole
      rw [written_trimBefore, cuts, if_neg block] at written
      rw [written_trimBefore, cutsWhole, if_neg block] at writtenWhole
      exact lacks.parts rfl written writtenWhole

/-- An end tag parts the writers. -/
theorem closeElement_of_flush (none : options.compressor = none)
    (lacks : writer.flush.Lacks whole.flush)
    {name : Text} {outer : List Text} (around : writer.stack = name :: outer) :
    (writer.closeElement options name).Parts (whole.closeElement options name) := by
  obtain ⟨innermost, others, same, inline, noVoid⟩ := lacks.exists_innermost
  rw [flush_stack, around] at same
  obtain ⟨rfl, rfl⟩ := List.cons.inj same
  have written : ∀ current : Writer,
      (current.closeElement options name).written = current.flush.written ++
          (Piece.endTag name).render := by
    intro current
    rw [written_closeElement, compressStyle_eq_self none, written_trimBefore, cutsBefore,
      inline, noVoid]
    rfl
  exact lacks.parts rfl (written writer) (written whole)

/-- A comment that is kept parts the writers. -/
theorem comment_of_flush (lacks : writer.flush.Lacks whole.flush) {body : Text}
    (kept : isConditional body = true) : (writer.comment body).Parts (whole.comment body) := by
  have written : ∀ current : Writer,
      (current.comment body).written = current.flush.written ++ (Piece.comment body).render := by
    intro current
    rw [written_comment, if_pos kept]
  exact lacks.parts rfl (written writer) (written whole)

/-- In front of a tag or a comment, the waiting text decides whether the blank is missed, unless
the text is blank. -/
theorem ending_eq_iff_missedBefore (none : options.compressor = none) (lacks : writer.Lacks whole)
    (plain : '&' ∉ writer.pending) {event : Event} {later : List Event} {out : Text}
    (noText : addsText event = false) (ends : writer.ending options (event :: later) = .ok out)
    {behind : Bool}
    (blankCase : writer.flush.Lacks whole.flush →
      (whole.ending options (event :: later) = .ok out ↔ behind = false)) :
    whole.ending options (event :: later) = .ok out ↔ missedBefore writer.pending behind =
    false := by
  rw [missedBefore]
  cases blank : writer.pending.all Text.isBlank with
  | true => exact blankCase (lacks.flush_of_blank plain blank)
  | false =>
      have begins : ∀ first, (event :: later).head? = some first → addsText first = false := by
        rintro first ⟨⟩
        exact noText
      have flushed := lacks.flush_of_solid plain blank
      rw [if_neg Bool.false_ne_true, ← ending_flush none whole begins]
      rw [← ending_flush none writer begins] at ends
      cases starts : Text.startsBlank writer.pending with
      | true =>
          rw [starts, if_pos rfl] at flushed
          rw [flushed.ending_eq, ends]
          exact iff_of_true rfl rfl
      | false =>
          rw [starts, if_neg Bool.false_ne_true] at flushed
          exact iff_of_false (flushed.ending_ne ends) Bool.true_eq_false.mp

/-- The writers end with the same document exactly if the blank is not missed. -/
theorem ending_eq_iff (none : options.compressor = none) (lacks : writer.Lacks whole)
    (plain : '&' ∉ writer.pending) {events : List Event}
    (plainEvents : ∀ event ∈ events, '&' ∉ addedText event) {out : Text}
    (ends : writer.ending options events = .ok out) :
    whole.ending options events = .ok out ↔ blankMissed writer.pending events = false := by
  -- Text and dropped comments leave one writer lacking the blank, and the first mark decides.
  induction events generalizing writer whole with
  | nil =>
      obtain ⟨innermost, outer, around, _⟩ := lacks.exists_innermost
      rw [ending_nil, finish, around] at ends
      cases ends
  | cons event later ih =>
      obtain ⟨plainEvent, plainLater⟩ := List.forall_mem_cons.1 plainEvents
      have taken := push_of_ending ends
      have alsoTaken : whole.push options event = .ok (whole.step options event) := by
        rcases push_alike options lacks.stack event with ⟨error, failed, _⟩ | ⟨_, alsoTaken⟩
        · rw [failed] at taken
          cases taken
        · exact alsoTaken
      cases event with
      | documentStart => cases taken
      | characters text | cdata text =>
          have more : (writer.characters text).Lacks (whole.characters text) :=
            ⟨lacks.begins, lacks.solid, lacks.written, by rw [characters, characters,
              lacks.pending],
              lacks.stack, lacks.tail, lacks.tailWhole, lacks.drops⟩
          have plainMore : '&' ∉ (writer.characters text).pending := by
            rw [characters, List.mem_append, not_or]
            exact ⟨plain, plainEvent⟩
          exact ih more plainMore plainLater ends
      | elementOpen name attributes =>
          refine lacks.ending_eq_iff_missedBefore none plain rfl ends fun flushed => ?_
          have opened := flushed.openElement_of_flush options (Text.lower name) attributes
          rw [ending_step alsoTaken]
          rw [ending_step taken] at ends
          cases block : Element.isBlock (Text.lower name) with
          | true =>
              rw [block, if_pos rfl] at opened
              rw [step, opened.ending_eq]
              exact iff_of_true ends rfl
          | false =>
              rw [block, if_neg Bool.false_ne_true] at opened
              exact iff_of_false (opened.ending_ne ends) Bool.true_eq_false.mp
      | elementClose name =>
          refine lacks.ending_eq_iff_missedBefore none plain rfl ends fun flushed => ?_
          obtain ⟨outer, around⟩ := exists_outer_of_push taken
          rw [ending_step alsoTaken]
          rw [ending_step taken] at ends
          have closed := flushed.closeElement_of_flush none around
          exact iff_of_false (closed.ending_ne ends) Bool.true_eq_false.mp
      | comment body =>
          refine lacks.ending_eq_iff_missedBefore none plain rfl ends fun flushed => ?_
          rw [ending_step alsoTaken]
          rw [ending_step taken] at ends
          cases kept : isConditional body with
          | true =>
              have commented := flushed.comment_of_flush kept
              exact iff_of_false (commented.ending_ne ends) Bool.true_eq_false.mp
          | false =>
              rw [step, comment_of_dropped _ kept] at ends ⊢
              have empty : writer.flush.pending = [] := flush_pending writer
              have further := ih flushed (by rw [empty]; exact List.not_mem_nil) plainLater ends
              rwa [empty] at further

end Lacks

/-! ## A comment that is dropped -/

/-- Whether a blank is lost and missed if a comment is dropped where a writer stands. -/
def losesBlank (writer : Writer) (later : List Event) : Bool :=
  let ahead := runText (later.takeWhile addsText)
  writer.place.losesFront writer.pending ahead ||
    writer.place.losesEnd writer.pending ahead && blankMissed [] (later.dropWhile addsText)

section

variable {options : Options} {writer : Writer} {ahead : Text}

theorem place_flush (writer : Writer) :
    writer.flush.place = writer.place.behind (writer.place.normalize writer.pending) := by
  rw [place, flush_stack, flush_tail]
  rfl

/-- What is written if the waiting text is written before more of it comes. -/
theorem written_flush_characters (writer : Writer) (ahead : Text) :
    (writer.flush.characters ahead).flush.written =
      writer.written ++ (writer.place.normalize writer.pending ++
        (writer.place.behind (writer.place.normalize writer.pending)).normalize ahead) := by
  have pending : (writer.flush.characters ahead).pending = ahead := by
    rw [characters, flush_pending, List.nil_append]
  have place : (writer.flush.characters ahead).place = writer.flush.place := rfl
  rw [written_flush, pending, place, place_flush, written_characters, written_flush,
    List.append_assoc]

theorem tail_flush_characters (writer : Writer) (ahead : Text) :
    (writer.flush.characters ahead).flush.tail =
      writer.tail.behind (writer.place.normalize writer.pending ++
        (writer.place.behind (writer.place.normalize writer.pending)).normalize ahead) := by
  have pending : (writer.flush.characters ahead).pending = ahead := by
    rw [characters, flush_pending, List.nil_append]
  have place : (writer.flush.characters ahead).place = writer.flush.place := rfl
  have tail : (writer.flush.characters ahead).tail = writer.flush.tail := rfl
  rw [flush_tail, pending, place, place_flush, tail, flush_tail, Tail.behind_append]

/-- Where no space is lost, the writer with the comment agrees with the one without. -/
theorem agrees_of_loses (plain : '&' ∉ writer.pending ++ ahead)
    (front : writer.place.losesFront writer.pending ahead = false)
    (ends : writer.place.losesEnd writer.pending ahead = false) :
    (writer.flush.characters ahead).flush.Agrees (writer.characters ahead).flush := by
  have whole : (writer.characters ahead).place.normalize (writer.characters ahead).pending =
      writer.place.normalize writer.pending ++
        (writer.place.behind (writer.place.normalize writer.pending)).normalize ahead :=
    Place.normalize_append_of_loses front ends plain
  refine ⟨?_, ?_, ?_, ?_⟩
  · rw [written_flush, whole, written_flush_characters, written_characters]
  · rw [flush_pending, flush_pending]
  · rw [flush_stack, flush_stack, characters_stack, characters_stack, flush_stack]
  · rw [flush_tail, whole, tail_flush_characters]
    rfl

/-- A space that is lost at the front of a text parts the writers. -/
theorem parts_of_losesFront (begins : ['<'] <+: writer.written)
    (plain : '&' ∉ writer.pending ++ ahead)
    (loses : writer.place.losesFront writer.pending ahead = true) :
    (writer.flush.characters ahead).flush.Parts (writer.characters ahead).flush := by
  have blank : writer.place.dropsBlank = true ∧ writer.pending.all Text.isBlank = true := by
    simp only [Place.losesFront, Bool.and_eq_true] at loses
    exact ⟨loses.1.1.1.1, loses.1.1.2.2⟩
  obtain ⟨none, whole⟩ := Place.normalize_append_of_blank blank.1 plain blank.2
  rw [loses, if_pos rfl] at whole
  rw [List.mem_append, not_or] at plain
  obtain ⟨c, later, same, solid⟩ := Place.exists_cons_of_losesFront loses plain.2
  rw [same] at whole
  have written : (writer.flush.characters ahead).flush.written = writer.written ++ c :: later := by
    rw [written_flush_characters, none, Place.behind_nil, same]
    rfl
  have writtenWhole : (writer.characters ahead).flush.written = writer.written ++ ' ' :: c ::
      later := by
    rw [written_flush]
    exact congrArg (writer.written ++ ·) whole
  exact .of_written begins solid solid written writtenWhole

/-- A space that is lost at the end of a text is the only difference between the writers. -/
theorem lacks_of_losesEnd (begins : ['<'] <+: writer.written)
    (plain : '&' ∉ writer.pending ++ ahead)
    (loses : writer.place.losesEnd writer.pending ahead = true) :
    (writer.flush.characters ahead).flush.Lacks (writer.characters ahead).flush := by
  have lost : writer.place.dropsBlank = true ∧ writer.pending.all Text.isBlank = false ∧
      Text.endsBlank writer.pending = false ∧ ahead.all Text.isBlank = true := by
    simp only [Place.losesEnd, Bool.and_eq_true, Bool.not_eq_true'] at loses
    exact ⟨loses.1.1.1, loses.1.1.2, loses.1.2, loses.2.2⟩
  obtain ⟨drops, solid, ends, blankAhead⟩ := lost
  obtain ⟨whole, some, endsFirst⟩ := Place.normalize_append_of_solid drops plain solid
  rw [List.mem_append, not_or] at plain
  have dropsBehind :
      (writer.place.behind (writer.place.normalize writer.pending)).dropsBlank = true := drops
  have nothing : (writer.place.behind (writer.place.normalize writer.pending)).normalize ahead =
      [] := by
    rw [Place.normalize_of_dropsBlank dropsBehind plain.2, if_pos blankAhead]
  have whole : (writer.characters ahead).place.normalize (writer.characters ahead).pending =
      writer.place.normalize writer.pending ++ [' '] := by
    rw [loses, if_pos rfl, nothing] at whole
    exact whole
  have written : (writer.flush.characters ahead).flush.written =
      writer.written ++ writer.place.normalize writer.pending := by
    rw [written_flush_characters, nothing, List.append_nil]
  refine ⟨?_, ?_, ?_, ?_, ?_, ?_, ?_, ?_⟩
  · rw [written]
    exact begins.trans (List.prefix_append _ _)
  · rw [written, Text.endsBlank_append some, endsFirst, ends]
  · rw [written, written_flush, whole, written_characters, List.append_assoc]
  · rw [flush_pending, flush_pending]
  · rw [flush_stack, flush_stack, characters_stack, characters_stack, flush_stack]
  · rw [tail_flush_characters, nothing, List.append_nil, Tail.behind, if_neg some, endsFirst, ends]
  · rw [flush_tail, whole, Tail.behind, if_neg (by simp), Text.endsBlank_concat]
    rfl
  · rw [Place.dropsBlank, Place.inSkeleton, Place.current?, Place.inPreformatted, place,
      flush_stack,
      characters_stack, flush_stack]
    exact drops

theorem ending_run (writer : Writer) {run : List Event} (isRun : Style.IsRun run)
    (rest : List Event) :
    writer.ending options (run ++ rest) = (writer.characters (runText run)).ending options
    rest := by
  rw [ending, Draft.pushAll_run options writer isRun rest, ending]

/-- A writer ends with the same document whether a comment that is dropped is there or not, unless
a blank is lost and missed. -/
theorem ending_eq_iff_of_dropped (none : options.compressor = none) {body : Text}
    (dropped : isConditional body = false) (begins : ['<'] <+: writer.written)
    (plain : '&' ∉ writer.pending) {later : List Event}
    (plainLater : ∀ event ∈ later, '&' ∉ addedText event) {out : Text}
    (ends : (writer.comment body).ending options later = .ok out) :
    writer.ending options later = .ok out ↔ writer.losesBlank later = false := by
  have isRun : Style.IsRun (later.takeWhile addsText) := fun event inside =>
    List.all_eq_true.1 List.all_takeWhile event inside
  have noText : ∀ event, (later.dropWhile addsText).head? = some event → addsText event =
      false := by
    intro event first
    have stops := List.head?_dropWhile_not addsText later
    rwa [first] at stops
  have plainAhead : '&' ∉ runText (later.takeWhile addsText) := by
    rw [runText, List.mem_flatMap]
    rintro ⟨event, inside, within⟩
    exact plainLater event (List.takeWhile_subset _ inside) within
  have plainWhole : '&' ∉ writer.pending ++ runText (later.takeWhile addsText) := by
    rw [List.mem_append, not_or]
    exact ⟨plain, plainAhead⟩
  have split : ∀ current : Writer, current.ending options later =
      (current.characters (runText (later.takeWhile addsText))).flush.ending options
        (later.dropWhile addsText) := by
    intro current
    rw [ending_flush none _ noText, ← ending_run current isRun, List.takeWhile_append_dropWhile]
  rw [writer.comment_of_dropped dropped, split] at ends
  rw [split, losesBlank]
  -- With the comment the waiting text is written before the text ahead comes, and without it at
  -- once with it.
  cases front : writer.place.losesFront writer.pending (runText (later.takeWhile addsText)) with
  | true =>
      have parted := parts_of_losesFront begins plainWhole front
      exact iff_of_false (parted.ending_ne ends) Bool.true_eq_false.mp
  | false =>
      cases atEnd : writer.place.losesEnd writer.pending (runText (later.takeWhile addsText)) with
      | false =>
          rw [(agrees_of_loses plainWhole front atEnd).ending_eq, ends]
          exact iff_of_true rfl rfl
      | true =>
          have lacks := lacks_of_losesEnd begins plainWhole atEnd
          have empty := flush_pending
            (writer.flush.characters (runText (later.takeWhile addsText)))
          have plainRest : ∀ event ∈ later.dropWhile addsText, '&' ∉ addedText event :=
            fun event inside => plainLater event (List.dropWhile_subset _ inside)
          have missed := lacks.ending_eq_iff none (by rw [empty]; exact List.not_mem_nil)
            plainRest ends
          rwa [empty] at missed

end

end Writer

end HtmlMinifier.Canonical

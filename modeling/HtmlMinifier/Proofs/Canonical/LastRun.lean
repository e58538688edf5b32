/-
# What a written document ends with

A writer that takes a stream of the builder stands behind a mark and a run of text that fits where
it began. What the mark is depends on the stream; all that matters here is that no rule for the
document skeleton takes it out, which holds if the stream opens no element of the skeleton. At the
end of the stream nothing is open, so the last run has no bracket in it and ends with one blank at
most.
-/
import HtmlMinifier.Proofs.Canonical.FirstWriting
import HtmlMinifier.Proofs.OptionalTag.Frame

namespace HtmlMinifier.Canonical

open Event (Legible StaysOpen)
open OptionalTag (IsLasting frameNames isLasting_doctype isLasting_startTag isLasting_endTag
  isLasting_commentEnd)
open Token (IsTagName IsAttributeName)

/-! ## One blank at most -/

/-- A collapsed run ends with one blank at most. -/
theorem exists_trimEnd_of_collapse {keep : Bool} {run : Text}
    (collapsed : collapse keep run = run) :
    run = Text.trimEnd run ∨ ∃ b, Text.isBlank b = true ∧ run = Text.trimEnd run ++ [b] := by
  rcases List.eq_nil_or_concat run with rfl | ⟨front, b, rfl⟩
  · exact .inl rfl
  · rw [List.concat_eq_append] at *
    cases blank : Text.isBlank b with
    | false => exact .inl (Text.trimEnd_concat_of_not_blank blank front).symm
    | true =>
        refine .inr ⟨b, blank, ?_⟩
        rw [Text.trimEnd_concat_of_blank blank]
        have frontCollapsed := collapse_eq_self_of_append collapsed
        have trimmed : Text.endsBlank front = false := by
          -- Behind a blank another one is dropped.
          by_contra ends
          rw [Bool.not_eq_false] at ends
          have some : front ≠ [] := by
            rintro rfl
            cases ends
          have noMore : keepBehind keep front = false := by
            rw [keepBehind, if_neg some, ends]
            rfl
          rw [collapse_append, frontCollapsed, noMore, collapse_cons_of_blank blank,
            if_neg Bool.false_ne_true] at collapsed
          have long := congrArg List.length collapsed
          simp [collapse] at long
        rw [Text.trimEnd_eq_self_iff.2 trimmed]

/-! ## The invariant -/

/-- An element outside the document skeleton that stays open. -/
structure StaysOutside (name : Text) : Prop extends StaysOpen name where
  noFrame : name ∉ frameNames

/-- A writer that stands behind a run, and in front of the run a mark that lasts. -/
def Writer.EndsLasting (writer : Writer) (place : Place) : Prop :=
  ∃ front last run, writer.Stands (front ++ last) run place ∧ IsLasting last

/-- Right behind a mark that lasts. -/
theorem Writer.endsLasting_of_written {writer : Writer} {front last : Text}
    (written : writer.written = front ++ last) (lasting : IsLasting last) :
    writer.EndsLasting writer.place :=
  ⟨front, last, [], ⟨by rw [written, List.append_nil], Place.fits_nil _, rfl, rfl⟩, lasting⟩

section
variable {options : Options} {writer : Writer} {place : Place} {name : Text}

/-- Behind the start tag of an element outside the skeleton. -/
theorem Writer.endsLasting_openElement {given : List (Text × Text)} (named : IsTagName name)
    (noFrame : name ∉ frameNames) (attributeNames : ∀ attr ∈ given, IsAttributeName attr.1) :
    (writer.openElement options name given).EndsLasting
      (writer.openElement options name given).place :=
  endsLasting_of_written (written_openElement options name given writer)
    (isLasting_startTag named (isEncodedAttribute_canonicalAttributes attributeNames) noFrame)

/-- Behind the end tag of an element outside the skeleton. -/
theorem Writer.endsLasting_closeElement (stays : StaysOutside name) :
    (writer.closeElement options name).EndsLasting (writer.closeElement options name).place := by
  have written := written_closeElement options name writer
  rw [stays.noVoid, if_neg Bool.false_ne_true] at written
  exact endsLasting_of_written written (isLasting_endTag stays.named stays.noFrame)

/-- Behind a comment, or behind the run that goes on where a comment is dropped. -/
theorem Writer.EndsLasting.comment (ends : writer.EndsLasting place) (body : Text) :
    ∃ place', (writer.comment body).EndsLasting place' ∧ place'.ancestors = place.ancestors := by
  cases conditional : isConditional body with
  | true =>
      have written : (writer.comment body).written =
          writer.flush.written ++ ("<!--".toList ++ body) ++ "-->".toList := by
        rw [written_comment, if_pos conditional, Piece.render]
        simp only [List.append_assoc]
      obtain ⟨front, last, run, stands, _⟩ := ends
      refine ⟨_, endsLasting_of_written written isLasting_commentEnd, ?_⟩
      rw [Writer.place, comment_stack, stands.stack]
  | false =>
      obtain ⟨front, last, run, stands, lasting⟩ := ends
      rw [comment_of_dropped writer conditional]
      exact ⟨place, ⟨front, last, _, stands.flush, lasting⟩, rfl⟩

end

/-- A void element is no element of the skeleton. -/
theorem notMem_frameNames_of_isVoid {name : Text} (isVoid : Element.isVoid name = true) :
    name ∉ frameNames := by
  have table : ∀ name ∈ frameNames, Element.isVoid name = false := by decide
  intro member
  rw [table name member] at isVoid
  cases isVoid

/-- A verbatim element is no element of the skeleton. -/
theorem notMem_frameNames_of_isVerbatim {name : Text}
    (isVerbatim : Element.isVerbatim name = true) :
    name ∉ frameNames := by
  have table : ∀ name ∈ frameNames, Element.isVerbatim name = false := by decide
  intro member
  rw [table name member] at isVerbatim
  cases isVerbatim

/-- Where a stream of the builder ends, a writer stands behind a mark that lasts. -/
theorem Writer.EndsLasting.steps {options : Options} (none : options.compressor = none)
    {stack : List Text} {events : List Event} (legible : Legible StaysOutside stack events)
    {writer : Writer} {place : Place} (ends : writer.EndsLasting place)
    (same : place.ancestors = stack) :
    ∃ place', (writer.steps options events).EndsLasting place' ∧ place'.ancestors = [] := by
  induction legible generalizing writer place with
  | done => exact ⟨place, ends, same⟩
  | @opened stack name given later stays _ attributeNames _ ih =>
      rw [Writer.steps_cons, Writer.step, stays.named.lower]
      apply ih (endsLasting_openElement stays.named stays.noFrame attributeNames)
      obtain ⟨_, _, _, stands, _⟩ := ends
      rw [Writer.place, openElement_stack, stands.stack, same]
  | @void stack name given later named isVoid _ attributeNames _ ih =>
      obtain ⟨_, _, _, stands, _⟩ := ends
      rw [Writer.steps_cons, Writer.steps_cons, Writer.step, Writer.step, named.lower]
      have written : ((writer.openElement options name given).closeElement options name).written =
          _ :=
        (written_closeElement_void none isVoid given writer).trans
          (written_openElement options name given writer)
      refine ih (endsLasting_of_written written (isLasting_startTag named
        (isEncodedAttribute_canonicalAttributes attributeNames)
          (notMem_frameNames_of_isVoid isVoid))) ?_
      rw [Writer.place, closeElement_stack, openElement_stack, stands.stack, same]
      rfl
  | @verbatim stack name given body later named isVerbatim _ attributeNames _ _ ih =>
      obtain ⟨_, _, _, stands, _⟩ := ends
      have stays : StaysOutside name :=
        ⟨⟨named, Token.isVoid_of_isVerbatim isVerbatim⟩,
          notMem_frameNames_of_isVerbatim isVerbatim⟩
      rw [Writer.steps_cons, Writer.steps_append, steps_characters, Writer.steps_cons, Writer.step,
        Writer.step, named.lower]
      apply ih (endsLasting_closeElement stays)
      rw [Writer.place, closeElement_stack, characters_stack, openElement_stack,
        stands.stack, same]
      rfl
  | @closed stack name later stays _ ih =>
      rw [Writer.steps_cons, Writer.step, stays.named.lower]
      apply ih (endsLasting_closeElement stays)
      obtain ⟨_, _, _, stands, _⟩ := ends
      rw [Writer.place, closeElement_stack, stands.stack, same]
      rfl
  | characters _ ih | cdata _ ih =>
      obtain ⟨front, last, run, stands, lasting⟩ := ends
      exact ih ⟨front, last, run, ⟨stands.written, stands.fits, stands.stack, stands.tail⟩,
        lasting⟩ same
  | @comment stack body later _ _ ih =>
      obtain ⟨place', ends', same'⟩ := ends.comment body
      exact ih ends' (same'.trans same)

/-- What is written of a stream that opens no element of the skeleton ends with a mark that lasts,
a run without brackets, and one blank at most. -/
theorem exists_lasting_end {options : Options} (none : options.compressor = none)
    {events : List Event}
    (legible : Legible StaysOutside [] events) :
    ∃ front last run, (Writer.start.steps options events).flush.written = front ++ (last ++ run) ∧
      IsLasting last ∧ (∀ c ∈ run, c ≠ '<') ∧
      (run = Text.trimEnd run ∨ ∃ b, Text.isBlank b = true ∧ run = Text.trimEnd run ++ [b]) := by
  have begins : Writer.start.written = [] ++ Element.doctype := rfl
  have start : Writer.start.EndsLasting Place.start :=
    Writer.endsLasting_of_written begins isLasting_doctype
  obtain ⟨⟨ancestors, tail⟩, ⟨front, last, run, stands, lasting⟩, rfl⟩ :=
    Writer.EndsLasting.steps none legible start rfl
  have written := stands.flush.written
  have fits := stands.flush.fits
  refine ⟨front, last, _, by rw [written, List.append_assoc], lasting, fits.ne_bracket rfl, ?_⟩
  exact exists_trimEnd_of_collapse ((Place.fits_iff_of_flowing rfl).1 fits).2.1

end HtmlMinifier.Canonical

/-
# Minifying without a dropped comment

A stream is minified with a comment that is dropped as it is without it, whatever the settings are,
unless a blank is lost around the comment directly in `html` or `head` and missed there. That
condition is exact: where it holds, the documents differ as long as the optional tags are kept.
-/
import HtmlMinifier.Proofs.Minifier.Contract
import HtmlMinifier.Proofs.Minifier.DroppedComment
import HtmlMinifier.Proofs.Minifier.Elision

namespace HtmlMinifier.Canonical

open Style (addedText)

variable {options : Options}

/-- What waits is text that has been given. -/
theorem Writer.plain_pending_steps {events : List Event}
    (plain : ∀ event ∈ events, '&' ∉ addedText event) {writer : Writer}
    (plainPending : '&' ∉ writer.pending) : '&' ∉ (writer.steps options events).pending := by
  induction events generalizing writer with
  | nil => exact plainPending
  | cons event later ih =>
      obtain ⟨plainEvent, plainLater⟩ := List.forall_mem_cons.1 plain
      refine ih plainLater ?_
      cases event with
      | documentStart => exact plainPending
      | elementOpen name attributes =>
          rw [step, openElement_pending]
          exact List.not_mem_nil
      | elementClose name =>
          rw [step, closeElement_pending]
          exact List.not_mem_nil
      | characters text | cdata text =>
          rw [step, characters, List.mem_append, not_or]
          exact ⟨plainPending, plainEvent⟩
      | comment body =>
          rw [step, comment_pending]
          exact List.not_mem_nil

/-- A document goes on from the writer that has taken the first events. -/
theorem serialize_append {earlier : List Event} {writer : Writer}
    (taken : Draft.blank.pushAll options earlier = .ok (some writer)) (later : List Event) :
    serialize options (earlier ++ later) = writer.ending options later := by
  rw [serialize, Draft.pushAll_append, taken]
  rfl

/-- Where a comment is accepted a document is begun. -/
theorem exists_writer_of_serialize {earlier later : List Event} {body text : Text}
    (accepted : serialize options (earlier ++ .comment body :: later) = .ok text) :
    ∃ writer, Draft.blank.pushAll options earlier = .ok (some writer) := by
  rw [serialize, Draft.pushAll_append] at accepted
  cases taken : Draft.blank.pushAll options earlier with
  | error error =>
      rw [taken] at accepted
      cases accepted
  | ok draft =>
      cases draft with
      | some writer => exact ⟨writer, rfl⟩
      | none =>
          rw [taken] at accepted
          cases accepted

end HtmlMinifier.Canonical

namespace HtmlMinifier.Minifier

open Canonical (isConditional serialize Draft Writer)
open Style (addedText)

/-- A stream without references is minified to the same document with a comment that is dropped and
without it, unless the writer that has come to the comment loses a blank there. If the optional
tags are kept, the documents differ if it does. -/
theorem minifyEvents_without_comment (minifier : Minifier) (none : minifier.compressor = none)
    {earlier later : List Event} {body : Text} (dropped : isConditional body = false)
    (plain : ∀ event ∈ earlier ++ later, '&' ∉ addedText event) {out : Text}
    (accepted : minifier.minifyEvents (earlier ++ .comment body :: later) = .ok out) :
    ∃ writer, Draft.blank.pushAll minifier.options earlier = .ok (some writer) ∧
      (writer.losesBlank later = false → minifier.minifyEvents (earlier ++ later) = .ok out) ∧
      ((minifier.eliding false).minifyEvents (earlier ++ later) =
          (minifier.eliding false).minifyEvents (earlier ++ .comment body :: later) ↔
        writer.losesBlank later = false) := by
  obtain ⟨plainEarlier, plainLater⟩ := List.forall_mem_append.1 plain
  obtain ⟨text, written, finished⟩ : ∃ text,
      serialize minifier.options (earlier ++ .comment body :: later) = .ok text ∧
        minifier.finish text = out := by
    rw [minifyEvents] at accepted
    cases written : serialize minifier.options (earlier ++ .comment body :: later) with
    | error error =>
        rw [written] at accepted
        cases accepted
    | ok text =>
        rw [written] at accepted
        exact ⟨text, rfl, Except.ok.inj accepted⟩
  obtain ⟨writer, taken⟩ := Canonical.exists_writer_of_serialize written
  obtain ⟨begun, rfl, same⟩ := Draft.exists_steps_of_pushAll taken
  have begins : ['<'] <+: writer.written := by
    rw [same]
    exact Writer.prefix_written_steps _ (by decide) ⟨Element.doctype.tail, rfl⟩ begun
  have plainPending : '&' ∉ writer.pending := by
    rw [same]
    exact Writer.plain_pending_steps (List.forall_mem_cons.1 plainEarlier).2 List.not_mem_nil
  have ends : (writer.comment body).ending minifier.options later = .ok text := by
    rw [Canonical.serialize_append taken] at written
    exact written
  have sameEnding := Writer.ending_eq_iff_of_dropped none dropped begins plainPending
    plainLater ends
  rw [← Canonical.serialize_append taken] at sameEnding
  refine ⟨writer, taken, fun kept => ?_, ?_⟩
  · rw [minifyEvents, sameEnding.2 kept, ← finished]
    rfl
  · have plainly : ∀ events, (minifier.eliding false).minifyEvents events =
        serialize minifier.options events := by
      intro events
      change (serialize minifier.options events).map (minifier.eliding false).finish = _
      cases serialize minifier.options events <;> rfl
    rw [plainly, plainly, written]
    exact sameEnding

/-- Directly in `html` a comment between two words does not change the space between them. -/
theorem minifyEvents_without_comment_html :
    (Minifier.ofSettings {}).minifyEvents
        [.documentStart, .elementOpen "html".toList [], .characters "a ".toList,
          .characters "\nb".toList, .elementClose "html".toList] =
      .ok "<!doctype html>a b".toList := by
  have accepted : (Minifier.ofSettings {}).minifyEvents
      ([.documentStart, .elementOpen "html".toList [], .characters "a ".toList] ++
        .comment "c".toList :: [.characters "\nb".toList, .elementClose "html".toList]) =
      .ok "<!doctype html>a b".toList := by
    decide +kernel
  obtain ⟨writer, taken, same, _⟩ :=
    minifyEvents_without_comment (Minifier.ofSettings {}) rfl (by decide) (by decide) accepted
  refine same ?_
  have stands : writer = ⟨[.startTag "html".toList [], .doctype], "a ".toList, ["html".toList],
      .startTag "html".toList⟩ := by
    rw [show Draft.blank.pushAll (Minifier.ofSettings {}).options
      [.documentStart, .elementOpen "html".toList [], .characters "a ".toList] =
        .ok (some ⟨[.startTag "html".toList [], .doctype], "a ".toList, ["html".toList],
          .startTag "html".toList⟩) from rfl] at taken
    exact (Option.some.inj (Except.ok.inj taken)).symm
  rw [stands]
  decide

/-- Directly in `html` the space behind a word is lost if a comment stands between them, and the
word is joined with what follows. -/
theorem minifyEvents_comment_joins_words :
    let earlier := [.documentStart, .elementOpen "html".toList [], .characters "a".toList]
    let later := [.characters " ".toList, .elementOpen "b".toList [], .characters "b".toList,
      .elementClose "b".toList, .elementClose "html".toList]
    isConditional "c".toList = false ∧ (∀ event ∈ earlier ++ later, '&' ∉ addedText event) ∧
      (Minifier.ofSettings {}).minifyEvents (earlier ++ .comment "c".toList :: later) =
        .ok "<!doctype html>a<b>b</b>".toList ∧
      (Minifier.ofSettings {}).minifyEvents (earlier ++ later) =
        .ok "<!doctype html>a <b>b</b>".toList := by
  decide +kernel

end HtmlMinifier.Minifier

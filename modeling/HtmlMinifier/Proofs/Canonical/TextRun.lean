/-
# Runs of text that are written already

A run of text fits a place if normalizing it there changes nothing. Fitting runs are what a writer
leaves behind: a run may be written in several parts, because a comment between two texts is
dropped, and blanks may be cut off its end, and it fits all the same. So a run that is read back
whole is written as it was.
-/
import HtmlMinifier.Proofs.Canonical.Written
import HtmlMinifier.Proofs.Reference.Encoded

namespace HtmlMinifier.Canonical

/-! ## Runs of blanks -/

/-- Whether a space may be written behind a text, if `keep` says whether one may be at its
front. -/
def keepBehind (keep : Bool) (text : Text) : Bool :=
  if text = [] then keep else !Text.endsBlank text

@[simp]
theorem keepBehind_nil (keep : Bool) : keepBehind keep [] = keep := rfl

/-- Only what is written last decides whether a space may follow. -/
theorem keepBehind_append (keep : Bool) (first second : Text) :
    keepBehind keep (first ++ second) = keepBehind (keepBehind keep first) second := by
  by_cases none : second = []
  · rw [none, List.append_nil, keepBehind_nil]
  · have some : first ++ second ≠ [] := by simp [none]
    rw [keepBehind, keepBehind, if_neg none, if_neg some, Text.endsBlank_append none]

theorem keepBehind_cons (keep : Bool) (c : Char) (text : Text) :
    keepBehind keep (c :: text) = keepBehind (!Text.isBlank c) text :=
  keepBehind_append keep [c] text

theorem collapse_cons_of_blank {c : Char} (blank : Text.isBlank c = true) (keep : Bool)
    (text : Text) :
    collapse keep (c :: text) = if keep then ' ' :: collapse false text else collapse false
    text := by
  rw [collapse, if_pos blank]

theorem collapse_cons_of_not_blank {c : Char} (solid : Text.isBlank c = false) (keep : Bool)
    (text : Text) : collapse keep (c :: text) = c :: collapse true text := by
  rw [collapse, if_neg (by rw [solid]; exact Bool.false_ne_true)]

/-- A text without blanks is left alone. -/
theorem collapse_of_solid (keep : Bool) {text : Text}
    (solid : ∀ c ∈ text, Text.isBlank c = false) :
    collapse keep text = text := by
  induction text generalizing keep with
  | nil => rfl
  | cons c text ih =>
      rw [collapse_cons_of_not_blank (solid c List.mem_cons_self),
        ih true fun d inside => solid d (List.mem_cons_of_mem c inside)]

/-- Two texts are collapsed together as they are one after the other. -/
theorem collapse_append (keep : Bool) (first second : Text) :
    collapse keep (first ++ second) =
      collapse keep first ++ collapse (keepBehind keep (collapse keep first)) second := by
  induction first generalizing keep with
  | nil => rfl
  | cons c first ih =>
      cases blank : Text.isBlank c with
      | true =>
          rw [List.cons_append, collapse_cons_of_blank blank, collapse_cons_of_blank blank, ih]
          cases keep with
          | true => rw [if_pos rfl, if_pos rfl, keepBehind_cons]; rfl
          | false => rfl
      | false =>
          rw [List.cons_append, collapse_cons_of_not_blank blank, collapse_cons_of_not_blank blank,
            ih,
            keepBehind_cons, blank]
          rfl

/-- Behind something that is no blank a space may be written. -/
theorem collapse_solid_append (keep : Bool) {word : Text} (some : word ≠ [])
    (solid : ∀ c ∈ word, Text.isBlank c = false) (rest : Text) :
    collapse keep (word ++ rest) = word ++ collapse true rest := by
  rw [collapse_append, collapse_of_solid keep solid, keepBehind, if_neg some,
    Text.endsBlank_of_solid solid]
  rfl

/-- Collapsing twice is collapsing once. -/
@[simp]
theorem collapse_collapse (keep : Bool) (text : Text) :
    collapse keep (collapse keep text) = collapse keep text := by
  induction text generalizing keep with
  | nil => rfl
  | cons c text ih =>
      cases blank : Text.isBlank c with
      | true =>
          rw [collapse_cons_of_blank blank]
          cases keep with
          | true => rw [if_pos rfl, collapse_cons_of_blank (by decide), if_pos rfl, ih]
          | false => exact ih false
      | false => rw [collapse_cons_of_not_blank blank, collapse_cons_of_not_blank blank, ih]

theorem length_collapse_le (keep : Bool) (text : Text) :
    (collapse keep text).length ≤ text.length := by
  induction text generalizing keep with
  | nil => exact Nat.le_refl 0
  | cons c text ih =>
      cases blank : Text.isBlank c with
      | true =>
          have shorter := ih false
          rw [collapse_cons_of_blank blank, List.length_cons]
          cases keep with
          | true => rw [if_pos rfl, List.length_cons]; omega
          | false => exact Nat.le_succ_of_le shorter
      | false =>
          have shorter := ih true
          rw [collapse_cons_of_not_blank blank, List.length_cons, List.length_cons]
          omega

/-- The front part of a collapsed text is collapsed. -/
theorem collapse_eq_self_of_append {keep : Bool} {first second : Text}
    (whole : collapse keep (first ++ second) = first ++ second) : collapse keep first = first := by
  rw [collapse_append] at whole
  have total := congrArg List.length whole
  have shorterFirst := length_collapse_le keep first
  have shorterSecond := length_collapse_le (keepBehind keep (collapse keep first)) second
  rw [List.length_append, List.length_append] at total
  exact (List.append_inj whole (by omega)).1

/-- All that may be kept is a space at the front. -/
theorem collapse_true (text : Text) :
    collapse true text = (if Text.startsBlank text then [' '] else []) ++ collapse false text := by
  cases text with
  | nil => rfl
  | cons c text =>
      cases blank : Text.isBlank c with
      | true =>
          rw [collapse_cons_of_blank blank, collapse_cons_of_blank blank,
            Text.startsBlank_cons, blank]
          rfl
      | false =>
          rw [collapse_cons_of_not_blank blank, collapse_cons_of_not_blank blank,
            Text.startsBlank_cons,
            blank]
          rfl

/-- Without a space at the front, nothing is left of blanks alone, and what is left of any other
text begins with no blank. -/
theorem collapse_false_eq_nil_iff {text : Text} :
    collapse false text = [] ↔ text.all Text.isBlank = true := by
  induction text with
  | nil => exact ⟨fun _ => rfl, fun _ => rfl⟩
  | cons c text ih =>
      rw [List.all_cons]
      cases blank : Text.isBlank c with
      | true => rw [collapse_cons_of_blank blank, if_neg Bool.false_ne_true, Bool.true_and, ih]
      | false => simp [collapse_cons_of_not_blank blank]

/-- One space is left of blanks where a space at the front is kept. -/
theorem collapse_true_of_blank {text : Text} (blank : text.all Text.isBlank = true)
    (some : text ≠ []) :
    collapse true text = [' '] := by
  obtain ⟨c, later, rfl⟩ := List.exists_cons_of_ne_nil some
  have isBlank : Text.isBlank c = true := List.all_eq_true.1 blank c List.mem_cons_self
  rw [collapse_true, collapse_false_eq_nil_iff.2 blank, Text.startsBlank_cons, isBlank]
  rfl

theorem startsBlank_collapse_false (text : Text) :
    Text.startsBlank (collapse false text) = false := by
  induction text with
  | nil => rfl
  | cons c text ih =>
      cases blank : Text.isBlank c with
      | true => rw [collapse_cons_of_blank blank, if_neg Bool.false_ne_true, ih]
      | false => rw [collapse_cons_of_not_blank blank, Text.startsBlank_cons, blank]

@[simp]
theorem all_isBlank_collapse (keep : Bool) (text : Text) :
    (collapse keep text).all Text.isBlank = text.all Text.isBlank := by
  induction text generalizing keep with
  | nil => rfl
  | cons c text ih =>
      cases blank : Text.isBlank c with
      | true =>
          rw [collapse_cons_of_blank blank, List.all_cons, blank, Bool.true_and]
          cases keep with
          | true => rw [if_pos rfl, List.all_cons, ih]; rfl
          | false => exact ih false
      | false => rw [collapse_cons_of_not_blank blank, List.all_cons, List.all_cons, blank]; rfl

/-- Something is written of a text that is not blank. -/
theorem encode_collapse_ne_nil (keep : Bool) {text : Text}
    (solid : text.all Text.isBlank = false) :
    Reference.encode (collapse keep text) ≠ [] := by
  intro none
  have allBlank := Reference.all_isBlank_encode (collapse keep text)
  rw [none, all_isBlank_collapse, solid] at allBlank
  cases allBlank

/-- Unless it is blank, a text ends with a blank exactly if it does when it is collapsed. -/
theorem endsBlank_collapse (keep : Bool) {text : Text} (solid : text.all Text.isBlank = false) :
    Text.endsBlank (collapse keep text) = Text.endsBlank text := by
  induction text using List.reverseRecOn with
  | nil => cases solid
  | append_singleton front c ih =>
      rw [collapse_append, Text.endsBlank_concat]
      cases blank : Text.isBlank c with
      | false => rw [collapse_cons_of_not_blank blank, collapse, Text.endsBlank_concat, blank]
      | true =>
          rw [collapse_cons_of_blank blank, collapse]
          have some : collapse keep front ≠ [] := by
            rintro vanishes
            have front := all_isBlank_collapse keep front
            rw [vanishes] at front
            rw [List.all_append, ← front, List.all_cons, blank] at solid
            cases solid
          cases keeps : keepBehind keep (collapse keep front) with
          | true => rw [if_pos rfl, Text.endsBlank_concat]; rfl
          | false =>
              rw [keepBehind, if_neg some, Bool.not_eq_false'] at keeps
              rw [if_neg Bool.false_ne_true, List.append_nil, keeps]

/-- Blanks are collapsed alike before and after the rest is written. -/
theorem collapse_encode (keep : Bool) (plain : Text) :
    collapse keep (Reference.encode plain) = Reference.encode (collapse keep plain) := by
  induction plain generalizing keep with
  | nil => rfl
  | cons c plain ih =>
      rw [Reference.encode, List.flatMap_cons, ← Reference.encode]
      cases blank : Text.isBlank c with
      | true =>
          rw [Reference.encodeChar_of_isBlank blank, List.singleton_append,
            collapse_cons_of_blank blank, collapse_cons_of_blank blank, ih]
          cases keep with
          | true => rfl
          | false => rfl
      | false =>
          obtain ⟨some, solid⟩ := Reference.encodeChar_of_not_isBlank blank
          rw [collapse_solid_append keep some solid, ih, collapse_cons_of_not_blank blank]
          rfl

theorem isEncoded_collapse {text : Text} (encoded : Reference.IsEncoded text) (keep : Bool) :
    Reference.IsEncoded (collapse keep text) := by
  obtain ⟨plain, rfl⟩ := encoded
  exact ⟨collapse keep plain, collapse_encode keep plain⟩

/-! ## Runs that fit -/

namespace Place

/-- Whether a run of text is written at a place as it is. -/
def Fits (place : Place) (run : Text) : Prop := place.normalize run = run

/-- The same place behind a run of text that was written there. -/
def behind (place : Place) (run : Text) : Place := ⟨place.ancestors, place.tail.behind run⟩

@[simp]
theorem behind_nil (place : Place) : place.behind [] = place := rfl

theorem fits_nil (place : Place) : place.Fits [] := place.normalize_nil

theorem keepsLeadingSpace_behind (place : Place) (run : Text) :
    (place.behind run).keepsLeadingSpace = keepBehind place.keepsLeadingSpace run := by
  by_cases none : run = []
  · rw [none, behind_nil, keepBehind_nil]
  · rw [behind, Tail.behind, keepBehind, if_neg none, if_neg none]
    rfl

/-- Text that is not markup keeps its white space. -/
theorem inPreformatted_of_inRawText {place : Place} (raw : place.inRawText = true) :
    place.inPreformatted = true := by
  unfold inRawText current? at raw
  unfold inPreformatted
  cases around : place.ancestors with
  | nil =>
      rw [around] at raw
      exact absurd raw Bool.false_ne_true
  | cons current outer =>
      rw [around] at raw
      rw [List.any_cons, Element.isPreformatted_of_isRawText raw, Bool.true_or]

/-- Directly in an element whose text is not markup every run fits. -/
theorem fits_of_inRawText {place : Place} (raw : place.inRawText = true) (run : Text) :
    place.Fits run := by
  rw [Fits, normalize, if_pos raw]

theorem normalize_of_inPreformatted {place : Place} (markup : place.inRawText = false)
    (pre : place.inPreformatted = true) (text : Text) :
    place.normalize text = Reference.normalize text := by
  rw [normalize, markup, pre, if_neg Bool.false_ne_true, if_pos rfl]

/-- Where white space is content, the runs that fit are the encoded ones. -/
theorem fits_iff_of_inPreformatted {place : Place} (markup : place.inRawText = false)
    (pre : place.inPreformatted = true) {run : Text} :
    place.Fits run ↔ Reference.IsEncoded run := by
  rw [Fits, normalize_of_inPreformatted markup pre]
  constructor
  · intro same
    rw [← same]
    exact Reference.isEncoded_normalize run
  · exact Reference.IsEncoded.normalize_eq

/-- Whether a run would be dropped for being nothing but blanks. -/
def drops (place : Place) (run : Text) : Bool := place.inSkeleton && run.all Text.isBlank

theorem normalize_of_flowing {place : Place} (flowing : place.inPreformatted = false)
    (text : Text) :
    place.normalize text =
      if place.drops (collapse place.keepsLeadingSpace (Reference.normalize text)) then []
      else collapse place.keepsLeadingSpace (Reference.normalize text) := by
  have markup : place.inRawText = false := by
    cases raw : place.inRawText with
    | false => rfl
    | true => rw [← flowing, inPreformatted_of_inRawText raw]
  rw [normalize, markup, flowing, if_neg Bool.false_ne_true, if_neg Bool.false_ne_true]
  rfl

/-- Elsewhere the runs that fit are encoded and collapsed, and in the skeleton of a document they
are not blank. -/
theorem fits_iff_of_flowing {place : Place} (flowing : place.inPreformatted = false) {run : Text} :
    place.Fits run ↔
      Reference.IsEncoded run ∧ collapse place.keepsLeadingSpace run = run ∧
        (place.drops run = true → run = []) := by
  rw [Fits, normalize_of_flowing flowing]
  constructor
  · intro same
    split at same
    · rw [← same]
      exact ⟨Reference.isEncoded_nil, rfl, fun _ => rfl⟩
    · next stays =>
        have encoded : Reference.IsEncoded run := by
          rw [← same]
          exact isEncoded_collapse (Reference.isEncoded_normalize run) _
        rw [encoded.normalize_eq] at same stays
        rw [same] at stays
        exact ⟨encoded, same, fun drops => absurd drops stays⟩
  · rintro ⟨encoded, collapsed, vanishes⟩
    rw [encoded.normalize_eq, collapsed]
    split
    · next drops => exact (vanishes drops).symm
    · rfl

/-- A run that fits goes on fitting when the normal form of more text is written behind it. -/
theorem fits_append_normalize {place : Place} {run : Text} (fits : place.Fits run) (text : Text) :
    place.Fits (run ++ (place.behind run).normalize text) := by
  cases raw : place.inRawText with
  | true => exact fits_of_inRawText raw _
  | false =>
      cases pre : place.inPreformatted with
      | true =>
          rw [fits_iff_of_inPreformatted raw pre] at fits ⊢
          rw [@normalize_of_inPreformatted (place.behind run) raw pre text]
          exact fits.append (Reference.isEncoded_normalize text)
      | false =>
          have whole := fits
          rw [fits_iff_of_flowing pre] at fits
          obtain ⟨encoded, collapsed, _⟩ := fits
          rw [@normalize_of_flowing (place.behind run) pre text, keepsLeadingSpace_behind]
          split
          · rw [List.append_nil]
            exact whole
          · next stays =>
              rw [fits_iff_of_flowing pre]
              refine ⟨encoded.append (isEncoded_collapse (Reference.isEncoded_normalize text) _),
                ?_,
                fun drops => ?_⟩
              · rw [collapse_append, collapsed, collapse_collapse]
              · -- The part behind is not blank in the skeleton, so the whole is not either.
                exfalso
                apply stays
                rw [Place.drops, Bool.and_eq_true, List.all_append, Bool.and_eq_true] at drops
                exact Bool.and_eq_true_iff.2 ⟨drops.1, drops.2.2⟩

/-- The normal form of a text fits. -/
theorem fits_normalize (place : Place) (text : Text) : place.Fits (place.normalize text) :=
  fits_append_normalize place.fits_nil text

/-- Where white space is no content, a run that fits still does when its end is trimmed. -/
theorem fits_trimEnd {place : Place} (flowing : place.inPreformatted = false) {run : Text}
    (fits : place.Fits run) : place.Fits (Text.trimEnd run) := by
  rw [fits_iff_of_flowing flowing] at fits ⊢
  obtain ⟨encoded, collapsed, vanishes⟩ := fits
  obtain ⟨blanks, parts, blank⟩ := Text.exists_trimEnd_append run
  refine ⟨encoded.trimEnd, ?_, fun drops => ?_⟩
  · rw [parts] at collapsed
    exact collapse_eq_self_of_append collapsed
  · obtain ⟨skeleton, allBlank⟩ := Bool.and_eq_true_iff.1 drops
    have whole : place.drops run = true := by
      rw [Place.drops, skeleton, parts, List.all_append, allBlank, List.all_eq_true.2 blank]
      rfl
    rw [vanishes whole]
    rfl

/-- Where no element around has raw text, text is markup. -/
theorem inRawText_of_markup {place : Place}
    (markup : ∀ name ∈ place.ancestors, Element.isRawText name = false) :
    place.inRawText = false := by
  unfold inRawText current?
  cases around : place.ancestors with
  | nil => rfl
  | cons current outer =>
      rw [around] at markup
      exact markup current List.mem_cons_self

/-- A run that fits where text is markup is encoded. -/
theorem Fits.isEncoded {place : Place} {run : Text} (fits : place.Fits run)
    (markup : place.inRawText = false) : Reference.IsEncoded run := by
  cases pre : place.inPreformatted with
  | true => exact (fits_iff_of_inPreformatted markup pre).1 fits
  | false => exact ((fits_iff_of_flowing pre).1 fits).1

/-- A run that fits where text is markup has no bracket. -/
theorem Fits.ne_bracket {place : Place} {run : Text} (fits : place.Fits run)
    (markup : place.inRawText = false) : ∀ c ∈ run, c ≠ '<' :=
  (fits.isEncoded markup).ne_bracket

end Place

/-! ## Runs that go on -/

/-- A writer that stands behind a run, which began at a place behind what is called the core. What
is written next may go on the run. -/
structure Writer.Stands (writer : Writer) (core run : Text) (place : Place) : Prop where
  written : writer.written = core ++ run
  fits : place.Fits run
  stack : writer.stack = place.ancestors
  tail : writer.tail = place.tail.behind run

namespace Writer.Stands

variable {writer : Writer} {core run : Text} {place : Place}

theorem place_eq (stands : writer.Stands core run place) : writer.place = place.behind run := by
  rw [Writer.place, stands.stack, stands.tail, Place.behind]

/-- Waiting text goes on the run. -/
theorem flush (stands : writer.Stands core run place) :
    writer.flush.Stands core (run ++ writer.place.normalize writer.pending) place where
  written := by rw [Writer.written_flush, stands.written, List.append_assoc]
  fits := by
    rw [stands.place_eq]
    exact Place.fits_append_normalize stands.fits writer.pending
  stack := by rw [Writer.flush_stack, stands.stack]
  tail := by rw [Writer.flush_tail, stands.tail, Tail.behind_append]

end Writer.Stands

end HtmlMinifier.Canonical

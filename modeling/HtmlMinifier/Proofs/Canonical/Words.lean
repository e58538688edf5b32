/-
# The words of a run

The words of a text are its longest pieces without a blank. Where white space is no content, a run
is written as its words with one space between any two of them. A space is put in front where the
text begins with a blank and the place keeps it, and behind where the text ends with a blank. A run
without words is at most one space, and none directly in `html` or `head`.

Normalizing was defined character by character; here it is computed from the words. Nothing changes
when a normalized run is normalized again at the same place.
-/
import HtmlMinifier.Proofs.Canonical.TextRun

namespace HtmlMinifier.Text

/-- The longest pieces of a text that have no blank in them, in order. -/
def words (text : Text) : List Text := (text.splitOnP isBlank).filter (· ≠ [])

@[simp]
theorem words_nil : words [] = [] := rfl

/-- A blank stands between words. -/
theorem words_append_blank {c : Char} (blank : isBlank c = true) (first second : Text) :
    words (first ++ c :: second) = words first ++ words second := by
  rw [words, List.splitOnP_append_cons first second blank, List.filter_append, ← words, ← words]

/-- A text without blanks is one word, unless it is empty. -/
theorem words_of_solid {text : Text} (some : text ≠ []) (solid : ∀ c ∈ text, isBlank c = false) :
    words text = [text] := by
  rw [words, List.splitOnP_eq_singleton solid, List.filter_cons_of_pos (by simpa using some),
    List.filter_nil]

/-- A text is a piece without blanks, or such a piece with a blank and a text behind it. -/
theorem words_induction {motive : Text → Prop}
    (last : ∀ word, (∀ c ∈ word, isBlank c = false) → motive word)
    (step : ∀ word c rest, (∀ d ∈ word, isBlank d = false) → isBlank c = true → motive rest →
      motive (word ++ c :: rest)) (text : Text) : motive text := by
  -- What has been read of the first word stands in front of the text that is looked at.
  have withWord : ∀ word : Text, (∀ c ∈ word, isBlank c = false) → motive (word ++ text) := by
    induction text with
    | nil =>
        intro word solid
        rw [List.append_nil]
        exact last word solid
    | cons c text ih =>
        intro word solid
        cases blank : isBlank c with
        | true => exact step word c text solid blank (ih [] (by simp))
        | false =>
            have longer := ih (word ++ [c]) fun d inside => by
              rcases List.mem_append.1 inside with earlier | last
              · exact solid d earlier
              · rwa [List.mem_singleton.1 last]
            rwa [List.append_assoc, List.singleton_append] at longer
  exact withWord [] (by simp)

/-- A text has no words if it is nothing but blanks. -/
theorem words_eq_nil_iff (text : Text) : words text = [] ↔ text.all isBlank = true := by
  have ofWord : ∀ word : Text, (∀ c ∈ word, isBlank c = false) →
      (words word = [] ↔ word.all isBlank = true) := by
    intro word solid
    cases word with
    | nil => simp
    | cons c word =>
        rw [words_of_solid (List.cons_ne_nil c word) solid, List.all_cons,
          solid c List.mem_cons_self]
        simp
  induction text using words_induction with
  | last word solid => exact ofWord word solid
  | step word c rest solid blank ih =>
      rw [words_append_blank blank, List.append_eq_nil_iff, List.all_append, List.all_cons, blank,
        Bool.true_and, Bool.and_eq_true]
      exact and_congr (ofWord word solid) ih

/-- Unless it is empty, a text of blanks ends with one. -/
theorem endsBlank_of_blank {text : Text} (some : text ≠ []) (blank : text.all isBlank = true) :
    endsBlank text = true := by
  rw [endsBlank, List.getLast?_eq_some_getLast some, Option.any_some]
  exact List.all_eq_true.1 blank _ (List.getLast_mem some)

/-- Behind a blank, a text ends as it does by itself if it has words. -/
theorem endsBlank_cons_of_blank {c : Char} (blank : isBlank c = true) (text : Text) :
    endsBlank (c :: text) = if words text = [] then true else endsBlank text := by
  split
  · next none =>
      have whole : (c :: text).all isBlank = true := by
        rw [List.all_cons, blank, (words_eq_nil_iff text).1 none]
        rfl
      exact endsBlank_of_blank (List.cons_ne_nil c text) whole
  · next some =>
      have nonempty : text ≠ [] := by
        rintro rfl
        exact some words_nil
      rw [← List.singleton_append, endsBlank_append nonempty]

end HtmlMinifier.Text

namespace HtmlMinifier.Canonical

/-! ## Blanks and words -/

/-- Without a space at the front, a text is collapsed to its words with one space between them, and
one behind them if the text ends with a blank. -/
theorem collapse_false_eq_words (text : Text) :
    collapse false text = [' '].intercalate (Text.words text) ++
      if Text.words text ≠ [] ∧ Text.endsBlank text = true then [' '] else [] := by
  induction text using Text.words_induction with
  | last word solid =>
      by_cases none : word = []
      · rw [none]
        rfl
      · rw [collapse_of_solid false solid, Text.words_of_solid none solid,
          List.intercalate_singleton,
          Text.endsBlank_of_solid solid, if_neg (by simp), List.append_nil]
  | step word c rest solid blank ih =>
      beta_reduce at ih
      rw [Text.words_append_blank blank, Text.endsBlank_append (List.cons_ne_nil c rest),
        Text.endsBlank_cons_of_blank blank]
      by_cases none : word = []
      · rw [none, List.nil_append, collapse_cons_of_blank blank, if_neg Bool.false_ne_true,
          Text.words_nil, List.nil_append, ih]
        by_cases noWords : Text.words rest = []
        · simp [noWords]
        · simp [noWords]
      · rw [collapse_solid_append false none solid, collapse_cons_of_blank blank, if_pos rfl,
          Text.words_of_solid none solid, List.singleton_append, ih]
        by_cases noWords : Text.words rest = []
        · simp [noWords]
        · simp [noWords, List.intercalate_cons_of_ne_nil noWords]

/-- The words of a text with one space between any two of them. A space is put in front where the
text begins with a blank and `keep` says that it may be, and behind where the text ends with a
blank. -/
def spread (keep : Bool) (text : Text) : Text :=
  (if Text.startsBlank text = true ∧ keep = true then [' '] else []) ++
    [' '].intercalate (Text.words text) ++ if Text.endsBlank text = true then [' '] else []

/-- A text that has words is collapsed to them. -/
theorem collapse_eq_spread (keep : Bool) {text : Text} (some : Text.words text ≠ []) :
    collapse keep text = spread keep text := by
  have collapsed := collapse_false_eq_words text
  simp only [some, ne_eq, not_false_eq_true, true_and] at collapsed
  cases keep with
  | false => simp [spread, collapsed]
  | true => simp [spread, collapse_true, collapsed]

/-- Of blanks alone a space is left if it may be put in front. -/
theorem collapse_of_no_words (keep : Bool) {text : Text} (none : Text.words text = []) :
    collapse keep text = if text ≠ [] ∧ keep = true then [' '] else [] := by
  have blank := (Text.words_eq_nil_iff text).1 none
  cases keep with
  | false => rw [collapse_false_eq_nil_iff.2 blank, if_neg (by simp)]
  | true =>
      by_cases empty : text = []
      · rw [empty]
        rfl
      · rw [collapse_true_of_blank blank empty, if_pos ⟨empty, rfl⟩]

/-! ## Normalized runs -/

namespace Place

theorem inRawText_iff (place : Place) :
    place.inRawText = true ↔ ∃ name ∈ Element.rawTextNames, place.current? = some name := by
  rw [inRawText, Option.any_eq_true]
  simp [Element.isRawText, and_comm]

theorem inPreformatted_iff (place : Place) :
    place.inPreformatted = true ↔ ∃ name ∈ place.ancestors, name ∈ Element.preformattedNames := by
  simp [inPreformatted, Element.isPreformatted]

theorem inSkeleton_iff (place : Place) :
    place.inSkeleton = true ↔ ∃ name ∈ Element.skeletonNames, place.current? = some name := by
  rw [inSkeleton, Option.any_eq_true]
  simp [Element.isSkeleton, and_comm]

/-- Where white space is no content, a run that has words is written as its words. -/
theorem normalize_of_words {place : Place} (flowing : place.inPreformatted = false) {text : Text}
    (some : Text.words (Reference.normalize text) ≠ []) :
    place.normalize text = spread place.keepsLeadingSpace (Reference.normalize text) := by
  have stays : place.drops (collapse place.keepsLeadingSpace (Reference.normalize text)) =
      false := by
    rw [Ne, Text.words_eq_nil_iff, Bool.not_eq_true] at some
    rw [drops, all_isBlank_collapse, some, Bool.and_false]
  rw [normalize_of_flowing flowing, stays, if_neg Bool.false_ne_true, collapse_eq_spread _ some]

/-- Where white space is no content, a run without words is one space or nothing. -/
theorem normalize_of_no_words {place : Place} (flowing : place.inPreformatted = false)
    {text : Text}
    (none : Text.words (Reference.normalize text) = []) :
    place.normalize text =
      if Reference.normalize text ≠ [] ∧ place.keepsLeadingSpace = true ∧ ¬place.inSkeleton =
      true then
        [' ']
      else [] := by
  have drops : place.drops (collapse place.keepsLeadingSpace (Reference.normalize text)) =
      place.inSkeleton := by
    rw [Place.drops, all_isBlank_collapse, (Text.words_eq_nil_iff _).1 none, Bool.and_true]
  rw [normalize_of_flowing flowing, drops, collapse_of_no_words _ none]
  cases place.inSkeleton with
  | true => simp
  | false => simp

/-- A normalized run is normalized for good. Directly in an element of raw text a run is left
alone, and under an element that keeps its white space it only has its references written anew.
Elsewhere it is written as its words, and as one space or as nothing if it has none. -/
theorem normalize_by_words (place : Place) (text : Text) :
    place.normalize (place.normalize text) = place.normalize text ∧
    place.normalize text =
      if ∃ name ∈ Element.rawTextNames, place.current? = some name then text
      else if ∃ name ∈ place.ancestors, name ∈ Element.preformattedNames then
      Reference.normalize text
      else if Text.words (Reference.normalize text) ≠ [] then
        spread place.keepsLeadingSpace (Reference.normalize text)
      else if Reference.normalize text ≠ [] ∧ place.keepsLeadingSpace = true ∧
          ¬∃ name ∈ Element.skeletonNames, place.current? = some name then [' ']
      else [] := by
  refine ⟨place.fits_normalize text, ?_⟩
  cases raw : place.inRawText with
  | true =>
      rw [if_pos (place.inRawText_iff.1 raw)]
      exact fits_of_inRawText raw text
  | false =>
      rw [if_neg (by rw [← inRawText_iff, raw]; exact Bool.false_ne_true)]
      cases pre : place.inPreformatted with
      | true => rw [if_pos (place.inPreformatted_iff.1 pre), normalize_of_inPreformatted raw pre]
      | false =>
          rw [if_neg (by rw [← inPreformatted_iff, pre]; exact Bool.false_ne_true)]
          split
          · next some => exact normalize_of_words pre some
          · next none =>
              rw [normalize_of_no_words pre (not_not.1 none)]
              exact if_congr (by rw [inSkeleton_iff]) rfl rfl

end Place

end HtmlMinifier.Canonical

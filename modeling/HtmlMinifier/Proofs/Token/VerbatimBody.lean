/-
# Verbatim bodies are read exactly

Behind the start tag of a verbatim element, a body is read whole exactly if no end tag of the
element stands in it. Something that only looks like its end tag does not end the body, and the
beginning of an end tag at the end of the body does not hide the end tag that follows. Without an
end tag the body is all that is left, and its end tag is read all the same.
-/
import HtmlMinifier.Proofs.Token.Segment
import Mathlib.Data.List.Infix

namespace HtmlMinifier.Token

/-- Whether an end tag of an element stands in a text. -/
def HasEndTagOf (name text : Text) : Prop :=
  ∃ before mark behind, IsEndTagOf name mark ∧ text = before ++ mark ++ behind

/-- Where no end tag can be dropped, none stands. -/
theorem avoidsEndTag_iff {name : Text} (named : IsTagName name) (body : Text) :
    AvoidsEndTag name body ↔ ¬HasEndTagOf name body := by
  have recognizes := recognizes_endTag named
  constructor
  · rintro avoids ⟨before, mark, behind, isEndTag, rfl⟩
    have found := (recognizes.drop_iff (mark ++ behind) behind).2 ⟨mark, isEndTag, rfl⟩
    rw [avoids (mark ++ behind) ⟨before, by rw [List.append_assoc]⟩] at found
    cases found
  · rintro noEndTag suffix ⟨before, parts⟩
    cases found : dropEndTag? name suffix with
    | none => rfl
    | some behind =>
        obtain ⟨mark, isEndTag, same⟩ := (recognizes.drop_iff suffix behind).1 found
        exact absurd ⟨before, mark, behind, isEndTag, by rw [← parts, same, List.append_assoc]⟩
          noEndTag

/-- Nowhere in a text means in none of its tails. -/
instance (name body : Text) : Decidable (AvoidsEndTag name body) :=
  decidable_of_iff (∀ suffix ∈ body.tails, dropEndTag? name suffix = none) (by
    simp only [List.mem_tails, AvoidsEndTag])

/-- A body without an end tag is read up to the end of the text. -/
theorem readVerbatim_of_avoids {name body : Text} (avoids : AvoidsEndTag name body) :
    readVerbatim name body = (body, []) := by
  induction body with
  | nil => rfl
  | cons c body ih =>
      rw [readVerbatim, avoids (c :: body) List.suffix_rfl]
      simp only
      rw [ih fun suffix inside => avoids suffix (inside.trans (List.suffix_cons c body))]

/-- The names of verbatim elements are names of tags. -/
theorem isTagName_of_mem_verbatimNames {name : Text} (isVerbatim : name ∈ Element.verbatimNames) :
    IsTagName name := by
  simp only [Element.verbatimNames, List.map_cons, List.map_nil, List.mem_cons, List.not_mem_nil,
    or_false] at isVerbatim
  rcases isVerbatim with rfl | rfl | rfl | rfl
  all_goals exact ⟨⟨_, _, rfl, by decide⟩, by simp [isNameChar], by decide⟩

/-- Behind the start tag of a verbatim element its body is read. -/
theorem tokenize_startTag_verbatim {name : Text} (isVerbatim : name ∈ Element.verbatimNames)
    (input : Text) :
    tokenize ('<' :: name ++ ['>'] ++ input) =
      .startTag name [] false ::
        ((if (readVerbatim name input).1 = [] then [] else [.text (readVerbatim name input).1]) ++
          .endTag name :: tokenize (readVerbatim name input).2) := by
  have named := isTagName_of_mem_verbatimNames isVerbatim
  have verbatim : Element.isVerbatim name = true := List.contains_iff_mem.2 isVerbatim
  have spelled : IsSpelledName name ('>' :: input) :=
    ⟨named.letter, named.chars, fun c first => by cases first; decide⟩
  have construct := readConstruct_startTag spelled (readAttributes_close input)
  simp only [named.lower, verbatim, isVoid_of_isVerbatim verbatim, Bool.or_false, Bool.not_false,
    Bool.and_true, if_true] at construct
  rw [List.append_assoc, List.singleton_append, List.cons_append,
    tokenize_of_readConstruct (List.cons_ne_nil _ _) construct]
  simp

/-- Only a body itself is shown as it is. -/
theorem body_eq_of_shown {first second : Text} {name : Text} {later others : List Token}
    (same : (if first = [] then [] else [Token.text first]) ++ .endTag name :: later =
      (if second = [] then [] else [Token.text second]) ++ .endTag name :: others) : first =
      second := by
  split at same
  · next none =>
      split at same
      · next noneToo => rw [none, noneToo]
      · cases same
  · split at same
    · cases same
    · cases same
      rfl

/-- A body of a verbatim element is read whole in front of its end tag, and at the end of a text,
exactly if no end tag of the element stands in it. -/
theorem tokenize_verbatim_body {name : Text} (isVerbatim : name ∈ Element.verbatimNames)
    (body : Text) :
    (¬HasEndTagOf name body ↔ ∀ rest,
      tokenize ('<' :: name ++ ['>'] ++ body ++ endTagText name ++ rest) =
        .startTag name [] false ::
          ((if body = [] then [] else [.text body]) ++ .endTag name :: tokenize rest)) ∧
    (¬HasEndTagOf name body ↔
      tokenize ('<' :: name ++ ['>'] ++ body) =
        .startTag name [] false ::
        ((if body = [] then [] else [.text body]) ++ [.endTag name])) := by
  have named := isTagName_of_mem_verbatimNames isVerbatim
  rw [← avoidsEndTag_iff named]
  refine ⟨⟨fun avoids rest => ?_, fun reads => ?_⟩, ⟨fun avoids => ?_, fun reads => ?_⟩⟩
  · have parts : '<' :: name ++ ['>'] ++ body ++ endTagText name ++ rest =
        '<' :: name ++ ['>'] ++ (body ++ (endTagText name ++ rest)) := by simp
    rw [parts, tokenize_startTag_verbatim isVerbatim, readVerbatim_append named avoids]
  · have whole := reads []
    rw [List.append_assoc, List.append_assoc, tokenize_startTag_verbatim isVerbatim] at whole
    have same := body_eq_of_shown (List.cons.inj whole).2
    rw [← same]
    exact avoidsEndTag_readVerbatim name _
  · rw [tokenize_startTag_verbatim isVerbatim, readVerbatim_of_avoids avoids, tokenize]
  · rw [tokenize_startTag_verbatim isVerbatim] at reads
    have same := body_eq_of_shown (List.cons.inj reads).2
    rw [← same]
    exact avoidsEndTag_readVerbatim name _

/-- A longer name does not end a script, and an end tag that is broken off does not hide the next
one. -/
theorem tokenize_verbatim_body_script :
    "script".toList ∈ Element.verbatimNames ∧
      ∀ rest, tokenize ("<script>a<b</scriptx></SCRIPT </script>".toList ++ rest) =
        .startTag "script".toList [] false ::
          .text "a<b</scriptx></SCRIPT ".toList :: .endTag "script".toList :: tokenize rest := by
  have isVerbatim : "script".toList ∈ Element.verbatimNames := by decide
  refine ⟨isVerbatim, (tokenize_verbatim_body isVerbatim "a<b</scriptx></SCRIPT ".toList).1.1 ?_⟩
  rw [← avoidsEndTag_iff (isTagName_of_mem_verbatimNames isVerbatim)]
  decide

end HtmlMinifier.Token

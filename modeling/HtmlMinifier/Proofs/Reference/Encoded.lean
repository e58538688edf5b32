/-
# Encoded text

A text is encoded if it is the written form of some text. Encoded texts are the ones that
normalizing leaves alone; they hold no bracket, and neither joining two of them nor cutting blanks
off the end of one leads out of them.
-/
import HtmlMinifier.Proofs.Reference.Safety
import HtmlMinifier.Proofs.Text.Blanks

namespace HtmlMinifier.Reference

/-- Whether a text is the written form of some text. -/
def IsEncoded (text : Text) : Prop := ∃ plain, text = encode plain

theorem isEncoded_nil : IsEncoded [] := ⟨[], rfl⟩

theorem isEncoded_normalize (text : Text) : IsEncoded (normalize text) := ⟨decode text, rfl⟩

/-- Normalizing leaves alone what is encoded. -/
theorem IsEncoded.normalize_eq {text : Text} (encoded : IsEncoded text) :
    normalize text = text := by
  obtain ⟨plain, rfl⟩ := encoded
  rw [normalize, decode_encode]

theorem IsEncoded.append {first second : Text} (encodedFirst : IsEncoded first)
    (encodedSecond : IsEncoded second) : IsEncoded (first ++ second) := by
  obtain ⟨plainFirst, rfl⟩ := encodedFirst
  obtain ⟨plainSecond, rfl⟩ := encodedSecond
  exact ⟨plainFirst ++ plainSecond, List.flatMap_append.symm⟩

theorem encode_append (first second : Text) :
    encode (first ++ second) = encode first ++ encode second :=
  List.flatMap_append

/-- Text without references is only encoded. -/
theorem normalize_of_plain {text : Text} (plain : '&' ∉ text) : normalize text = encode text := by
  have same : decode text = text := by
    induction text with
    | nil => exact decode_nil
    | cons c text ih =>
        rw [List.mem_cons, not_or] at plain
        rw [decode_cons (Ne.symm plain.1), ih plain.2]
  rw [normalize, same]

/-- Texts without references are normalized one by one. -/
theorem normalize_append {first second : Text} (plain : '&' ∉ first ++ second) :
    normalize (first ++ second) = normalize first ++ normalize second := by
  rw [List.mem_append, not_or] at plain
  rw [normalize_of_plain plain.1, normalize_of_plain plain.2,
    normalize_of_plain (by rw [List.mem_append, not_or]; exact plain), encode_append]

/-! ## Characters of encoded text -/

/-- A blank is written as it is. -/
theorem encodeChar_of_isBlank {c : Char} (blank : Text.isBlank c = true) : encodeChar c = [c] := by
  have differs : ∀ mark : Char, Text.isBlank mark = false → c ≠ mark := by
    rintro mark solid rfl
    rw [blank] at solid
    exact absurd solid Bool.true_eq_false.mp
  rw [encodeChar, if_neg (differs '&' rfl), if_neg (differs '<' rfl), if_neg (differs '>' rfl)]

/-- What is written for a character that is no blank has no blank in it, and is not empty. -/
theorem encodeChar_of_not_isBlank {c : Char} (solid : Text.isBlank c = false) :
    encodeChar c ≠ [] ∧ ∀ d ∈ encodeChar c, Text.isBlank d = false := by
  rcases encodeChar_cases c with listed | ⟨same, _, _⟩
  · -- A reference is spelled without blanks.
    have spelled : ∀ reference ∈ textReferences,
        reference ≠ [] ∧ ∀ d ∈ reference, Text.isBlank d = false := by
      simp [textReferences, Text.isBlank]
    exact spelled _ listed
  · rw [same]
    refine ⟨List.cons_ne_nil c [], fun d inside => ?_⟩
    rw [List.mem_singleton.1 inside, solid]

/-- A text is blank if what is written for it is. -/
@[simp]
theorem all_isBlank_encode (plain : Text) :
    (encode plain).all Text.isBlank = plain.all Text.isBlank := by
  induction plain with
  | nil => rfl
  | cons c plain ih =>
      rw [encode, List.flatMap_cons, ← encode, List.all_append, List.all_cons, ih]
      cases blank : Text.isBlank c with
      | true => rw [encodeChar_of_isBlank blank, List.all_cons, blank]; rfl
      | false =>
          obtain ⟨some, solid⟩ := encodeChar_of_not_isBlank blank
          obtain ⟨d, later, same⟩ := List.exists_cons_of_ne_nil some
          rw [same, List.all_cons, solid d (by rw [same]; exact List.mem_cons_self),
            Bool.false_and,
            Bool.false_and]

/-- A text begins with a blank if what is written for it does. -/
@[simp]
theorem startsBlank_encode (plain : Text) :
    Text.startsBlank (encode plain) = Text.startsBlank plain := by
  cases plain with
  | nil => rfl
  | cons c plain =>
      rw [encode, List.flatMap_cons, ← encode, Text.startsBlank_cons]
      cases blank : Text.isBlank c with
      | true =>
          rw [encodeChar_of_isBlank blank, List.singleton_append, Text.startsBlank_cons, blank]
      | false =>
          obtain ⟨some, solid⟩ := encodeChar_of_not_isBlank blank
          obtain ⟨d, later, same⟩ := List.exists_cons_of_ne_nil some
          rw [same, List.cons_append, Text.startsBlank_cons,
            solid d (by rw [same]; exact List.mem_cons_self)]

/-- No bracket is written. -/
theorem ne_bracket_of_mem_encodeChar {c d : Char} (inside : d ∈ encodeChar c) : d ≠ '<' := by
  rintro rfl
  exact (isSafe_encodeChar c).free '<' (by decide) inside

/-- Encoded text has no bracket. -/
theorem IsEncoded.ne_bracket {text : Text} (encoded : IsEncoded text) : ∀ c ∈ text, c ≠ '<' := by
  obtain ⟨plain, rfl⟩ := encoded
  rintro c inside rfl
  exact (isSafe_encode plain).free '<' (by decide) inside

/-- Cutting blanks off the end of a text and writing it can be done in either order. -/
theorem trimEnd_encode (plain : Text) :
    Text.trimEnd (encode plain) = encode (Text.trimEnd plain) := by
  induction plain using List.reverseRecOn with
  | nil => rfl
  | append_singleton plain c ih =>
      have parts : encode (plain ++ [c]) = encode plain ++ encodeChar c := by
        rw [encode, List.flatMap_append, List.flatMap_singleton, encode]
      rw [parts]
      cases blank : Text.isBlank c with
      | true =>
          rw [encodeChar_of_isBlank blank, Text.trimEnd_concat_of_blank blank,
            Text.trimEnd_concat_of_blank blank, ih]
      | false =>
          obtain ⟨some, solid⟩ := encodeChar_of_not_isBlank blank
          have ends : Text.endsBlank (encode plain ++ encodeChar c) = false := by
            rw [Text.endsBlank_append some, Text.endsBlank_of_solid solid]
          rw [Text.trimEnd_eq_self_iff.2 ends, Text.trimEnd_concat_of_not_blank blank, parts]

/-- A text ends with a blank if what is written for it does. -/
@[simp]
theorem endsBlank_encode (plain : Text) :
    Text.endsBlank (encode plain) = Text.endsBlank plain := by
  rw [Bool.eq_iff_iff, ← Bool.not_eq_false, ← Bool.not_eq_false, not_iff_not,
    ← Text.trimEnd_eq_self_iff, ← Text.trimEnd_eq_self_iff, trimEnd_encode]
  constructor
  · intro same
    rw [← decode_encode (Text.trimEnd plain), same, decode_encode]
  · intro same
    rw [same]

theorem IsEncoded.trimEnd {text : Text} (encoded : IsEncoded text) :
    IsEncoded (Text.trimEnd text) := by
  obtain ⟨plain, rfl⟩ := encoded
  exact ⟨Text.trimEnd plain, trimEnd_encode plain⟩

end HtmlMinifier.Reference

/-
# Decoding undoes encoding

Every reference that is written is one that is known, so decoding a written text gives back the
text that was encoded. Writing a decoded text anew therefore changes nothing more when it is done
twice.
-/
import HtmlMinifier.Proofs.Text.Occurrence
import HtmlMinifier.Reference.Basic

namespace HtmlMinifier.Reference

/-! ## What is written -/

/-- The marks that no text may show. -/
def textMarks : List Char := ['<', '>']

/-- The references that are written for characters of text. -/
def textReferences : List Text := ["&amp;", "&lt;", "&gt;"].map String.toList

/-- The marks that no attribute value may show. -/
def valueMarks : List Char := textMarks ++ ['"', '\'']

/-- The references that are written for characters of an attribute value. -/
def valueReferences : List Text := textReferences ++ ["&quot;", "&#x27;"].map String.toList

/-- A character of text is written as itself or as a reference. -/
theorem encodeChar_cases (c : Char) :
    encodeChar c ∈ textReferences ∨ encodeChar c = [c] ∧ c ≠ '&' ∧ c ∉ textMarks := by
  unfold encodeChar
  split
  · exact .inl (by decide)
  · next noReference =>
      split
      · exact .inl (by decide)
      · next noOpening =>
          split
          · exact .inl (by decide)
          · next noClosing =>
              exact .inr ⟨rfl, noReference, by simp [textMarks, noOpening, noClosing]⟩

/-- A character of an attribute value is written as itself or as a reference. -/
theorem encodeAttributeChar_cases (c : Char) :
    encodeAttributeChar c ∈ valueReferences ∨
      encodeAttributeChar c = [c] ∧ c ≠ '&' ∧ c ∉ valueMarks := by
  unfold encodeAttributeChar
  split
  · exact .inl (by decide)
  · next noDouble =>
      split
      · exact .inl (by decide)
      · next noSingle =>
          rcases encodeChar_cases c with listed | ⟨same, noReference, noMark⟩
          · exact .inl (List.mem_append_left _ listed)
          · exact .inr ⟨same, noReference, by simp [valueMarks, noMark, noDouble, noSingle]⟩

/-! ## What is read back -/

/-- A character that opens no reference stands for itself. -/
theorem decode_cons {c : Char} (plain : c ≠ '&') (input : Text) :
    decode (c :: input) = c :: decode input := by
  rw [decode, if_neg plain]

/-- A known reference is replaced by its character, whatever follows it. -/
theorem decode_reference (body : Text) {c : Char}
    (simple : ∀ d ∈ body, (d != ';' && d != '&') = true) (known : ofBody? body = some c)
    (rest : Text) : decode ('&' :: body ++ ';' :: rest) = c :: decode rest := by
  have stops : ∀ d, (';' :: rest).head? = some d → (d != ';' && d != '&') = false := by
    rintro d same
    cases same
    rfl
  obtain ⟨taken, dropped⟩ := Text.takeWhile_append_of_stops simple stops
  have found : read? (body ++ ';' :: rest) = some (c, rest) := by
    rw [read?, taken, dropped, known]
    rfl
  rw [List.cons_append, decode, if_pos rfl]
  split
  · next decoded behind same =>
      rw [found] at same
      cases same
      rfl
  · next same =>
      rw [found] at same
      exact absurd same (Option.some_ne_none _)

/-- A written character of text is read back. -/
theorem decode_encodeChar_append (c : Char) (rest : Text) :
    decode (encodeChar c ++ rest) = c :: decode rest := by
  unfold encodeChar
  split
  · next same =>
      subst same
      exact decode_reference "amp".toList (by simp) (by decide) rest
  · next plain =>
      split
      · next same =>
          subst same
          exact decode_reference "lt".toList (by simp) (by decide) rest
      · split
        · next same =>
            subst same
            exact decode_reference "gt".toList (by simp) (by decide) rest
        · exact decode_cons plain rest

/-- A written character of an attribute value is read back. -/
theorem decode_encodeAttributeChar_append (c : Char) (rest : Text) :
    decode (encodeAttributeChar c ++ rest) = c :: decode rest := by
  unfold encodeAttributeChar
  split
  · next same =>
      subst same
      exact decode_reference "quot".toList (by simp) (by decide) rest
  · split
    · next same =>
        subst same
        exact decode_reference "#x27".toList (by simp) (by decide) rest
    · exact decode_encodeChar_append c rest

/-- A text that is written character by character is read back as a whole. -/
theorem decode_flatMap {write : Char → Text}
    (each : ∀ c rest, decode (write c ++ rest) = c :: decode rest) (text : Text) :
    decode (text.flatMap write) = text := by
  induction text with
  | nil => rw [List.flatMap_nil, decode]
  | cons c text ih => rw [List.flatMap_cons, each, ih]

@[simp]
theorem decode_encode (text : Text) : decode (encode text) = text :=
  decode_flatMap decode_encodeChar_append text

@[simp]
theorem decode_nil : decode [] = [] := decode_encode []

@[simp]
theorem decode_encodeAttribute (value : Text) : decode (encodeAttribute value) = value :=
  decode_flatMap decode_encodeAttributeChar_append value

/-- Normalizing an attribute value twice is normalizing it once. -/
@[simp]
theorem normalizeAttribute_normalizeAttribute (value : Text) :
    normalizeAttribute (normalizeAttribute value) = normalizeAttribute value := by
  rw [normalizeAttribute, normalizeAttribute, decode_encodeAttribute]

/-- Only of nothing nothing is read. -/
theorem decode_eq_nil_iff {text : Text} : decode text = [] ↔ text = [] := by
  refine ⟨fun none => ?_, fun none => by rw [none, decode_nil]⟩
  cases text with
  | nil => rfl
  | cons c text =>
      rw [decode] at none
      split at none
      · split at none
        · cases none
        · cases none
      · cases none

theorem normalizeAttribute_eq_nil_iff {value : Text} :
    normalizeAttribute value = [] ↔ value = [] := by
  have same : decode (normalizeAttribute value) = decode value :=
    decode_encodeAttribute (decode value)
  rw [← decode_eq_nil_iff, same, decode_eq_nil_iff]

/-- A reference ends with its semicolon, so a slash at the end of a written character is no part of
one. -/
theorem eq_of_getLast?_encodeAttributeChar {c : Char}
    (ends : (encodeAttributeChar c).getLast? = some '/') : c = '/' := by
  rcases encodeAttributeChar_cases c with listed | ⟨same, _, _⟩
  · have closed : ∀ reference ∈ valueReferences, reference.getLast? ≠ some '/' := by decide
    exact absurd ends (closed _ listed)
  · rw [same] at ends
    exact Option.some.inj ends

/-- A written value that ends with a slash is read as another text without it. -/
theorem decode_ne_of_encodeAttribute_eq_concat {text front : Text}
    (written : encodeAttribute text = front ++ ['/']) : decode front ≠ text := by
  rcases List.eq_nil_or_concat text with rfl | ⟨earlier, c, rfl⟩
  · exact absurd written.symm (List.append_ne_nil_of_right_ne_nil front (List.cons_ne_nil _ _))
  · rw [List.concat_eq_append] at written ⊢
    rw [encodeAttribute, List.flatMap_append, List.flatMap_singleton] at written
    have solid : encodeAttributeChar c ≠ [] := by
      intro none
      have read := decode_encodeAttributeChar_append c []
      rw [none, List.nil_append, decode_nil] at read
      cases read
    have ends : (encodeAttributeChar c).getLast? = some '/' := by
      have whole := congrArg List.getLast? written
      rw [List.getLast?_append, List.getLast?_eq_some_getLast solid, Option.some_or,
        List.getLast?_concat] at whole
      rw [List.getLast?_eq_some_getLast solid, whole]
    obtain rfl := eq_of_getLast?_encodeAttributeChar ends
    have same : encodeAttribute earlier = front := List.append_cancel_right written
    rw [← same, decode_encodeAttribute]
    simp

end HtmlMinifier.Reference

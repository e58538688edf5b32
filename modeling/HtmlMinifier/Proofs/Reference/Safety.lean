/-
# Normalized text is safe

What decoding means is stated here without the decoder: a text is read from the left, a reference
is all that stands between `&` and the next `;`, the reading starts anew at an `&` that comes
before the `;`, and what is no known reference is left as it is. The decoder yields the one text
that is read this way.

A text is safe if no mark of the markup stands in it and every `&` in it begins one of a few
references. Normalized text is safe, is read as the text it was made of, and is normalized for
good.
-/
import HtmlMinifier.Proofs.Reference.RoundTrip

namespace HtmlMinifier.Reference

/-! ## What is read -/

/-- Whether a text can stand between the `&` and the `;` of one reference. -/
def IsInside (body : Text) : Prop := ∀ c ∈ body, c ≠ ';' ∧ c ≠ '&'

/-- A text and what it is read as, the first reference first. -/
inductive Decodes : Text → Text → Prop
  | done : Decodes [] []
  | plain {c : Char} {text read : Text} (noReference : c ≠ '&') :
      Decodes text read → Decodes (c :: text) (c :: read)
  | known {body rest read : Text} {c : Char} (inside : IsInside body)
      (found : ofBody? body = some c) :
      Decodes rest read → Decodes ('&' :: body ++ ';' :: rest) (c :: read)
  | unknown {body rest read : Text} (inside : IsInside body) (missing : ofBody? body = none) :
      Decodes rest read → Decodes ('&' :: body ++ ';' :: rest) ('&' :: body ++ ';' :: read)
  | restart {body rest read : Text} (inside : IsInside body) :
      Decodes ('&' :: rest) read → Decodes ('&' :: body ++ '&' :: rest) ('&' :: body ++ read)
  | cut {body : Text} (inside : IsInside body) : Decodes ('&' :: body) ('&' :: body)

/-- The search for the end of a reference stops at the first `;` or `&`. -/
theorem isInside_takeWhile {body : Text} (inside : IsInside body) (rest : Text)
    (stops : ∀ c, rest.head? = some c → c = ';' ∨ c = '&') :
    ((body ++ rest).takeWhile fun c => c != ';' && c != '&') = body ∧
      ((body ++ rest).dropWhile fun c => c != ';' && c != '&') = rest := by
  refine Text.takeWhile_append_of_stops (fun c member => ?_) fun c first => ?_
  · obtain ⟨noEnd, noStart⟩ := inside c member
    simp [noEnd, noStart]
  · rcases stops c first with rfl | rfl
    · rfl
    · rfl

/-- Nothing is replaced in front of the next `&`. -/
theorem decode_append_of_isInside {body : Text} (inside : IsInside body) (rest : Text) :
    decode (body ++ rest) = body ++ decode rest := by
  induction body with
  | nil => rfl
  | cons c body ih =>
      rw [List.cons_append, decode_cons (inside c List.mem_cons_self).2,
        ih fun d member => inside d (List.mem_cons_of_mem c member), List.cons_append]

/-- An `&` that begins no reference is left as it is. -/
theorem decode_of_read?_eq_none {input : Text} (missing : read? input = none) :
    decode ('&' :: input) = '&' :: decode input := by
  rw [decode, if_pos rfl]
  split
  · next found =>
      rw [missing] at found
      cases found
  · rfl

/-- A reference that is not known is left as it is. -/
theorem decode_unknown {body : Text} (inside : IsInside body) (missing : ofBody? body = none)
    (rest : Text) : decode ('&' :: body ++ ';' :: rest) = '&' :: body ++ ';' :: decode rest := by
  obtain ⟨taken, dropped⟩ := isInside_takeWhile inside (';' :: rest) (by simp)
  have none : read? (body ++ ';' :: rest) = none := by
    rw [read?, taken, dropped, missing]
    rfl
  rw [List.cons_append, decode_of_read?_eq_none none, decode_append_of_isInside inside,
    decode_cons (by decide), List.cons_append]

/-- An `&` without a `;` of its own is left as it is. -/
theorem decode_of_no_end {body : Text} (inside : IsInside body) (rest : Text)
    (noEnd : ∀ c, rest.head? = some c → c = '&') :
    decode ('&' :: body ++ rest) = '&' :: body ++ decode rest := by
  obtain ⟨_, dropped⟩ := isInside_takeWhile inside rest fun c first => .inr (noEnd c first)
  have none : read? (body ++ rest) = none := by
    rw [read?, dropped]
    cases rest with
    | nil => rfl
    | cons c rest =>
        rw [noEnd c rfl]
        rfl
  rw [List.cons_append, decode_of_read?_eq_none none, decode_append_of_isInside inside,
    List.cons_append]

/-- What a text is read as is what the decoder yields. -/
theorem Decodes.eq_decode {text read : Text} (decodes : Decodes text read) :
    read = decode text := by
  induction decodes with
  | done => rw [decode_nil]
  | plain noReference _ ih => rw [decode_cons noReference, ih]
  | known inside found _ ih =>
      rw [decode_reference _ (fun c member => by simp [inside c member]) found, ih]
  | unknown inside missing _ ih => rw [decode_unknown inside missing, ih]
  | restart inside _ ih => rw [decode_of_no_end inside _ (by simp), ih]
  | cut inside =>
      have whole := decode_of_no_end inside [] (by simp)
      rw [decode_nil, List.append_nil] at whole
      exact whole.symm

/-- What stands between an `&` and the next mark of a reference, with what follows it. -/
theorem exists_inside (input : Text) :
    ∃ body rest, input = body ++ rest ∧ IsInside body ∧
      (rest = [] ∨ (∃ behind, rest = ';' :: behind) ∨ ∃ behind, rest = '&' :: behind) := by
  refine ⟨input.takeWhile fun c => c != ';' && c != '&', input.dropWhile fun c => c != ';' &&
    c != '&',
    List.takeWhile_append_dropWhile.symm, fun c member => ?_, ?_⟩
  · have kind := List.all_eq_true.1 List.all_takeWhile c member
    simpa using kind
  · have stop := List.head?_dropWhile_not (fun c => c != ';' && c != '&') input
    cases dropped : input.dropWhile fun c => c != ';' && c != '&' with
    | nil => exact .inl rfl
    | cons c behind =>
        rw [dropped] at stop
        by_cases isEnd : c = ';'
        · exact .inr (.inl ⟨behind, by rw [isEnd]⟩)
        · have isStart : c = '&' := by simpa [isEnd] using stop
          exact .inr (.inr ⟨behind, by rw [isStart]⟩)

/-- Every text is read as something. -/
theorem exists_decodes (text : Text) : ∃ read, Decodes text read := by
  induction size : text.length using Nat.strongRecOn generalizing text with
  | ind length ih =>
      cases text with
      | nil => exact ⟨[], .done⟩
      | cons c input =>
          rw [List.length_cons] at size
          by_cases isStart : c = '&'
          · obtain ⟨body, rest, rfl, inside, none | ⟨behind, rfl⟩ | ⟨behind, rfl⟩⟩ :=
              exists_inside input
            · rw [isStart, none, List.append_nil]
              exact ⟨_, .cut inside⟩
            · rw [List.length_append, List.length_cons] at size
              obtain ⟨read, decodes⟩ := ih behind.length (by omega) behind rfl
              rw [isStart]
              cases found : ofBody? body with
              | some d => exact ⟨_, .known inside found decodes⟩
              | none => exact ⟨_, .unknown inside found decodes⟩
            · rw [List.length_append, List.length_cons] at size
              obtain ⟨read, decodes⟩ := ih ('&' :: behind).length
                (by rw [List.length_cons]; omega) ('&' :: behind) rfl
              rw [isStart]
              exact ⟨_, .restart inside decodes⟩
          · obtain ⟨read, decodes⟩ := ih input.length (by omega) input rfl
            exact ⟨_, .plain isStart decodes⟩

/-- The decoder yields the one text that a text is read as. -/
theorem decodes_iff (text read : Text) : Decodes text read ↔ read = decode text := by
  constructor
  · exact Decodes.eq_decode
  · rintro rfl
    obtain ⟨read, decodes⟩ := exists_decodes text
    rwa [← decodes.eq_decode]

/-! ## What is written -/

/-- A text without any of the marks, in which every `&` begins one of the references. -/
structure IsSafe (marks : List Char) (references : List Text) (text : Text) : Prop where
  free : ∀ mark ∈ marks, mark ∉ text
  refers : ∀ before behind, text = before ++ '&' :: behind →
    ∃ reference ∈ references, reference <+: '&' :: behind

namespace IsSafe

variable {marks : List Char} {references : List Text}

theorem nil : IsSafe marks references [] where
  free mark _ := List.not_mem_nil
  refers before behind parts := by simp at parts

/-- A safe text may follow another one. -/
theorem append {first second : Text} (safeFirst : IsSafe marks references first)
    (safeSecond : IsSafe marks references second) : IsSafe marks references (first ++ second) where
  free mark isMark inside := by
    rcases List.mem_append.1 inside with inFirst | inSecond
    · exact safeFirst.free mark isMark inFirst
    · exact safeSecond.free mark isMark inSecond
  refers before behind parts := by
    rcases List.append_eq_append_iff.1 parts with ⟨more, _, later⟩ | ⟨more, earlier, later⟩
    · exact safeSecond.refers more behind later
    · cases more with
      | nil => exact safeSecond.refers [] behind later.symm
      | cons c more =>
          -- The reference lies in the first text, and the second one goes on behind it.
          obtain ⟨rfl, rfl⟩ := List.cons.inj later
          obtain ⟨reference, listed, begins⟩ := safeFirst.refers before more earlier
          exact ⟨reference, listed, begins.trans (List.prefix_append ('&' :: more) second)⟩

/-- What is written for one character is safe if it is a reference of the list or the character
itself, which then is neither an `&` nor a mark. -/
theorem of_written
    (apart : ∀ reference ∈ references, (∃ body, reference = '&' :: body ∧ '&' ∉ body) ∧
      ∀ mark ∈ marks, mark ∉ reference)
    {c : Char} {word : Text} (written : word ∈ references ∨ word = [c] ∧ c ≠ '&' ∧ c ∉ marks) :
    IsSafe marks references word := by
  rcases written with listed | ⟨rfl, noReference, noMark⟩
  · obtain ⟨⟨body, rfl, single⟩, free⟩ := apart word listed
    refine ⟨free, fun before behind parts => ?_⟩
    cases before with
    | nil => exact ⟨_, listed, by rw [parts]; exact List.prefix_rfl⟩
    | cons d before =>
        -- There is no second `&` in a reference.
        refine absurd ?_ single
        rw [(List.cons.inj parts).2]
        simp
  · refine ⟨fun mark isMark inside => ?_, fun before behind parts => ?_⟩
    · rw [List.mem_singleton.1 inside] at isMark
      exact noMark isMark
    · have member : '&' ∈ [c] := by
        rw [parts]
        simp
      exact absurd (List.mem_singleton.1 member).symm noReference

/-- A text is safe if all that is written of it is. -/
theorem flatMap {write : Char → Text} (each : ∀ c, IsSafe marks references (write c))
    (text : Text) :
    IsSafe marks references (text.flatMap write) := by
  induction text with
  | nil => exact nil
  | cons c text ih =>
      rw [List.flatMap_cons]
      exact (each c).append ih

end IsSafe

theorem isSafe_encodeChar (c : Char) : IsSafe textMarks textReferences (encodeChar c) :=
  .of_written (by simp [textReferences, textMarks]) (encodeChar_cases c)

theorem isSafe_encodeAttributeChar (c : Char) :
    IsSafe valueMarks valueReferences (encodeAttributeChar c) :=
  .of_written (by simp [valueReferences, textReferences, valueMarks, textMarks])
    (encodeAttributeChar_cases c)

theorem isSafe_encode (text : Text) : IsSafe textMarks textReferences (encode text) :=
  .flatMap isSafe_encodeChar text

theorem isSafe_encodeAttribute (value : Text) :
    IsSafe valueMarks valueReferences (encodeAttribute value) :=
  .flatMap isSafe_encodeAttributeChar value

/-! ## Normalized text -/

/-- Normalized text and normalized values are safe, they are read as what they were made of, and
they stay as they are when they are normalized again. -/
theorem normalized_safe (text : Text) :
    (∀ read, Decodes text read ↔ read = decode text) ∧
    (IsSafe textMarks textReferences (normalize text) ∧
      decode (normalize text) = decode text ∧ normalize (normalize text) = normalize text) ∧
    (IsSafe valueMarks valueReferences (normalizeAttribute text) ∧
      decode (normalizeAttribute text) = decode text ∧
      normalizeAttribute (normalizeAttribute text) = normalizeAttribute text) := by
  refine ⟨decodes_iff text, ⟨isSafe_encode (decode text), ?_, ?_⟩,
    isSafe_encodeAttribute (decode text), ?_, normalizeAttribute_normalizeAttribute text⟩
  · exact decode_encode (decode text)
  · rw [normalize, normalize, decode_encode]
  · exact decode_encodeAttribute (decode text)

end HtmlMinifier.Reference

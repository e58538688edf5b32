/-
# Names in markup

A tag name begins with a letter, has name characters only, and is in lower case; an attribute name
has at least one character, attribute characters only, and is in lower case. These are the names
that the reader yields, and a name of this kind is read back as it is written: a character that
ends it follows.
-/
import HtmlMinifier.Proofs.Text.Letters
import HtmlMinifier.Token.Scan

namespace HtmlMinifier.Token

/-- The names that tags are read with. -/
structure IsTagName (name : Text) : Prop where
  letter : ∃ first later, name = first :: later ∧ first.isAlpha = true
  chars : ∀ c ∈ name, isNameChar c = true
  lower : Text.lower name = name

/-- The names that attributes are read with. -/
structure IsAttributeName (name : Text) : Prop where
  some : name ≠ []
  chars : ∀ c ∈ name, isAttributeChar c = true
  lower : Text.lower name = name

theorem IsTagName.ne_nil {name : Text} (named : IsTagName name) : name ≠ [] := by
  obtain ⟨first, later, rfl, _⟩ := named.letter
  exact List.cons_ne_nil first later

/-! ## Characters -/

theorem isAlpha_of_isLower {c : Char} (isLower : c.isLower = true) : c.isAlpha = true := by
  change (c.isUpper || c.isLower) = true
  rw [isLower, Bool.or_true]

/-- A letter that lower case does not change is one from `a` to `z`. -/
theorem isLower_of_isAlpha {c : Char} (alpha : c.isAlpha = true) (fixed : c.toLower = c) :
    c.isLower = true := by
  change (c.isUpper || c.isLower) = true at alpha
  rwa [Text.isUpper_of_toLower_eq fixed, Bool.false_or] at alpha

theorem isNameChar_of_isAlpha {c : Char} (alpha : c.isAlpha = true) : isNameChar c = true := by
  simp [isNameChar, Char.isAlphanum, alpha]

/-- A lower-case letter is none of the marks that have a meaning inside a tag. -/
theorem isAttributeChar_of_isLower {c : Char} (isLower : c.isLower = true) :
    isAttributeChar c = true := by
  have differs : ∀ mark : Char, mark.isLower = false → c ≠ mark := by
    rintro mark noLetter rfl
    rw [isLower] at noLetter
    exact absurd noLetter Bool.true_eq_false.mp
  simp [isAttributeChar, Text.isBlank, differs]

theorem isAlpha_toLower {c : Char} (alpha : c.isAlpha = true) : c.toLower.isAlpha = true := by
  rcases Text.toLower_eq_self_or_isLower c with same | isLower
  · rw [same, alpha]
  · exact isAlpha_of_isLower isLower

/-- What a letter is the lower case of is a letter. -/
theorem isAlpha_of_isLower_toLower {c : Char} (isLower : c.toLower.isLower = true) :
    c.isAlpha = true := by
  unfold Char.toLower at isLower
  split at isLower
  · next upper =>
      have isUpper : c.isUpper = true := decide_eq_true upper
      exact Bool.or_eq_true_iff.2 (.inl isUpper)
  · exact isAlpha_of_isLower isLower

theorem isNameChar_of_toLower {c : Char} (named : isNameChar c.toLower = true) :
    isNameChar c = true := by
  rcases Text.toLower_eq_self_or_isLower c with same | isLower
  · rwa [same] at named
  · exact isNameChar_of_isAlpha (isAlpha_of_isLower_toLower isLower)

theorem isNameChar_toLower {c : Char} (named : isNameChar c = true) :
    isNameChar c.toLower = true := by
  rcases Text.toLower_eq_self_or_isLower c with same | isLower
  · rw [same, named]
  · exact isNameChar_of_isAlpha (isAlpha_of_isLower isLower)

theorem isAttributeChar_toLower {c : Char} (named : isAttributeChar c = true) :
    isAttributeChar c.toLower = true := by
  rcases Text.toLower_eq_self_or_isLower c with same | isLower
  · rw [same, named]
  · exact isAttributeChar_of_isLower isLower

/-- A name character ends no tag and opens none. -/
theorem ne_of_isNameChar {c mark : Char} (named : isNameChar c = true)
    (isMark : isNameChar mark = false) : c ≠ mark := by
  rintro rfl
  rw [named] at isMark
  exact absurd isMark Bool.true_eq_false.mp

/-- A name character is no blank. -/
theorem isBlank_of_isNameChar {c : Char} (named : isNameChar c = true) :
    Text.isBlank c = false := by
  have plain : ∀ mark : Char, isNameChar mark = false → c ≠ mark :=
    fun mark => ne_of_isNameChar named
  simp [Text.isBlank, plain ' ' (by decide), plain '\t' (by decide), plain '\n' (by decide),
    plain '\x0c' (by decide), plain '\r' (by decide)]

/-! ## Names that are read -/

/-- The name characters behind a letter make up a tag name. -/
theorem isTagName_takeWhile {c : Char} (alpha : c.isAlpha = true) (input : Text) :
    IsTagName (Text.lower ((c :: input).takeWhile isNameChar)) := by
  rw [List.takeWhile_cons_of_pos (isNameChar_of_isAlpha alpha)]
  refine ⟨⟨c.toLower, _, rfl, isAlpha_toLower alpha⟩, ?_, Text.lower_lower _⟩
  intro d inside
  obtain ⟨original, member, rfl⟩ := List.mem_map.1 inside
  apply isNameChar_toLower
  rcases List.mem_cons.1 member with rfl | later
  · exact isNameChar_of_isAlpha alpha
  · exact List.all_eq_true.1 List.all_takeWhile original later

/-- The attribute characters at the head of a text make up an attribute name. -/
theorem isAttributeName_takeWhile {c : Char} (named : isAttributeChar c = true) (input : Text) :
    IsAttributeName (Text.lower ((c :: input).takeWhile isAttributeChar)) := by
  refine ⟨?_, ?_, Text.lower_lower _⟩
  · rw [List.takeWhile_cons_of_pos named]
    exact List.cons_ne_nil _ _
  · intro d inside
    obtain ⟨original, member, rfl⟩ := List.mem_map.1 inside
    exact isAttributeChar_toLower (List.all_eq_true.1 List.all_takeWhile original member)

end HtmlMinifier.Token

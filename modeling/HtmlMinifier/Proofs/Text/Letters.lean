/-
# ASCII letter case, character by character

Putting a character in lower case changes nothing but the letters `A` to `Z`. A character that is
no lower-case letter can therefore only come from itself, which is why the marks of the format keep
their places when the case of a text is changed or ignored.
-/
import HtmlMinifier.Text.Basic

namespace HtmlMinifier.Text

/-- The lower-case letters are those of the range from `a` to `z`. -/
theorem isLower_iff {c : Char} : c.isLower = true ↔ 'a'.val ≤ c.val ∧ c.val ≤ 'z'.val := by
  change (decide ('a'.val ≤ c.val) && decide (c.val ≤ 'z'.val)) = true ↔ _
  rw [Bool.and_eq_true, decide_eq_true_eq, decide_eq_true_eq]

/-- A character that is put in lower case either stays as it is or becomes a lower-case letter. -/
theorem toLower_eq_self_or_isLower (c : Char) : c.toLower = c ∨ c.toLower.isLower = true := by
  unfold Char.toLower
  split
  · next upper =>
      right
      rw [isLower_iff]
      have low : 'A'.val ≤ c.val := upper.1
      have high : c.val ≤ 'Z'.val := upper.2
      have lowNat : 65 ≤ c.val.toNat := UInt32.le_iff_toNat_le.1 low
      have highNat : c.val.toNat ≤ 90 := UInt32.le_iff_toNat_le.1 high
      constructor
      · rw [UInt32.le_iff_toNat_le, UInt32.toNat_add]
        change 97 ≤ (c.val.toNat + 32) % 4294967296
        omega
      · rw [UInt32.le_iff_toNat_le, UInt32.toNat_add]
        change (c.val.toNat + 32) % 4294967296 ≤ 122
        omega
  · left; rfl

/-- A lower-case letter is in lower case already. -/
theorem toLower_of_isLower {c : Char} (isLower : c.isLower = true) : c.toLower = c := by
  obtain ⟨atLeast, _⟩ := isLower_iff.1 isLower
  unfold Char.toLower
  split
  · next upper =>
      have low : 97 ≤ c.val.toNat := UInt32.le_iff_toNat_le.1 atLeast
      have high : c.val.toNat ≤ 90 := UInt32.le_iff_toNat_le.1 upper.2
      omega
  · rfl

/-- A character that lower case does not change is no letter from `A` to `Z`. -/
theorem isUpper_of_toLower_eq {c : Char} (fixed : c.toLower = c) : c.isUpper = false := by
  unfold Char.toLower at fixed
  split at fixed
  · have moved := congrArg (fun d : Char => d.val.toNat) fixed
    simp only [UInt32.toNat_add] at moved
    change (c.val.toNat + 32) % 4294967296 = c.val.toNat at moved
    omega
  · next outside => exact decide_eq_false outside

@[simp]
theorem toLower_toLower (c : Char) : c.toLower.toLower = c.toLower := by
  rcases toLower_eq_self_or_isLower c with same | isLower
  · rw [same, same]
  · exact toLower_of_isLower isLower

/-- A mark that is no letter comes from nothing but itself. -/
theorem toLower_eq_iff {mark : Char} (noLetter : mark.isLower = false)
    (fixed : mark.toLower = mark)
    (c : Char) : c.toLower = mark ↔ c = mark := by
  constructor
  · intro same
    rcases toLower_eq_self_or_isLower c with stays | isLower
    · rw [← stays, same]
    · rw [same, noLetter] at isLower
      exact absurd isLower Bool.false_ne_true
  · rintro rfl
    exact fixed

@[simp]
theorem lower_nil : lower [] = [] := rfl

@[simp]
theorem lower_cons (c : Char) (text : Text) : lower (c :: text) = c.toLower :: lower text := rfl

/-- The characters of a text in lower case are not changed by lower case. -/
theorem toLower_of_mem {text : Text} (fixed : lower text = text) {c : Char} (inside : c ∈ text) :
    c.toLower = c := by
  rw [← fixed] at inside
  obtain ⟨original, _, rfl⟩ := List.mem_map.1 inside
  exact toLower_toLower original

@[simp]
theorem lower_lower (text : Text) : lower (lower text) = lower text := by
  rw [lower, lower, List.map_map]
  exact List.map_congr_left fun c _ => toLower_toLower c

end HtmlMinifier.Text

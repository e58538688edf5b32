/-
# What makes a comment conditional

A condition is a piece of text: `[if`, one character of white space, and a body up to the first
bracket that closes, in which `ie` stands as a word of its own. Several brackets may open, several
may close and `ie` may occur several times, and the search tries them from left to right. It finds
a condition exactly if some choice of them makes one, so the order in which it tries them does not
matter.
-/
import HtmlMinifier.Canonical.Comment
import HtmlMinifier.Proofs.Text.Terminator
import Mathlib.Data.List.DropRight

namespace HtmlMinifier.Text

/-! ## Words between other characters -/

/-- A text begins with a word, and a character that is part of no word follows it. -/
def BeginsWithWord (word text : Text) : Prop :=
  ∃ spelled behind back, text = spelled ++ behind :: back ∧ lower spelled = word ∧
    isWordChar behind = false

/-- A word is spelled somewhere in a text, in any ASCII case, between two characters of the text
that are part of no word. -/
def HasWord (word text : Text) : Prop :=
  ∃ front before spelled behind back, text = front ++ before :: spelled ++ behind :: back ∧
    lower spelled = word ∧ isWordChar before = false ∧ isWordChar behind = false

/-- The first character of a text stands in front of a word, or the word comes later. -/
theorem hasWord_cons_iff (word : Text) (c : Char) (text : Text) :
    HasWord word (c :: text) ↔
      (isWordChar c = false ∧ BeginsWithWord word text) ∨ HasWord word text := by
  constructor
  · rintro ⟨front, before, spelled, behind, back, parts, same, noneBefore, noneBehind⟩
    cases front with
    | nil =>
        obtain ⟨rfl, rfl⟩ := List.cons.inj parts
        exact .inl ⟨noneBefore, spelled, behind, back, rfl, same, noneBehind⟩
    | cons d front =>
        obtain ⟨rfl, rfl⟩ := List.cons.inj parts
        exact .inr ⟨front, before, spelled, behind, back, rfl, same, noneBefore, noneBehind⟩
  · rintro (⟨noneBefore, spelled, behind, back, rfl, same, noneBehind⟩ |
      ⟨front, before, spelled, behind, back, rfl, same, noneBefore, noneBehind⟩)
    · exact ⟨[], c, spelled, behind, back, rfl, same, noneBefore, noneBehind⟩
    · exact ⟨c :: front, before, spelled, behind, back, rfl, same, noneBefore, noneBehind⟩

/-- A word takes up room, and so do the characters around it. -/
theorem not_hasWord_of_length_le {word text : Text} (short : text.length ≤ word.length + 1) :
    ¬HasWord word text := by
  rintro ⟨front, before, spelled, behind, back, rfl, rfl, -, -⟩
  simp only [lower, List.length_append, List.length_cons, List.length_map] at short
  omega

/-- A word at the head of a text is a literal that can be dropped there. -/
theorem beginsWithWord_concat_iff (word text : Text) (after : Char) :
    BeginsWithWord (lower word) (text ++ [after]) ↔
      ∃ rest, dropFolded? word text = some rest ∧ isWordChar (rest.headD after) = false := by
  simp only [dropFolded?_eq_some_iff]
  constructor
  · rintro ⟨spelled, behind, back, parts, same, noneBehind⟩
    -- The last character of the text is the one behind the word or comes later.
    obtain rfl | ⟨later, last, rfl⟩ := List.eq_nil_or_concat' back
    · obtain ⟨rfl, tail⟩ := List.append_inj' parts rfl
      obtain ⟨rfl, -⟩ := List.cons.inj tail
      exact ⟨[], ⟨text, same, (List.append_nil text).symm⟩, noneBehind⟩
    · rw [← List.cons_append, ← List.append_assoc] at parts
      obtain ⟨rfl, -⟩ := List.append_inj' parts rfl
      exact ⟨behind :: later, ⟨spelled, same, rfl⟩, noneBehind⟩
  · rintro ⟨rest, ⟨spelled, same, rfl⟩, noneBehind⟩
    cases rest with
    | nil => exact ⟨spelled, after, [], by simp, same, noneBehind⟩
    | cons behind later => exact ⟨spelled, behind, later ++ [after], by simp, same, noneBehind⟩

/-! ## White space at both ends -/

/-- White space has no letter case. -/
theorem toLower_of_isWhiteSpace {c : Char} (white : isWhiteSpace c = true) : c.toLower = c := by
  unfold Char.toLower
  split
  · next upper =>
      have low : 65 ≤ c.toNat := UInt32.le_iff_toNat_le.1 upper.1
      have high : c.toNat ≤ 90 := UInt32.le_iff_toNat_le.1 upper.2
      simp only [isWhiteSpace, Bool.or_eq_true, Bool.and_eq_true, decide_eq_true_eq] at white
      omega
  · rfl

/-- A text has no white space if its lower-case form has none. -/
theorem isWhiteSpace_eq_false_of_lower {text : Text}
    (solid : ∀ c ∈ lower text, isWhiteSpace c = false) : ∀ c ∈ text, isWhiteSpace c = false := by
  intro c inside
  by_contra white
  rw [Bool.not_eq_false] at white
  have lowered : c.toLower ∈ lower text := List.mem_map_of_mem inside
  rw [toLower_of_isWhiteSpace white] at lowered
  exact Bool.false_ne_true ((solid c lowered).symm.trans white)

/-- What is left without the white space at both ends is what stands between it. -/
theorem trimWhiteSpace_append {left mark right : Text} (some : mark ≠ [])
    (whiteLeft : ∀ c ∈ left, isWhiteSpace c = true) (solid : ∀ c ∈ mark, isWhiteSpace c = false)
    (whiteRight : ∀ c ∈ right, isWhiteSpace c = true) :
    trimWhiteSpace (left ++ mark ++ right) = mark := by
  have front : (left ++ mark ++ right).dropWhile isWhiteSpace = mark ++ right := by
    obtain ⟨c, later, rfl⟩ := List.exists_cons_of_ne_nil some
    rw [List.append_assoc, List.dropWhile_append_of_pos whiteLeft, List.cons_append,
      List.dropWhile_cons_of_neg (by simp [solid c List.mem_cons_self])]
  have back : (right.reverse ++ mark.reverse).dropWhile isWhiteSpace = mark.reverse := by
    obtain ⟨earlier, c, rfl⟩ := (List.eq_nil_or_concat' mark).resolve_left some
    rw [List.dropWhile_append_of_pos (by simpa using whiteRight), List.reverse_concat,
      List.dropWhile_cons_of_neg (by simp [solid c (by simp)])]
  rw [trimWhiteSpace, front, List.reverse_append, back, List.reverse_reverse]

/-- A text is what is left of it with the white space at both ends. -/
theorem exists_append_trimWhiteSpace (text : Text) :
    ∃ left right, text = left ++ trimWhiteSpace text ++ right ∧
      (∀ c ∈ left, isWhiteSpace c = true) ∧ ∀ c ∈ right, isWhiteSpace c = true := by
  refine ⟨text.takeWhile isWhiteSpace, (text.dropWhile isWhiteSpace).rtakeWhile isWhiteSpace,
    ?_, ?_, ?_⟩
  · have back : trimWhiteSpace text ++ (text.dropWhile isWhiteSpace).rtakeWhile isWhiteSpace =
        text.dropWhile isWhiteSpace := List.rdropWhile_append_rtakeWhile
    rw [List.append_assoc, back, List.takeWhile_append_dropWhile]
  · exact fun c inside => List.mem_takeWhile_imp inside
  · exact fun c inside => List.mem_rtakeWhile_imp inside

end HtmlMinifier.Text

namespace HtmlMinifier.Canonical

/-! ## Conditions -/

/-- A condition: `[if`, one character of white space, and a body up to a bracket that closes, in
which `ie` stands as a word. Letters are in any ASCII case. -/
inductive IsCondition : Text → Prop
  | intro {opening inside : Text} {blank : Char} (opens : Text.lower opening = "[if".toList)
      (white : Text.isWhiteSpace blank = true) (within : ']' ∉ inside)
      (names : Text.HasWord "ie".toList (blank :: inside ++ [']'])) :
      IsCondition (opening ++ blank :: inside ++ [']'])

/-- The search for the word finds it between the characters around it. -/
theorem hasWordIe_iff (before after : Char) (text : Text) :
    hasWordIe before after text = true ↔ Text.HasWord "ie".toList (before :: text ++ [after]) := by
  induction text generalizing before with
  | nil =>
      have none : ¬Text.HasWord "ie".toList [before, after] :=
        Text.not_hasWord_of_length_le (by simp)
      simpa [hasWordIe] using none
  | cons c text ih =>
      have head := Text.beginsWithWord_concat_iff "ie".toList (c :: text) after
      rw [show Text.lower "ie".toList = "ie".toList from rfl] at head
      rw [List.cons_append, Text.hasWord_cons_iff, head, List.cons_append, ← List.cons_append,
        ← ih,
        hasWordIe, Bool.or_eq_true]
      refine or_congr_left ?_
      cases Text.dropFolded? "ie".toList (c :: text) with
      | none => simp
      | some rest => simp

/-- The body of a condition ends at the first bracket that closes. -/
theorem takeWhile_append_closing {inside : Text} (within : ']' ∉ inside) (rest : Text) :
    (inside ++ ']' :: rest).takeWhile (· ≠ ']') = inside := by
  refine (Text.takeWhile_append_of_stops (fun c member => ?_) fun c first => ?_).1
  · exact decide_eq_true fun same => within (same ▸ member)
  · cases first
    rfl

/-- The search at one place finds a condition that begins there. -/
theorem opensCondition_iff (text : Text) :
    opensCondition text = true ↔ ∃ condition, IsCondition condition ∧ condition <+: text := by
  constructor
  · intro search
    rw [opensCondition] at search
    split at search
    · next blank body found =>
        obtain ⟨opening, opens, rfl⟩ := Text.dropFolded?_eq_some_iff.1 found
        simp only [Bool.and_eq_true, List.contains_iff_mem] at search
        obtain ⟨⟨white, closed⟩, names⟩ := search
        obtain ⟨inside, rest, rfl, within⟩ := List.eq_append_cons_of_mem closed
        rw [takeWhile_append_closing within, hasWordIe_iff] at names
        exact ⟨_, ⟨opens, white, within, names⟩, rest, by simp⟩
    · cases search
  · rintro ⟨_, @⟨opening, inside, blank, opens, white, within, names⟩, rest, rfl⟩
    have found : Text.dropFolded? "[if".toList (opening ++ blank :: (inside ++ ']' :: rest)) =
        some (blank :: (inside ++ ']' :: rest)) :=
          Text.dropFolded?_eq_some_iff.2 ⟨opening, opens, rfl⟩
    have parts : opening ++ blank :: inside ++ [']'] ++ rest =
        opening ++ blank :: (inside ++ ']' :: rest) := by simp
    have closed : (inside ++ ']' :: rest).contains ']' = true := by simp
    rw [parts, opensCondition, found]
    simp only [takeWhile_append_closing within, (hasWordIe_iff _ _ _).2 names, white, closed,
      Bool.and_self]

/-- The search finds a condition that stands anywhere. -/
theorem hasCondition_iff (text : Text) :
    hasCondition text = true ↔ ∃ condition, IsCondition condition ∧ condition <:+: text := by
  induction text with
  | nil =>
      refine iff_of_false Bool.false_ne_true ?_
      rintro ⟨_, ⟨⟩, inside⟩
      simp at inside
  | cons c text ih =>
      rw [hasCondition, Bool.or_eq_true, opensCondition_iff, ih, ← exists_or]
      refine exists_congr fun condition => ?_
      rw [List.infix_cons_iff, and_or_left]

/-- The end of a condition is recognized with any white space around it. -/
theorem isConditionEnd_iff (text : Text) :
    isConditionEnd text = true ↔
      ∃ left mark right, text = left ++ mark ++ right ∧ Text.lower mark = "<![endif]".toList ∧
        (∀ c ∈ left, Text.isWhiteSpace c = true) ∧ ∀ c ∈ right, Text.isWhiteSpace c = true := by
  rw [isConditionEnd, decide_eq_true_eq]
  constructor
  · intro spelled
    obtain ⟨left, right, parts, whiteLeft, whiteRight⟩ := Text.exists_append_trimWhiteSpace text
    exact ⟨left, _, right, parts, spelled, whiteLeft, whiteRight⟩
  · rintro ⟨left, mark, right, rfl, spelled, whiteLeft, whiteRight⟩
    have some : mark ≠ [] := by
      rintro rfl
      cases spelled
    have solid : ∀ c ∈ mark, Text.isWhiteSpace c = false := by
      have noneWhite : "<![endif]".toList.any Text.isWhiteSpace = false := by decide
      apply Text.isWhiteSpace_eq_false_of_lower
      rw [spelled]
      simpa only [Bool.not_eq_true] using List.any_eq_false.1 noneWhite
    rw [Text.trimWhiteSpace_append some whiteLeft solid whiteRight, spelled]

/-- A text is conditional exactly if a condition stands anywhere in it, or if it is the end of a
condition with white space around it. -/
theorem isConditional_iff (text : Text) :
    isConditional text = true ↔
      (∃ condition, IsCondition condition ∧ condition <:+: text) ∨
        ∃ left mark right, text = left ++ mark ++ right ∧ Text.lower mark = "<![endif]".toList ∧
          (∀ c ∈ left, Text.isWhiteSpace c = true) ∧ ∀ c ∈ right, Text.isWhiteSpace c = true := by
  rw [isConditional, Bool.or_eq_true, hasCondition_iff, isConditionEnd_iff]

end HtmlMinifier.Canonical

/-
# Where a literal stands in a text

A text avoids a literal if the literal begins nowhere in it. What is cut off in front of the first
occurrence of a literal avoids it, and a text that avoids a literal is cut off whole again when the
literal is put behind it, provided that the two do not make up an earlier occurrence together.
-/
import HtmlMinifier.Proofs.Text.Letters

namespace HtmlMinifier.Text

/-- Characters of a kind are all taken up to the first of another kind. -/
theorem takeWhile_append_of_stops {kind : Char → Bool} {name rest : Text}
    (chars : ∀ c ∈ name, kind c = true) (stops : ∀ c, rest.head? = some c → kind c = false) :
    (name ++ rest).takeWhile kind = name ∧ (name ++ rest).dropWhile kind = rest := by
  rw [List.takeWhile_append_of_pos chars, List.dropWhile_append_of_pos chars]
  cases rest with
  | nil => simp
  | cons c rest =>
      have other : kind c = false := stops c rfl
      rw [List.takeWhile_cons_of_neg (by simp [other]),
        List.dropWhile_cons_of_neg (by simp [other])]
      simp

/-- Nowhere in the text does the literal begin. -/
def Avoids (literal text : Text) : Prop :=
  ∀ suffix, suffix <:+ text → dropFolded? literal suffix = none

@[simp]
theorem dropFolded?_nil (text : Text) : dropFolded? [] text = some text := rfl

theorem dropFolded?_cons_nil (l : Char) (literal : Text) : dropFolded? (l :: literal) [] = none :=
  rfl

theorem dropFolded?_cons_cons (l c : Char) (literal text : Text) :
    dropFolded? (l :: literal) (c :: text) =
      if l.toLower = c.toLower then dropFolded? literal text else none := rfl

/-- A literal stands at the head of the text that begins with it. -/
@[simp]
theorem dropFolded?_append_self (literal text : Text) :
    dropFolded? literal (literal ++ text) = some text := by
  induction literal with
  | nil => rfl
  | cons l literal ih => rw [List.cons_append, dropFolded?_cons_cons, if_pos rfl, ih]

/-- A literal that is found is still found when the text goes on. -/
theorem dropFolded?_append {literal text rest : Text}
    (found : dropFolded? literal text = some rest)
    (more : Text) : dropFolded? literal (text ++ more) = some (rest ++ more) := by
  fun_induction dropFolded? literal text with
  | case1 text => simp_all
  | case2 => simp at found
  | case3 l literal c text same ih =>
      rw [List.cons_append, dropFolded?_cons_cons, if_pos same]
      exact ih found
  | case4 => simp at found

/-- A literal that is longer than a text and not found in its continuation differs from the text,
so the continuation does not matter. -/
theorem dropFolded?_append_eq_none {literal text : Text} (long : literal.length ≤ text.length)
    (missing : dropFolded? literal text = none) (more : Text) :
    dropFolded? literal (text ++ more) = none := by
  fun_induction dropFolded? literal text with
  | case1 text => simp at missing
  | case2 => simp at long
  | case3 l literal c text same ih =>
      rw [List.cons_append, dropFolded?_cons_cons, if_pos same]
      exact ih (by simpa using long) missing
  | case4 l literal c text differs =>
      rw [List.cons_append, dropFolded?_cons_cons, if_neg differs]

/-- What stands in front of the first occurrence of a literal begins the text. -/
theorem splitAt_fst_prefix (stop text : Text) : (splitAt stop text).1 <+: text := by
  induction text with
  | nil => exact List.prefix_rfl
  | cons c text ih =>
      rw [splitAt]
      split
      · exact List.nil_prefix
      · exact List.cons_prefix_cons.2 ⟨rfl, ih⟩

/-- What stands in front of the first occurrence of a literal avoids it. -/
theorem avoids_splitAt {stop : Text} (some : stop ≠ []) (text : Text) :
    Avoids stop (splitAt stop text).1 := by
  obtain ⟨l, literal, rfl⟩ := List.exists_cons_of_ne_nil some
  induction text with
  | nil =>
      intro suffix inside
      rw [splitAt, List.suffix_nil] at inside
      rw [inside, dropFolded?_cons_nil]
  | cons c text ih =>
      intro suffix inside
      rw [splitAt] at inside
      split at inside
      · rw [List.suffix_nil] at inside
        rw [inside, dropFolded?_cons_nil]
      · next missing =>
          rcases List.suffix_cons_iff.1 inside with whole | later
          · -- An occurrence at the head of the part is one at the head of the text.
            cases found : dropFolded? (l :: literal) suffix with
            | none => rfl
            | some rest =>
                obtain ⟨more, joined⟩ := splitAt_fst_prefix (l :: literal) text
                have further := dropFolded?_append found more
                rw [whole, List.cons_append, joined, missing] at further
                exact absurd further (Option.some_ne_none _).symm
          · exact ih suffix later

/-- A text is cut off whole in front of a literal that begins nowhere earlier. -/
theorem splitAt_append (stop : Text) {body rest : Text}
    (first : ∀ suffix, suffix ≠ [] → suffix <:+ body →
      dropFolded? stop (suffix ++ (stop ++ rest)) = none) :
    splitAt stop (body ++ (stop ++ rest)) = (body, rest) := by
  induction body with
  | nil =>
      cases stop with
      | nil =>
          cases rest with
          | nil => rfl
          | cons c rest => simp [splitAt]
      | cons l literal =>
          have found := dropFolded?_append_self (l :: literal) rest
          rw [List.cons_append] at found
          rw [List.nil_append, List.cons_append, splitAt, found]
  | cons c body ih =>
      have missing := first (c :: body) (List.cons_ne_nil c body) List.suffix_rfl
      rw [List.cons_append] at missing
      rw [List.cons_append, splitAt, missing]
      simp only
      rw [ih]
      intro suffix some inside
      exact first suffix some (inside.trans (List.suffix_cons c body))

/-- A single mark is found at the end of a text that does not have it. -/
theorem splitAt_singleton_append {mark : Char} {body : Text} (rest : Text)
    (free : ∀ c ∈ body, c.toLower ≠ mark.toLower) :
    splitAt [mark] (body ++ mark :: rest) = (body, rest) := by
  refine splitAt_append [mark] fun suffix some inside => ?_
  obtain ⟨c, later, rfl⟩ := List.exists_cons_of_ne_nil some
  have member : c ∈ body := inside.subset List.mem_cons_self
  rw [List.cons_append, dropFolded?_cons_cons, if_neg (Ne.symm (free c member))]

/-- A text without a `>` has no end of a comment in it. -/
theorem avoids_commentEnd {body : Text} (free : Avoids ['>'] body) : Avoids "-->".toList body := by
  intro suffix inside
  match suffix with
  | [] => rfl
  | [a] =>
      change (if '-'.toLower = a.toLower then none else none) = none
      exact ite_self none
  | [a, b] =>
      change (if '-'.toLower = a.toLower then if '-'.toLower = b.toLower then none else none
        else none) = none
      rw [ite_self, ite_self]
  | a :: b :: c :: later =>
      have missing := free (c :: later)
        (((List.suffix_cons b _).trans (List.suffix_cons a _)).trans inside)
      rw [dropFolded?_cons_cons] at missing
      have differs : '>'.toLower ≠ c.toLower := by
        intro same
        rw [if_pos same] at missing
        exact absurd missing (Option.some_ne_none _)
      change (if '-'.toLower = a.toLower then if '-'.toLower = b.toLower then
        if '>'.toLower = c.toLower then some later else none else none else none) = none
      rw [if_neg differs, ite_self, ite_self]

/-- The end of a comment is found behind a body that avoids it, dashes at the end of the body
included. -/
theorem splitAt_commentEnd {body : Text} (avoids : Avoids "-->".toList body) (rest : Text) :
    splitAt "-->".toList (body ++ ("-->".toList ++ rest)) = (body, rest) := by
  have dash : ('-' : Char).toLower ≠ ('>' : Char).toLower := by decide
  have bracket : ('>' : Char).toLower ≠ ('-' : Char).toLower := by decide
  refine splitAt_append _ fun suffix some inside => ?_
  match suffix, some, avoids suffix inside with
  | [a], _, _ =>
      -- The third character would be a dash.
      change (if '-'.toLower = a.toLower then
        if '-'.toLower = '-'.toLower then
          if '>'.toLower = '-'.toLower then Option.some ('>' :: rest) else none
        else none else none) = none
      rw [if_neg bracket, if_pos rfl, ite_self]
  | [a, b], _, _ =>
      change (if '-'.toLower = a.toLower then
        if '-'.toLower = b.toLower then
          if '>'.toLower = '-'.toLower then Option.some ('-' :: '>' :: rest) else none
        else none else none) = none
      rw [if_neg bracket, ite_self, ite_self]
  | a :: b :: c :: later, _, missing =>
      exact dropFolded?_append_eq_none (by simp) missing _

end HtmlMinifier.Text

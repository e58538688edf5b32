/-
# Text that looks like markup

The text of a script, a style or a comment may look like tags, and a pass takes such tags out as it
does any others. What it takes out is a matter of that text alone. Nothing that stands in front of
the text is the end tag that a rule may ask for, because the text begins behind a start tag or
behind the dashes of a comment; and what stands behind it begins with a tag or with dashes, so no
rule looks any further. The text is therefore left the same wherever it stands.
-/
import HtmlMinifier.Proofs.OptionalTag.Context

namespace HtmlMinifier.OptionalTag

/-! ## In front of the text -/

/-- A text, given backwards, into which no end tag reaches that a rule looks for before its tag. -/
def Shields (before : Text) : Prop := ∀ consumed :
    Text, Alike (consumed.reverse ++ before) consumed.reverse

/-- What is compared with a text is not found where one of its characters is missing. -/
theorem exists_mem_of_startsFolded {literal text : Text}
    (found : Text.startsFolded literal text = true) :
    ∀ l ∈ literal, ∃ c ∈ text, l.toLower = c.toLower := by
  rw [Text.startsFolded] at found
  fun_induction Text.dropFolded? literal text with
  | case1 text => exact List.forall_mem_nil _
  | case2 => cases found
  | case3 l literal c text same ih =>
      intro k member
      rcases List.mem_cons.1 member with rfl | later
      · exact ⟨c, List.mem_cons_self, same⟩
      · obtain ⟨d, inside, equal⟩ := ih found k later
        exact ⟨d, List.mem_cons_of_mem c inside, equal⟩
  | case4 => cases found

/-- A text has no bracket, or a last one. -/
theorem exists_last_bracket (text : Text) :
    (∀ c ∈ text, c ≠ '<') ∨ ∃ front last, text = front ++ '<' :: last ∧ ∀ c ∈ last, c ≠ '<' := by
  induction text with
  | nil => exact .inl (List.forall_mem_nil _)
  | cons c text ih =>
      rcases ih with solid | ⟨front, last, rfl, solid⟩
      · by_cases bracket : c = '<'
        · exact .inr ⟨[], text, by rw [bracket, List.nil_append], solid⟩
        · refine .inl fun d member => ?_
          rcases List.mem_cons.1 member with rfl | later
          · exact bracket
          · exact solid d later
      · exact .inr ⟨c :: front, last, rfl, solid⟩

/-- Behind a bracket that no slash follows stands no end tag. -/
theorem shields_of_ne_slash {c : Char} (noSlash : c ≠ '/') {inside : Text}
    (solid : ∀ d ∈ c :: inside, d ≠ '<') (more : Text) :
    Shields ((c :: inside).reverse ++ '<' :: more) := by
  intro consumed name context
  have absent := ne_bracket_of_context context
  rw [Bool.eq_iff_iff]
  rcases exists_last_bracket consumed with none | ⟨front, last, rfl, lastSolid⟩
  · have parts : consumed.reverse ++ ((c :: inside).reverse ++ '<' :: more) =
        (c :: inside ++ consumed).reverse ++ '<' :: more := by
      simp
    have wholeSolid : ∀ d ∈ c :: inside ++ consumed, d ≠ '<' := by
      intro d member
      rcases List.mem_append.1 member with front | back
      · exact solid d front
      · exact none d back
    rw [parts, endsFolded_iff absent wholeSolid]
    constructor
    · intro same
      rw [List.cons_append, List.cons_append, Text.lower_cons, Text.lower_cons] at same
      have slash := (Text.toLower_eq_iff (by decide) (by decide) c).1 (List.cons.inj same).1.symm
      exact absurd slash noSlash
    · intro found
      obtain ⟨d, member, same⟩ := exists_mem_of_startsFolded found '<' (by simp)
      have bracket := (Text.toLower_eq_iff (by decide) (by decide) d).1 same.symm
      exact absurd bracket (none d (List.mem_reverse.1 member))
  · have parts : ∀ rest : Text, (front ++ '<' :: last).reverse ++ rest =
        last.reverse ++ '<' :: (front.reverse ++ rest) := by
      intro rest
      simp
    have whole := parts []
    rw [List.append_nil] at whole
    rw [parts, whole, endsFolded_iff absent lastSolid, endsFolded_iff absent lastSolid]

/-! ## Behind the text -/

/-- What follows a closing bracket is not seen. -/
theorem sameHead_append (text : Text) (bracket : '>' ∈ text) (later later' : Text) :
    SameHead (text ++ later) (text ++ later') := by
  cases text with
  | nil => cases bracket
  | cons c text =>
      by_cases opens : c = '<'
      · have closes : '>' ∈ text := by
          rcases List.mem_cons.1 bracket with same | further
          · rw [opens] at same
            exact absurd same (by decide)
          · exact further
        obtain ⟨inside, rest, rfl⟩ := List.append_of_mem closes
        rw [opens, List.cons_append, List.cons_append, List.append_assoc, List.append_assoc]
        exact .tag inside (rest ++ later) (rest ++ later')
      · exact .text opens opens (text ++ later) (text ++ later')

/-- Between such surroundings a rule allows what it allows without them. -/
theorem allows_append {rule : Rule} (member : rule ∈ rules) (unbarred : rule.notFollowedBy = [])
    {before : Text} (shields : Shields before) {inside : Text} (bracket : '>' ∈ inside)
    (consumed rest later : Text) :
    rule.allows (consumed.reverse ++ before) (rest ++ (inside ++ later)) =
      rule.allows consumed.reverse (rest ++ inside) := by
  have head := sameHead_append (rest ++ inside) (List.mem_append_right rest bracket) later []
  rw [List.append_nil, List.append_assoc] at head
  exact allows_congr member unbarred (shields consumed) head

/-! ## The text -/

/-- What a pass leaves of a text between such surroundings does not depend on them. -/
theorem Rule.exists_passAfter_opaque {rule : Rule} (member : rule ∈ rules)
    (unbarred : rule.notFollowedBy = []) {d : Char} (mark : d = '<' ∨ d = '-') (inside : Text)
    (bracket : '>' ∈ inside) (body consumed : Text) :
    ∃ kept, kept.Sublist body ∧ ∀ before, Shields before → ∀ later,
      rule.passAfter (consumed.reverse ++ before) (body ++ d :: (inside ++ later)) =
        kept ++ rule.passAfter ((consumed ++ body).reverse ++ before)
        (d :: (inside ++ later)) := by
  have separates : d ∈ separators := by
    rcases mark with rfl | rfl
    · exact bracket_mem_separators
    · exact dash_mem_separators
  have solid : Text.isBlank d = false := by
    rcases mark with rfl | rfl <;> rfl
  induction body using rule.pass_induction generalizing consumed with
  | nil => exact ⟨[], List.Sublist.refl [], fun before _ later => by simp⟩
  | cons c body tail behind =>
      -- Whatever is not taken out is kept character by character.
      have goesOn (keeps : ∀ before, Shields before → ∀ later taken rest,
          rule.match? (c :: (body ++ d :: (inside ++ later))) = some (taken, rest) →
            rule.allows (consumed.reverse ++ before) rest = false) :
          ∃ kept, kept.Sublist (c :: body) ∧ ∀ before, Shields before → ∀ later,
            rule.passAfter (consumed.reverse ++ before) (c :: body ++ d :: (inside ++ later)) =
              kept ++ rule.passAfter ((consumed ++ c :: body).reverse ++ before)
                (d :: (inside ++ later)) := by
        obtain ⟨kept, fewer, passes⟩ := tail (consumed ++ [c])
        refine ⟨c :: kept, fewer.cons_cons c, fun before shields later => ?_⟩
        have further := passes before shields later
        rw [List.reverse_append, List.reverse_singleton, List.singleton_append, List.append_assoc,
          List.singleton_append, List.cons_append] at further
        rw [List.cons_append, Rule.passAfter_keep (keeps before shields later), further,
          List.cons_append]
      have finds : ∀ later, rule.match? (c :: (body ++ d :: (inside ++ later))) =
          (rule.match? (c :: body)).map fun found => (found.1, found.2 ++ d ::
              (inside ++ later)) :=
        fun later => Rule.match?_append_separator member separates (.inr solid) c body
          (inside ++ later)
      cases found : rule.match? (c :: body) with
      | none =>
          refine goesOn fun before shields later taken rest here => ?_
          rw [finds, found] at here
          cases here
      | some parts =>
          obtain ⟨taken, rest⟩ := parts
          have same : ∀ before, Shields before → ∀ later,
              rule.allows (consumed.reverse ++ before) (rest ++ d :: (inside ++ later)) =
                rule.allows consumed.reverse (rest ++ d :: inside) := fun before shields later =>
            allows_append member unbarred shields (List.mem_cons_of_mem d bracket) consumed
              rest later
          cases allowed : rule.allows consumed.reverse (rest ++ d :: inside) with
          | false =>
              refine goesOn fun before shields later taken' left here => ?_
              rw [finds, found] at here
              cases here
              rw [same before shields later, allowed]
          | true =>
              have whole := (Rule.append_of_match? found).1
              obtain ⟨kept, fewer, passes⟩ := behind _ _ found (consumed ++ taken)
              refine ⟨kept, fewer.trans ?_, fun before shields later => ?_⟩
              · rw [← whole]
                exact List.sublist_append_right taken rest
              · have here := finds later
                rw [found, Option.map_some] at here
                have further := passes before shields later
                rw [List.append_assoc, whole, List.reverse_append, List.append_assoc] at further
                rw [List.cons_append, Rule.passAfter_remove here
                  (by rw [same before shields later, allowed]), further]

end HtmlMinifier.OptionalTag

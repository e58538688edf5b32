/-
# Up to the first terminator

Several readers look for the end of a body in the same way: they try every place from the left, and
the body ends in front of the first place where a terminator stands. Without a terminator the body
is all that is left. The readers differ only in what they take for a terminator, a literal or an
end tag, so what they have in common is stated once, for anything that recognizes terminators of
some kind.
-/
import HtmlMinifier.Proofs.Text.Occurrence

namespace HtmlMinifier.Text

/-! ## Bodies and terminators -/

/-- How a body ends: with the first terminator of a kind, or without one at the end of the text.
`rest` is what follows the terminator. -/
inductive Ends (isStop : Text → Prop) (body : Text) : (closing rest : Text) → Prop
  | closed {closing : Text} (rest : Text) (stops : isStop closing)
      (first : ∀ shorter stop more, isStop stop → body ++ closing = shorter ++ stop ++ more →
        body.length ≤ shorter.length) :
      Ends isStop body closing rest
  | cut (absent : ∀ shorter stop more, isStop stop → body ≠ shorter ++ stop ++ more) :
      Ends isStop body [] []

/-- A way to drop a terminator of some kind from the head of a text. No terminator is empty, and
none reaches beyond the end of another one inside it. -/
structure Recognizes (drop? : Text → Option Text) (isStop : Text → Prop) : Prop where
  drop_iff : ∀ text rest, drop? text = some rest ↔ ∃ stop, isStop stop ∧ text = stop ++ rest
  some : ∀ stop, isStop stop → stop ≠ []
  whole : ∀ stop before inner behind, isStop stop → isStop inner →
    stop = before ++ inner ++ behind → behind = []

/-- The text in front of the first place where something can be dropped, and what follows it there.
Without such a place the first part is everything and nothing follows. -/
def cutAt (drop? : Text → Option Text) : Text → Text × Text
  | [] => ([], [])
  | c :: text =>
      match drop? (c :: text) with
      | some rest => ([], rest)
      | none =>
          let later := cutAt drop? text
          (c :: later.1, later.2)

/-- A text is split where its literal can be dropped. -/
theorem splitAt_eq_cutAt (stop text : Text) :
    splitAt stop text = cutAt (dropFolded? stop) text := by
  induction text with
  | nil => rfl
  | cons c text ih =>
      rw [splitAt, ih]
      rfl

section

variable {drop? : Text → Option Text} {isStop : Text → Prop}

/-- Where nothing can be dropped, no terminator begins. -/
theorem Recognizes.not_stop (recognizes : Recognizes drop? isStop) {text : Text}
    (missing : drop? text = none) (stop more : Text) (stops : isStop stop) :
    text ≠ stop ++ more := by
  intro parts
  rw [(recognizes.drop_iff text more).2 ⟨stop, stops, parts⟩] at missing
  cases missing

/-- What is cut off is a body with its end, and nothing is lost. -/
theorem exists_ends_cutAt (recognizes : Recognizes drop? isStop) (input : Text) :
    ∃ closing, input = (cutAt drop? input).1 ++ closing ++ (cutAt drop? input).2 ∧
      Ends isStop (cutAt drop? input).1 closing (cutAt drop? input).2 := by
  induction input with
  | nil =>
      refine ⟨[], rfl, .cut fun shorter stop more stops parts => ?_⟩
      have both := List.append_eq_nil_iff.1 parts.symm
      exact recognizes.some stop stops (List.append_eq_nil_iff.1 both.1).2
  | cons c input ih =>
      rw [cutAt]
      split
      · next rest found =>
          obtain ⟨stop, stops, parts⟩ := (recognizes.drop_iff _ _).1 found
          exact ⟨stop, parts, .closed rest stops fun shorter other more _ _ => Nat.zero_le _⟩
      · next missing =>
          obtain ⟨closing, parts, ends⟩ := ih
          refine ⟨closing, by rw [List.cons_append, List.cons_append, ← parts], ?_⟩
          -- A terminator at the head of the body would be one at the head of the input.
          have notHere := recognizes.not_stop missing
          obtain ⟨body, behind, later⟩ : ∃ body behind, cutAt drop? input = (body, behind) :=
            ⟨_, _, rfl⟩
          simp only [later] at parts ends ⊢
          cases ends with
          | closed rest stops first =>
              refine .closed _ stops fun shorter stop more stopsToo same => ?_
              cases shorter with
              | nil =>
                  refine absurd ?_ (notHere stop (more ++ behind) stopsToo)
                  rw [List.nil_append] at same
                  rw [← List.append_assoc, ← same, parts, List.cons_append, List.cons_append]
              | cons d shorter =>
                  exact Nat.succ_le_succ (first shorter stop more stopsToo (List.cons.inj same).2)
          | cut absent =>
              refine .cut fun shorter stop more stopsToo same => ?_
              cases shorter with
              | nil =>
                  refine notHere stop more stopsToo ?_
                  rw [parts, List.append_nil, List.append_nil]
                  exact same
              | cons d shorter => exact absent shorter stop more stopsToo (List.cons.inj same).2

/-- A body that something follows is cut off at its terminator, whatever follows instead. -/
theorem Ends.cutAt_append (recognizes : Recognizes drop? isStop) {body closing rest : Text}
    (ends : Ends isStop body closing rest) (some : rest ≠ []) (other : Text) :
    cutAt drop? (body ++ closing ++ other) = (body, other) := by
  obtain ⟨stops, first⟩ : isStop closing ∧ ∀ shorter stop more, isStop stop →
      body ++ closing = shorter ++ stop ++ more → body.length ≤ shorter.length := by
    cases ends with
    | closed _ stops first => exact ⟨stops, first⟩
    | cut _ => exact absurd rfl some
  clear ends
  induction body with
  | nil =>
      have found := (recognizes.drop_iff (closing ++ other) other).2 ⟨closing, stops, rfl⟩
      obtain ⟨c, later, parts⟩ := List.exists_cons_of_ne_nil (recognizes.some closing stops)
      rw [parts, List.cons_append] at found
      rw [List.nil_append, parts, List.cons_append, cutAt, found]
  | cons c body ih =>
      have missing : drop? (c :: body ++ closing ++ other) = none := by
        cases found : drop? (c :: body ++ closing ++ other) with
        | none => rfl
        | some behind =>
            obtain ⟨stop, stopsToo, parts⟩ := (recognizes.drop_iff _ _).1 found
            -- Of the terminator that is found and the one that is known, none reaches beyond the
            -- other.
            rcases List.append_eq_append_iff.1 parts with ⟨more, longer, _⟩ | ⟨more, shorter, _⟩
            · have none : more = [] := recognizes.whole stop (c :: body) closing more stopsToo
                stops longer
              rw [none, List.append_nil] at longer
              exact absurd (first [] stop [] stopsToo (by rw [longer]; simp)) (by simp)
            · exact absurd (first [] stop more stopsToo (by rw [shorter]; simp)) (by simp)
      rw [List.cons_append, List.cons_append] at missing ⊢
      rw [cutAt, missing]
      simp only
      rw [ih fun shorter stop more stopsToo same => ?_]
      have further := first (c :: shorter) stop more stopsToo (congrArg (List.cons c) same)
      exact Nat.le_of_succ_le_succ further

end

/-! ## Literals -/

/-- What is dropped is the literal, in any case. -/
theorem dropFolded?_eq_some_iff {literal text rest : Text} :
    dropFolded? literal text = some rest ↔
      ∃ word, lower word = lower literal ∧ text = word ++ rest := by
  constructor
  · intro found
    fun_induction dropFolded? literal text with
    | case1 text =>
        cases found
        exact ⟨[], rfl, rfl⟩
    | case2 => cases found
    | case3 l literal c text same ih =>
        obtain ⟨word, spelled, parts⟩ := ih found
        exact ⟨c :: word, by rw [lower_cons, lower_cons, spelled, same],
          by rw [parts, List.cons_append]⟩
    | case4 => cases found
  · rintro ⟨word, spelled, rfl⟩
    induction word generalizing literal with
    | nil =>
        cases literal with
        | nil => rfl
        | cons l literal => cases spelled
    | cons c word ih =>
        cases literal with
        | nil => cases spelled
        | cons l literal =>
            obtain ⟨head, tail⟩ := List.cons.inj spelled
            rw [List.cons_append, dropFolded?_cons_cons, if_pos head.symm]
            exact ih tail

/-- A text without letters that have a case. -/
def IsCaseless (text : Text) : Prop := ∀ c ∈ text, c.isLower = false ∧ c.toLower = c

instance (text : Text) : Decidable (IsCaseless text) := List.decidableBAll _ text

/-- A caseless word is spelled in one way only. -/
theorem eq_of_lower_eq {literal word : Text} (caseless : IsCaseless literal)
    (spelled : lower word = lower literal) : word = literal := by
  induction word generalizing literal with
  | nil =>
      cases literal with
      | nil => rfl
      | cons l literal => cases spelled
  | cons c word ih =>
      cases literal with
      | nil => cases spelled
      | cons l literal =>
          obtain ⟨head, tail⟩ := List.cons.inj spelled
          obtain ⟨noLetter, fixed⟩ := caseless l List.mem_cons_self
          have same : c = l := (toLower_eq_iff noLetter fixed c).1 (head.trans fixed)
          rw [same, ih (fun d member => caseless d (List.mem_cons_of_mem l member)) tail]

/-- A caseless literal is its own and only terminator. -/
theorem recognizes_literal {literal : Text} (some : literal ≠ [])
    (caseless : IsCaseless literal) :
    Recognizes (dropFolded? literal) (· = literal) where
  drop_iff text rest := by
    rw [dropFolded?_eq_some_iff]
    constructor
    · rintro ⟨word, spelled, parts⟩
      exact ⟨word, eq_of_lower_eq caseless spelled, parts⟩
    · rintro ⟨word, rfl, parts⟩
      exact ⟨word, rfl, parts⟩
  some stop stops := by rwa [stops]
  whole stop before inner behind stops innerStops parts := by
    have sameLength := congrArg List.length parts
    rw [stops, innerStops, List.length_append, List.length_append] at sameLength
    exact List.length_eq_zero_iff.1 (by omega)

/-- What is split off in front of a literal is a body with its end, and nothing is lost. -/
theorem exists_ends_splitAt {literal : Text} (some : literal ≠ [])
    (caseless : IsCaseless literal) (input : Text) :
    ∃ closing, input = (splitAt literal input).1 ++ closing ++ (splitAt literal input).2 ∧
      Ends (· = literal) (splitAt literal input).1 closing (splitAt literal input).2 := by
  rw [splitAt_eq_cutAt]
  exact exists_ends_cutAt (recognizes_literal some caseless) input

/-- A body that something follows is split off at its literal, whatever follows instead. -/
theorem Ends.splitAt_append {literal body closing rest : Text} (some : literal ≠ [])
    (caseless : IsCaseless literal)
    (ends : Ends (· = literal) body closing rest) (more : rest ≠ []) (other : Text) :
    splitAt literal (body ++ closing ++ other) = (body, other) := by
  rw [splitAt_eq_cutAt]
  exact ends.cutAt_append (recognizes_literal some caseless) more other

end HtmlMinifier.Text

/-
# What a rule sees of the text around a tag

A rule looks at the text right before its tag and right behind it, but it sees little of either. Of
the text before it sees whether this is an end tag of a part of a table, and of the text behind it
sees the name of the tag that begins there, if one does. Where these are the same, the rule does
the same.
-/
import HtmlMinifier.Proofs.OptionalTag.Separator

namespace HtmlMinifier.OptionalTag

/-! ## Before a tag -/

/-- A literal that ends at the first stop of a text is all that stands before the stop. -/
theorem startsFolded_append_stop {stop : Char} (noLetter : stop.isLower = false)
    (fixed : stop.toLower = stop) {literal text : Text} (absent : ∀ c ∈ literal, c ≠ stop)
    (solid : ∀ c ∈ text, c ≠ stop) (more : Text) :
    Text.startsFolded (literal ++ [stop]) (text ++ stop :: more) = true ↔
      Text.lower literal = Text.lower text := by
  have differs : ∀ c : Char, c ≠ stop → c.toLower ≠ stop.toLower := by
    intro c other same
    rw [fixed] at same
    exact other ((Text.toLower_eq_iff noLetter fixed c).1 same)
  induction literal generalizing text with
  | nil =>
      cases text with
      | nil => simp [Text.startsFolded, Text.dropFolded?]
      | cons c text =>
          have other := differs c (solid c List.mem_cons_self)
          simp [Text.startsFolded, Text.dropFolded?, other.symm]
  | cons l literal ih =>
      cases text with
      | nil =>
          have other := differs l (absent l List.mem_cons_self)
          simp [Text.startsFolded, Text.dropFolded?, other]
      | cons c text =>
          rw [Text.startsFolded, List.cons_append, List.cons_append, Text.dropFolded?_cons_cons,
            Text.lower_cons, Text.lower_cons, List.cons.injEq]
          by_cases same : l.toLower = c.toLower
          · have further := ih (fun d inside => absent d (List.mem_cons_of_mem l inside))
              (fun d inside => solid d (List.mem_cons_of_mem c inside))
            rw [Text.startsFolded] at further
            rw [if_pos same, and_iff_right same]
            exact further
          · simp [same]

/-- What is compared with the end of a text is compared with what stands behind its last
bracket. -/
theorem endsFolded_iff {literal text : Text} (absent : ∀ c ∈ literal, c ≠ '<')
    (solid : ∀ c ∈ text, c ≠ '<') (more : Text) :
    endsFolded ('<' :: literal) (text.reverse ++ '<' :: more) = true ↔
      Text.lower literal = Text.lower text := by
  have absent' : ∀ c ∈ literal.reverse, c ≠ '<' := fun c inside =>
    absent c (List.mem_reverse.1 inside)
  have solid' : ∀ c ∈ text.reverse, c ≠ '<' := fun c inside => solid c (List.mem_reverse.1 inside)
  rw [endsFolded, List.reverse_cons, startsFolded_append_stop (by decide)
    (by decide) absent' solid',
    Text.lower, Text.lower, List.map_reverse, List.map_reverse, List.reverse_inj, ← Text.lower,
    ← Text.lower]

/-- The elements whose end tags a rule looks for before its tag. -/
def contextNames : List Text := ["colgroup", "thead", "tbody", "tfoot"].map String.toList

/-- Rules look for nothing else before their tags. -/
theorem exists_context : ∀ rule ∈ rules, ∀ literal ∈ rule.precededBy ++ rule.notPrecededBy,
    ∃ name ∈ contextNames, literal = '<' :: ('/' :: name ++ ['>']) := by
  decide

theorem ne_bracket_of_mem_contextNames : ∀ name ∈ contextNames, ∀ c ∈ name, c ≠ '<' := by
  simp [contextNames]

/-- Two texts, given backwards, that no rule tells apart when they stand before its tag. -/
def Alike (first second : Text) : Prop :=
  ∀ name ∈ contextNames, endsFolded ('<' :: ('/' :: name ++ ['>'])) first =
    endsFolded ('<' :: ('/' :: name ++ ['>'])) second

/-- No end tag that a rule looks for has a further bracket in it. -/
theorem ne_bracket_of_context {name : Text} (member : name ∈ contextNames) :
    ∀ c ∈ '/' :: name ++ ['>'], c ≠ '<' := by
  intro c within
  rcases List.mem_append.1 within with front | last
  · rcases List.mem_cons.1 front with rfl | inName
    · decide
    · exact ne_bracket_of_mem_contextNames name member c inName
  · rw [List.mem_singleton.1 last]
    decide

/-! ## Behind a tag -/

/-- Two texts that no rule tells apart when they stand behind its tag: both are empty, both begin
with the same tag, or neither begins with one. -/
inductive SameHead : Text → Text → Prop
  | empty : SameHead [] []
  | tag (inside later later' : Text) :
      SameHead ('<' :: (inside ++ '>' :: later)) ('<' :: (inside ++ '>' :: later'))
  | text {c c' : Char} (solid : c ≠ '<') (solid' : c' ≠ '<') (later later' : Text) :
      SameHead (c :: later) (c' :: later')

/-- A literal without a stop is found in front of the stop or not at all. -/
theorem startsFolded_append_cons {stop : Char} (noLetter : stop.isLower = false)
    (fixed : stop.toLower = stop) {literal : Text} (absent : ∀ c ∈ literal, c ≠ stop)
    (text later : Text) :
    Text.startsFolded literal (text ++ stop :: later) = Text.startsFolded literal text := by
  induction literal generalizing text with
  | nil => rfl
  | cons l literal ih =>
      have differs : l.toLower ≠ stop.toLower := by
        intro same
        rw [fixed] at same
        exact absent l List.mem_cons_self ((Text.toLower_eq_iff noLetter fixed l).1 same)
      cases text with
      | nil =>
          rw [Text.startsFolded, Text.startsFolded, List.nil_append, Text.dropFolded?_cons_cons,
            if_neg differs]
          rfl
      | cons c text =>
          have further := ih (fun d inside => absent d (List.mem_cons_of_mem l inside)) text
          rw [Text.startsFolded, Text.startsFolded] at further
          rw [Text.startsFolded, Text.startsFolded, List.cons_append, Text.dropFolded?_cons_cons,
            Text.dropFolded?_cons_cons]
          split
          · exact further
          · rfl

/-- Whether a context can only be met by a tag or by nothing at all. -/
def Follow.isMarkup : Follow → Bool
  | .literal starts => starts.all fun start => start.head? = some '<' && start.all (· ≠ '>')
  | _ => true

/-- Rules look for tags behind their tags. -/
theorem isMarkup_of_mem_rules : ∀ rule ∈ rules, ∀ follow ∈ rule.followedBy,
    follow.isMarkup = true := by
  decide

/-- Text that is no tag meets no context. -/
theorem accepts_text {follow : Follow} (markup : follow.isMarkup = true) {c : Char}
    (solid : c ≠ '<')
    (later : Text) : follow.accepts (c :: later) = false := by
  cases follow with
  | literal starts =>
      rw [Follow.accepts, List.any_eq_false]
      intro start member found
      rw [Follow.isMarkup, List.all_eq_true] at markup
      obtain ⟨bracket, _⟩ := Bool.and_eq_true_iff.1 (markup start member)
      cases start with
      | nil => cases bracket
      | cons d start =>
          have opens : d = '<' := by simpa using bracket
          have differs : d.toLower ≠ c.toLower := by
            rw [opens]
            intro same
            exact solid ((Text.toLower_eq_iff (by decide) (by decide) c).1 same.symm)
          rw [Text.startsFolded, Text.dropFolded?_cons_cons, if_neg differs] at found
          cases found
  | startTag names =>
      rw [Follow.accepts]
      intro rest same
      exact solid (List.cons.inj same).1
  | endTagExcept names =>
      rw [Follow.accepts]
      intro rest same
      exact solid (List.cons.inj same).1
  | endOfText => rfl

/-- A tag name ends in front of a bracket. -/
theorem tagName_append_bracket (word later : Text) :
    tagName (word ++ '>' :: later) = tagName word := by
  rw [tagName, tagName]
  induction word with
  | nil => rfl
  | cons c word ih =>
      rw [List.cons_append, List.takeWhile_cons, List.takeWhile_cons, ih]

/-- Contexts tell no texts with the same head apart. -/
theorem accepts_congr {follow : Follow} (markup : follow.isMarkup = true) {after after' : Text}
    (same : SameHead after after') : follow.accepts after = follow.accepts after' := by
  cases same with
  | empty => rfl
  | text solid solid' later later' => rw [accepts_text markup solid, accepts_text markup solid']
  | @tag inside later later' =>
      cases follow with
      | literal starts =>
          rw [Follow.isMarkup, List.all_eq_true] at markup
          rw [Follow.accepts, Follow.accepts, Bool.eq_iff_iff, List.any_eq_true, List.any_eq_true]
          refine exists_congr fun start => and_congr_right fun member => ?_
          have absent : ∀ c ∈ start, c ≠ '>' := by
            have plain := (Bool.and_eq_true_iff.1 (markup start member)).2
            simpa using plain
          rw [← List.cons_append, ← List.cons_append,
            startsFolded_append_cons (by decide) (by decide) absent,
            startsFolded_append_cons (by decide) (by decide) absent]
      | startTag names =>
          have longer : ∀ later : Text, (tagName inside).length <
              (inside ++ '>' :: later).length := by
            intro later
            have shorter := (List.takeWhile_prefix (l := inside) Token.isNameChar).length_le
            rw [tagName, List.length_append, List.length_cons]
            omega
          simp only [Follow.accepts, tagName_append_bracket, longer]
      | endTagExcept names =>
          cases inside with
          | nil => rfl
          | cons c inside =>
              by_cases slash : c = '/'
              · rw [slash]
                simp only [Follow.accepts, List.cons_append, tagName_append_bracket]
              · rw [Follow.accepts, Follow.accepts]
                · intro rest same
                  exact slash (List.cons.inj (List.cons.inj same).2).1
                · intro rest same
                  exact slash (List.cons.inj (List.cons.inj same).2).1
      | endOfText => rfl

/-! ## Around a tag -/

/-- A rule tells no texts before its tag apart that are alike. -/
theorem allows_alike {rule : Rule} (member : rule ∈ rules) {before before' : Text}
    (alike : Alike before before') (after : Text) :
    rule.allows before after = rule.allows before' after := by
  have preceded : ∀ literals : List Text,
      (∀ literal ∈ literals, literal ∈ rule.precededBy ++ rule.notPrecededBy) →
      (literals.any fun literal => endsFolded literal before) =
        literals.any fun literal => endsFolded literal before' := by
    intro literals inside
    rw [Bool.eq_iff_iff, List.any_eq_true, List.any_eq_true]
    refine exists_congr fun literal => and_congr_right fun listed => ?_
    obtain ⟨name, context, rfl⟩ := exists_context rule member literal (inside literal listed)
    rw [alike name context]
  rw [Rule.allows, Rule.allows,
    preceded rule.precededBy fun literal inside => List.mem_append_left _ inside,
    preceded rule.notPrecededBy fun literal inside => List.mem_append_right _ inside]

/-- A rule tells no surroundings apart that are alike before its tag and have the same head behind
it, unless it excludes what may follow. -/
theorem allows_congr {rule : Rule} (member : rule ∈ rules) (unbarred : rule.notFollowedBy = [])
    {before before' after after' : Text} (alike : Alike before before')
    (same : SameHead after after') : rule.allows before after = rule.allows before' after' := by
  have followed : (rule.followedBy.any fun follow => follow.accepts after) =
      rule.followedBy.any fun follow => follow.accepts after' := by
    rw [Bool.eq_iff_iff, List.any_eq_true, List.any_eq_true]
    refine exists_congr fun follow => and_congr_right fun listed => ?_
    rw [accepts_congr (isMarkup_of_mem_rules rule member follow listed) same]
  rw [allows_alike member alike, Rule.allows, Rule.allows, unbarred, followed]
  rfl

/-- A rule that asks for something behind its tag does not allow text there. -/
theorem allows_text {rule : Rule} (member : rule ∈ rules) (asks : rule.followedBy ≠ []) {c : Char}
    (solid : c ≠ '<') (before later : Text) : rule.allows before (c :: later) = false := by
  have none : (rule.followedBy.any fun follow => follow.accepts (c :: later)) = false := by
    rw [List.any_eq_false]
    intro follow listed
    rw [accepts_text (isMarkup_of_mem_rules rule member follow listed) solid]
    exact Bool.false_ne_true
  rw [Rule.allows, none, decide_eq_false asks]
  simp

end HtmlMinifier.OptionalTag

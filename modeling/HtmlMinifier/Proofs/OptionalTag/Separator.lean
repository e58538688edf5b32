/-
# Characters that no tag reaches over

The tags of the rules are made of letters, digits and a slash. So what a rule finds never reaches
over a blank, a dash or a further bracket: in front of such a separator a rule finds the same as at
the end of a text, whatever stands behind the separator. The pass of a rule that asks for nothing
therefore treats what stands before a separator and what begins with it apart.
-/
import HtmlMinifier.Proofs.OptionalTag.Tag

namespace HtmlMinifier.OptionalTag

/-- The characters that separate: brackets, dashes and blanks. -/
def separators : List Char := ['<', '-', ' ', '\t', '\n', '\x0c', '\r']

theorem bracket_mem_separators : '<' ∈ separators := by decide

theorem dash_mem_separators : '-' ∈ separators := by decide

theorem mem_separators_of_isBlank {c : Char} (blank : Text.isBlank c = true) : c ∈ separators := by
  simp only [Text.isBlank, Bool.or_eq_true, decide_eq_true_eq] at blank
  rcases blank with (((rfl | rfl) | rfl) | rfl) | rfl <;> decide

/-- No tag of the table has a separator in it. -/
theorem ne_of_mem_tag : ∀ rule ∈ rules, ∀ tag ∈ rule.tags, ∀ c ∈ tag ++ ['>'], ∀ d ∈ separators,
    fold c ≠ fold d := by
  have checked : ∀ rule ∈ rules, ∀ tag ∈ rule.tags,
      (tag ++ ['>']).all (fun c => separators.all fun d => fold c != fold d) = true := by
    decide +kernel
  intro rule member tag inside c ofTag d separates
  have apart := List.all_eq_true.1 (List.all_eq_true.1 (checked rule member tag inside) c ofTag) d
    separates
  exact bne_iff_ne.1 apart

/-- Whether a literal is found does not depend on what begins with a character that the literal
does not have. -/
theorem matchLiteral?_append_cons {literal : Text} {d : Char}
    (absent : ∀ l ∈ literal, fold l ≠ fold d)
    (text later : Text) :
    matchLiteral? literal (text ++ d :: later) =
      (matchLiteral? literal text).map fun found => (found.1, found.2 ++ d :: later) := by
  induction literal generalizing text with
  | nil => rfl
  | cons l literal ih =>
      have shorter := ih fun k inside => absent k (List.mem_cons_of_mem l inside)
      cases text with
      | nil =>
          rw [List.nil_append, matchLiteral?, matchLiteral?, if_neg (absent l List.mem_cons_self)]
          rfl
      | cons c text =>
          rw [List.cons_append, matchLiteral?, matchLiteral?]
          split
          · rw [shorter text]
            cases matchLiteral? literal text <;> rfl
          · rfl

/-- A rule finds a tag in front of a separator if and only if it finds it at the end of a text. -/
theorem matchTag?_append_separator {rule : Rule} (member : rule ∈ rules) {d : Char}
    (separates : d ∈ separators) (c : Char) (text later : Text) :
    matchTag? rule.tags (c :: text ++ d :: later) =
      (matchTag? rule.tags (c :: text)).map fun found => (found.1, found.2 ++ d :: later) := by
  have each : ∀ tag ∈ rule.tags, matchLiteral? ('<' :: tag ++ ['>']) (c :: text ++ d :: later) =
      (matchLiteral? ('<' :: tag ++ ['>']) (c :: text)).map
        fun found => (found.1, found.2 ++ d :: later) := by
    intro tag inTags
    have absent : ∀ l ∈ tag ++ ['>'], fold l ≠ fold d := fun l inside =>
      ne_of_mem_tag rule member tag inTags l inside d separates
    rw [List.cons_append, List.cons_append, matchLiteral?, matchLiteral?]
    split
    · rw [matchLiteral?_append_cons absent]
      cases matchLiteral? (tag ++ ['>']) text <;> rfl
    · rfl
  rw [matchTag?, matchTag?]
  generalize rule.tags = tags at each
  induction tags with
  | nil => rfl
  | cons tag tags ih =>
      rw [List.findSome?_cons, List.findSome?_cons, each tag List.mem_cons_self]
      cases matchLiteral? ('<' :: tag ++ ['>']) (c :: text) with
      | some found => rfl
      | none => exact ih fun other inside => each other (List.mem_cons_of_mem tag inside)

/-- A tag that is found ends with the first bracket that closes. -/
theorem exists_of_matchTag? {rule : Rule} (member : rule ∈ rules) {text taken rest : Text}
    (found : matchTag? rule.tags text = some (taken, rest)) :
    ∃ inner, taken = inner ++ ['>'] ∧ '>' ∉ inner := by
  obtain ⟨word, whole, inTags⟩ := exists_word_of_matchTag? member found
  have parts : taken ++ rest = '<' :: (word ++ ['>']) ++ rest := by
    rw [(append_of_matchTag? found).1, whole]
    simp
  refine ⟨'<' :: word, List.append_cancel_right parts, fun inside => ?_⟩
  rcases List.mem_cons.1 inside with first | inWord
  · exact absurd first (by decide)
  · exact (ne_bracket_of_map_fold member inTags _ inWord).2 rfl

/-- What a rule takes along from behind its tag is the same in front of a character that it
leaves. -/
theorem Rule.behind_append (rule : Rule) {d : Char}
    (stays : rule.trailingBlank = false ∨ Text.isBlank d = false) (text later : Text) :
    rule.behind (text ++ d :: later) =
    ((rule.behind text).1, (rule.behind text).2 ++ d :: later) := by
  rw [Rule.behind, Rule.behind]
  split
  · next takes =>
      have solid : Text.isBlank d = false := stays.resolve_left (by simp [takes])
      cases text with
      | nil => simp [takeBlank, solid]
      | cons c text =>
          rw [List.cons_append, takeBlank, takeBlank]
          split <;> rfl
  · rfl

/-- What a rule finds in front of a separator it finds without what stands there. -/
theorem Rule.match?_append_separator {rule : Rule} (member : rule ∈ rules) {d : Char}
    (separates : d ∈ separators) (stays : rule.trailingBlank = false ∨ Text.isBlank d = false)
    (c : Char) (text later : Text) :
    rule.match? (c :: (text ++ d :: later)) =
      (rule.match? (c :: text)).map fun found => (found.1, found.2 ++ d :: later) := by
  have both := matchTag?_append_separator member separates c text later
  rw [List.cons_append] at both
  rw [Rule.match?_eq, Rule.match?_eq, both, Option.map_map, Option.map_map]
  congr 1
  funext found
  rw [Function.comp_apply, Function.comp_apply, rule.behind_append stays]

/-! ## Rules that ask for nothing -/

/-- A rule of the table that takes out its tags wherever they stand. -/
structure Rule.IsFree (rule : Rule) : Prop where
  inTable : rule ∈ rules
  allows : ∀ reversedBefore after, rule.allows reversedBefore after = true

/-- A rule that names no surroundings asks for none. -/
theorem Rule.isFree_of_nil {rule : Rule} (inTable : rule ∈ rules)
    (unnamed : rule.precededBy = [] ∧ rule.notPrecededBy = [] ∧ rule.notFollowedBy = [] ∧
      rule.followedBy = []) : rule.IsFree := by
  obtain ⟨before, notBefore, notBehind, behind⟩ := unnamed
  refine ⟨inTable, fun reversedBefore after => ?_⟩
  rw [Rule.allows, before, notBefore, notBehind, behind]
  rfl

namespace Rule.IsFree

variable {rule : Rule} (free : rule.IsFree)
include free

/-- Such a rule does not look at what stands before a text. -/
theorem passAfter_eq_pass (reversedBefore text : Text) :
    rule.passAfter reversedBefore text = rule.pass text := by
  apply Rule.passAfter_congr
  intro consumed after
  rw [free.allows, free.allows]

/-- Where such a rule finds something, its pass takes it out. -/
theorem pass_of_found {c : Char} {text taken rest : Text}
    (found : rule.match? (c :: text) = some (taken, rest)) :
    rule.pass (c :: text) = rule.pass rest := by
  rw [Rule.pass, Rule.passAfter_remove found (free.allows _ _), free.passAfter_eq_pass]

/-- Where such a rule finds nothing, its pass goes on behind the next character. -/
theorem pass_of_missing {c : Char} {text : Text} (missing : rule.match? (c :: text) = none) :
    rule.pass (c :: text) = c :: rule.pass text := by
  rw [Rule.pass, Rule.passAfter_cons missing, free.passAfter_eq_pass]

/-- What stands before a separator and what begins with it are treated apart. -/
theorem pass_append_separator {d : Char} (separates : d ∈ separators)
    (stays : rule.trailingBlank = false ∨ Text.isBlank d = false) (first later : Text) :
    rule.pass (first ++ d :: later) = rule.pass first ++ rule.pass (d :: later) := by
  induction first using rule.pass_induction with
  | nil =>
      have none : rule.pass [] = [] := by rw [Rule.pass, Rule.passAfter]
      rw [none, List.nil_append, List.nil_append]
  | cons c first tail behind =>
      have both := Rule.match?_append_separator free.inTable separates stays c first later
      rw [List.cons_append]
      cases found : rule.match? (c :: first) with
      | none =>
          rw [found] at both
          rw [free.pass_of_missing both, free.pass_of_missing found, tail, List.cons_append]
      | some parts =>
          rw [found] at both
          rw [free.pass_of_found both, free.pass_of_found found, behind _ _ found]

end Rule.IsFree

end HtmlMinifier.OptionalTag

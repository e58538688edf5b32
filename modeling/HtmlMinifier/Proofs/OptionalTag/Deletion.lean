/-
# Nothing but tags is taken out

A pass takes several tags out of a text at once, and a pass may see tags that an earlier one has
joined from the parts around what it took out. Still everything that all passes do is done by
taking out one tag after the other, each from the text that the ones before have left, and with it
one blank at most. So brackets go in pairs, and a word in brackets that is no tag of a rule stays
in its place among the others.
-/
import HtmlMinifier.Proofs.OptionalTag.Frame
import HtmlMinifier.Proofs.Text.Bracketed
import HtmlMinifier.Proofs.Token.Segment
import Mathlib.Logic.Relation

namespace HtmlMinifier.OptionalTag

/-! ## One deletion -/

/-- The tags of the document skeleton, without their brackets. -/
def frameTags : List Text := frameNames.flatMap fun name => [name, '/' :: name]

/-- Whether a word in brackets is the tag of a rule that the policy admits. -/
def isRuleWord (strict : Bool) (word : Text) : Bool :=
  (activeRules strict).any fun rule => rule.tags.contains (word.map fold)

/-- One tag of a rule is taken out of a text. A blank behind it may go with it, unless it is a tag
of the document skeleton. -/
inductive Deletes (strict : Bool) : Text → Text → Prop
  | tag {word : Text} (found : isRuleWord strict word = true) (before after : Text) :
      Deletes strict (before ++ '<' :: (word ++ '>' :: after)) (before ++ after)
  | tagAndBlank {word : Text} (found : isRuleWord strict word = true)
      (noFrame : word.map fold ∉ frameTags) {c : Char} (blank : Text.isBlank c = true)
      (before after : Text) :
      Deletes strict (before ++ '<' :: (word ++ '>' :: c :: after)) (before ++ after)

/-- A rule that takes a blank along is no rule for the document skeleton. -/
theorem notMem_frameTags_of_trailingBlank : ∀ rule ∈ rules, rule.trailingBlank = true →
    ∀ tag ∈ rule.tags, tag ∉ frameTags := by
  decide +kernel

theorem exists_cons_of_takeBlank (text : Text) :
    (takeBlank text).2 = text ∨ ∃ c, Text.isBlank c = true ∧ text = c :: (takeBlank text).2 := by
  cases text with
  | nil => exact .inl rfl
  | cons c text =>
      rw [takeBlank]
      split
      · next blank => exact .inr ⟨c, blank, rfl⟩
      · exact .inl rfl

/-- What a rule splits off at the head of a part of a text is one deletion. -/
theorem deletes_of_match? {strict : Bool} {rule : Rule} (used : rule ∈ activeRules strict)
    {text taken rest : Text} (found : rule.match? text = some (taken, rest)) (before : Text) :
    Deletes strict (before ++ text) (before ++ rest) := by
  have member : rule ∈ rules := (List.mem_filter.1 used).1
  obtain ⟨word, behind, rfl, inTags, rfl⟩ := Rule.exists_word_of_match? member found
  have isWord : isRuleWord strict word = true :=
    List.any_eq_true.2 ⟨rule, used, List.contains_iff_mem.2 inTags⟩
  cases takes : rule.trailingBlank with
  | false =>
      rw [Rule.behind, takes, if_neg Bool.false_ne_true]
      exact .tag isWord before behind
  | true =>
      rw [Rule.behind, takes, if_pos rfl]
      rcases exists_cons_of_takeBlank behind with none | ⟨c, blank, some⟩
      · rw [none]
        exact .tag isWord before behind
      · have noFrame := notMem_frameTags_of_trailingBlank rule member takes _ inTags
        have deleted := Deletes.tagAndBlank isWord noFrame blank before (takeBlank behind).2
        rwa [← some] at deleted

/-! ## What a deletion leaves -/

/-- The characters of the tag of a rule are no brackets. -/
theorem ne_bracket_of_isRuleWord {strict : Bool} {word : Text}
    (found : isRuleWord strict word = true) :
    ∀ c ∈ word, c ≠ '<' ∧ c ≠ '>' := by
  obtain ⟨rule, used, inTags⟩ := List.any_eq_true.1 found
  exact ne_bracket_of_map_fold (List.mem_filter.1 used).1 (List.contains_iff_mem.1 inTags)

namespace Deletes

variable {strict : Bool} {text left : Text}

theorem sublist (deletes : Deletes strict text left) : left.Sublist text := by
  cases deletes with
  | @tag word found before after =>
      refine List.Sublist.append_left ?_ before
      exact ((List.sublist_cons_self _ after).trans (List.sublist_append_right word _)).cons '<'
  | @tagAndBlank word found noFrame c blank before after =>
      refine List.Sublist.append_left ?_ before
      have behind : after.Sublist ('>' :: c :: after) :=
        (List.sublist_cons_self c after).trans (List.sublist_cons_self '>' _)
      exact (behind.trans (List.sublist_append_right word _)).cons '<'

/-- One bracket of each kind is taken out. -/
theorem count_brackets (deletes : Deletes strict text left) :
    text.count '<' = left.count '<' + 1 ∧ text.count '>' = left.count '>' + 1 := by
  have absent : ∀ {word : Text}, isRuleWord strict word = true →
      word.count '<' = 0 ∧ word.count '>' = 0 := by
    intro word found
    have solid := ne_bracket_of_isRuleWord found
    exact ⟨List.count_eq_zero.2 fun inside => (solid _ inside).1 rfl,
      List.count_eq_zero.2 fun inside => (solid _ inside).2 rfl⟩
  cases deletes with
  | tag found before after =>
      obtain ⟨noOpen, noClose⟩ := absent found
      simp [noOpen, noClose]
      omega
  | @tagAndBlank word found noFrame c blank before after =>
      obtain ⟨noOpen, noClose⟩ := absent found
      have other : c ≠ '<' ∧ c ≠ '>' := by
        constructor <;> rintro rfl <;> exact absurd blank (by decide)
      simp [noOpen, noClose, other.1, other.2]
      omega

/-- Every word in brackets that is no tag of a rule is left. -/
theorem bracketed_sublist (deletes : Deletes strict text left) :
    ((Text.bracketed text).filter fun word => !isRuleWord strict word).Sublist
      ((Text.bracketed left).filter fun word => !isRuleWord strict word) := by
  have parted : ∀ {word before after behind : Text}, isRuleWord strict word = true →
      Text.bracketed behind = Text.bracketed after →
      ((Text.bracketed (before ++ '<' :: (word ++ '>' :: behind))).filter
          fun word => !isRuleWord strict word).Sublist
        ((Text.bracketed (before ++ after)).filter fun word => !isRuleWord strict word) := by
    intro word before after behind found same
    rw [Text.bracketed_append_word (ne_bracket_of_isRuleWord found), same, List.filter_append,
      List.filter_cons_of_neg (by simp [found]), ← List.filter_append]
    exact (Text.bracketedFrom_append_sublist none before after).filter _
  cases deletes with
  | tag found before after => exact parted found rfl
  | @tagAndBlank word found noFrame c blank before after =>
      have other : c ≠ '<' ∧ c ≠ '>' := by
        constructor <;> rintro rfl <;> exact absurd blank (by decide)
      refine parted found ?_
      rw [Text.bracketed, Text.bracketedFrom, if_neg other.1, if_neg other.2]
      rfl

end Deletes

/-! ## All deletions -/

open Relation (ReflTransGen)

/-- A pass over a part of a text is done by deletions. -/
theorem Rule.deletes_passAfter {strict : Bool} {rule : Rule} (used : rule ∈ activeRules strict)
    (reversedBefore before text : Text) :
    ReflTransGen (Deletes strict) (before ++ text)
    (before ++ rule.passAfter reversedBefore text) := by
  induction text using rule.pass_induction generalizing before reversedBefore with
  | nil => rw [Rule.passAfter]
  | cons c text tail behind =>
      by_cases removes : ∃ taken rest, rule.match? (c :: text) = some (taken, rest) ∧
          rule.allows reversedBefore rest = true
      · obtain ⟨taken, rest, found, allowed⟩ := removes
        rw [Rule.passAfter_remove found allowed]
        exact .head (deletes_of_match? used found before) (behind _ _ found _ before)
      · have keeps : ∀ taken rest, rule.match? (c :: text) = some (taken, rest) →
            rule.allows reversedBefore rest = false := by
          intro taken rest found
          exact Bool.eq_false_iff.2 fun allowed => removes ⟨taken, rest, found, allowed⟩
        rw [Rule.passAfter_keep keeps]
        simpa using tail (c :: reversedBefore) (before ++ [c])

/-- All passes are done by deletions. -/
theorem deletes_applyAll {strict : Bool} {used : List Rule}
    (active : ∀ rule ∈ used, rule ∈ activeRules strict) (text : Text) :
    ReflTransGen (Deletes strict) text (applyAll used text) := by
  induction used generalizing text with
  | nil => exact .refl
  | cons rule used ih =>
      obtain ⟨first, later⟩ := List.forall_mem_cons.1 active
      exact (Rule.deletes_passAfter first [] [] text).trans (ih later _)

/-! ## Start tags with attributes -/

/-- Whether a text begins with a start tag that has attributes. -/
def opensWithAttributes (text : Text) : Bool :=
  match (Token.readConstruct text).1 with
  | .startTag _ (_ :: _) _ :: _ => true
  | _ => false

theorem opensWithAttributes_of_opening {text : Text}
    (other : Token.Opening.of? text ≠ some .startTag) :
    opensWithAttributes text = false := by
  rw [opensWithAttributes, Token.readConstruct]
  cases opens : Token.Opening.of? text with
  | none => rfl
  | some opening =>
      cases opening with
      | startTag => exact absurd opens other
      | _ => rfl

/-- The tag of a rule that is no end tag is made of letters that nothing but letters is folded
to. -/
theorem plainLetters_of_mem_rules : ∀ rule ∈ rules, ∀ tag ∈ rule.tags,
    tag.head? = some '/' ∨ tag ≠ [] ∧ ∀ c ∈ tag, c.isLower = true ∧ c ≠ 's' ∧ c ≠ 'k' := by
  have checked : ∀ rule ∈ rules, ∀ tag ∈ rule.tags, tag.head? = some '/' ∨
      tag ≠ [] ∧ tag.all (fun c => c.isLower && (c != 's' && c != 'k')) = true := by
    decide +kernel
  intro rule member tag inside
  refine (checked rule member tag inside).imp_right fun ⟨named, plain⟩ => ⟨named,
    fun c letter => ?_⟩
  obtain ⟨isLower, others⟩ := Bool.and_eq_true_iff.1 (List.all_eq_true.1 plain c letter)
  obtain ⟨noS, noK⟩ := Bool.and_eq_true_iff.1 others
  exact ⟨isLower, bne_iff_ne.1 noS, bne_iff_ne.1 noK⟩

/-- What is folded to a letter other than `s` and `k` is a letter. -/
theorem isAlpha_of_fold {c : Char} (isLower : (fold c).isLower = true) (noS : fold c ≠ 's')
    (noK : fold c ≠ 'k') : c.isAlpha = true := by
  unfold fold at isLower noS noK
  split at noS
  · exact absurd rfl noS
  · next noLong =>
      rw [if_neg noLong] at isLower noK
      split at noK
      · exact absurd rfl noK
      · next noKelvin =>
          rw [if_neg noKelvin] at isLower
          exact Token.isAlpha_of_isLower_toLower isLower

/-- No tag of a rule is a start tag with attributes. -/
theorem opensWithAttributes_of_isRuleWord {strict : Bool} {word : Text}
    (found : isRuleWord strict word = true) (later : Text) :
    opensWithAttributes ('<' :: (word ++ '>' :: later)) = false := by
  obtain ⟨rule, used, inTags⟩ := List.any_eq_true.1 found
  have inTags : word.map fold ∈ rule.tags := List.contains_iff_mem.1 inTags
  rcases plainLetters_of_mem_rules rule (List.mem_filter.1 used).1 _ inTags with slash | ⟨some,
    letters⟩
  · obtain ⟨name, same⟩ := List.head?_eq_some_iff.1 slash
    obtain ⟨c, rest, rfl, folded, _⟩ := List.map_eq_cons_iff.1 same
    obtain rfl := (fold_eq_iff (by decide) (by decide) c).1 folded
    refine opensWithAttributes_of_opening fun opens => ?_
    exact absurd ((Token.isAlpha_of_opening opens).2 rfl) (by decide)
  · have alpha : ∀ c ∈ word, c.isAlpha = true := by
      intro c inside
      obtain ⟨isLower, noS, noK⟩ := letters (fold c) (List.mem_map_of_mem inside)
      exact isAlpha_of_fold isLower noS noK
    have spelled : Token.IsSpelledName word ('>' :: later) := by
      obtain ⟨c, rest, rfl⟩ := List.exists_cons_of_ne_nil (List.map_eq_nil_iff.not.1 some)
      refine ⟨⟨c, rest, rfl, alpha c List.mem_cons_self⟩, ?_, ?_⟩
      · intro d inside
        exact Token.isNameChar_of_isAlpha (alpha d inside)
      · intro d first
        cases first
        rfl
    have bare := Token.readConstruct_startTag spelled (Token.readAttributes_close later)
    rw [opensWithAttributes, bare]
    split_ifs <;> rfl

/-! ## Everything that is left out -/

section

variable {strict : Bool} {text left : Text}

theorem sublist_of_deletions (deletions : ReflTransGen (Deletes strict) text left) :
    left.Sublist text := by
  induction deletions with
  | refl => exact List.Sublist.refl text
  | tail _ last ih => exact last.sublist.trans ih

/-- As many brackets of one kind are taken out as of the other. -/
theorem count_brackets_of_deletions (deletions : ReflTransGen (Deletes strict) text left) :
    ∃ removed, text.count '<' = left.count '<' + removed ∧ text.count '>' =
    left.count '>' + removed := by
  induction deletions with
  | refl => exact ⟨0, rfl, rfl⟩
  | tail _ last ih =>
      obtain ⟨removed, opens, closes⟩ := ih
      obtain ⟨lastOpens, lastCloses⟩ := last.count_brackets
      exact ⟨removed + 1, by omega, by omega⟩

/-- Every word in brackets that is no tag of a rule is left, in its order. -/
theorem bracketed_sublist_of_deletions (deletions : ReflTransGen (Deletes strict) text left) :
    ((Text.bracketed text).filter fun word => !isRuleWord strict word).Sublist
      (Text.bracketed left) := by
  have kept : ((Text.bracketed text).filter fun word => !isRuleWord strict word).Sublist
      ((Text.bracketed left).filter fun word => !isRuleWord strict word) := by
    induction deletions with
    | refl => exact List.Sublist.refl _
    | tail _ last ih => exact ih.trans last.bracketed_sublist
  exact kept.trans List.filter_sublist

end

/-- What is left of a text without its optional tags comes from taking out tags of rules one by
one. It is a subsequence of the text, as many brackets of one kind are missing as of the other, and
the words in brackets that are no tags of rules are still there in their order. Start tags with
attributes are among these. -/
theorem elide_deletes_tags (strict : Bool) (text : Text) :
    ReflTransGen (Deletes strict) text (elide strict text) ∧
    (elide strict text).Sublist text ∧
    (∃ removed, text.count '<' = (elide strict text).count '<' + removed ∧
      text.count '>' = (elide strict text).count '>' + removed) ∧
    ((Text.bracketed text).filter fun word => !isRuleWord strict word).Sublist
      (Text.bracketed (elide strict text)) ∧
    ∀ word later, ¬(isRuleWord strict word = true ∧
      opensWithAttributes ('<' :: (word ++ '>' :: later)) = true) := by
  have deletions : ReflTransGen (Deletes strict) text (elide strict text) :=
    deletes_applyAll (fun _ used => used) text
  refine ⟨deletions, sublist_of_deletions deletions, count_brackets_of_deletions deletions,
    bracketed_sublist_of_deletions deletions, ?_⟩
  rintro word later ⟨found, opens⟩
  rw [opensWithAttributes_of_isRuleWord found later] at opens
  exact absurd opens Bool.false_ne_true

end HtmlMinifier.OptionalTag

/-
# End tags of void elements

The last rule takes out the end tags of void elements, wherever they stand. It goes through the
text only once and does not see again what it joins. So the end tag of a void element is left if
and only if its parts stand around others when the last pass begins. That cannot happen to a text
in which no bracket opens directly behind the beginning of such a tag, and so to no document that
is written without scripts, styles and comments.
-/
import HtmlMinifier.Proofs.OptionalTag.Deletion

namespace HtmlMinifier.OptionalTag

open Canonical (Piece textOf)
open Relation (ReflTransGen)

/-! ## The last rule -/

/-- The rule that takes out end tags of void elements. -/
def voidEnd : Rule := { name := "void-end", tags := Element.voidNames.map fun name => '/' :: name }

/-- The rules that are used before it. -/
def earlierRules (strict : Bool) : List Rule := (activeRules strict).dropLast

theorem activeRules_eq (strict : Bool) :
    activeRules strict = earlierRules strict ++ [voidEnd] := by
  cases strict <;> rfl

theorem elide_eq_pass_voidEnd (strict : Bool) (text : Text) :
    elide strict text = voidEnd.pass (applyAll (earlierRules strict) text) := by
  rw [elide, activeRules_eq, applyAll, List.foldl_append]
  rfl

theorem isFree_voidEnd : voidEnd.IsFree := Rule.isFree_of_nil (by decide) (by decide)

/-- The rule takes along the blank behind its tag. -/
theorem behind_voidEnd (later : Text) : voidEnd.behind later = takeBlank later := rfl

/-! ## Written end tags -/

/-- The end tag of a void element, in any ASCII case. -/
def IsVoidEnd (text : Text) : Prop :=
  ∃ name ∈ Element.voidNames, Text.lower text = '<' :: '/' :: name ++ ['>']

instance (text : Text) : Decidable (IsVoidEnd text) :=
  inferInstanceAs (Decidable (∃ name ∈ Element.voidNames, _))

/-- Somewhere in the text stands the end tag of a void element. -/
def HasVoidEnd (text : Text) : Prop := ∃ tag, IsVoidEnd tag ∧ tag <:+: text

/-- What has the letters of a tag in lower case has them after folding. -/
theorem map_fold_of_lower {text tag : Text} (same : Text.lower text = tag)
    (plain : '\u017f' ∉ tag ∧ '\u212a' ∉ tag) : text.map fold = tag := by
  rw [← same, Text.lower]
  refine List.map_congr_left fun c inside => ?_
  have lowered : c.toLower ∈ tag := by
    rw [← same]
    exact List.mem_map_of_mem inside
  have apart : c ≠ '\u017f' ∧ c ≠ '\u212a' := by
    constructor
    · rintro rfl
      exact plain.1 lowered
    · rintro rfl
      exact plain.2 lowered
  rw [fold, if_neg apart.1, if_neg apart.2]

/-- The end tag of a void element is a word in brackets that the rule has among its tags. -/
theorem IsVoidEnd.exists_tag {text : Text} (isEnd : IsVoidEnd text) :
    ∃ tag, text = '<' :: (tag ++ ['>']) ∧ tag.map fold ∈ voidEnd.tags := by
  obtain ⟨name, void, lower⟩ := isEnd
  have plain : ∀ name ∈ Element.voidNames, '\u017f' ∉ '<' :: '/' :: name ++ ['>'] ∧
      '\u212a' ∉ '<' :: '/' :: name ++ ['>'] := by
    decide
  obtain ⟨tag, whole, folded⟩ := exists_word_of_map_fold
    (map_fold_of_lower lower (plain name void))
  refine ⟨tag, whole, ?_⟩
  rw [folded]
  exact List.mem_map_of_mem void

/-! ## Interrupted words -/

/-- A text is a word with end tags of void elements in front of some of its characters. The last
pass takes these out, each with the blank behind it. -/
inductive Interrupted : Text → Text → Prop
  | last (c : Char) : Interrupted [c] [c]
  | keep (c : Char) {word text : Text} (further : Interrupted word text) :
      Interrupted (c :: word) (c :: text)
  | tag {tag : Text} (found : tag.map fold ∈ voidEnd.tags) {word text : Text}
      (further : Interrupted word text) : Interrupted word ('<' :: (tag ++ '>' :: text))
  | tagAndBlank {tag : Text} (found : tag.map fold ∈ voidEnd.tags) {c : Char}
      (blank : Text.isBlank c = true) {word text : Text} (further : Interrupted word text) :
      Interrupted word ('<' :: (tag ++ '>' :: c :: text))

namespace Interrupted

variable {word text : Text} (interrupted : Interrupted word text)
include interrupted

theorem word_ne_nil : word ≠ [] := by
  induction interrupted with
  | last c => exact List.cons_ne_nil c []
  | keep c further ih => exact List.cons_ne_nil c _
  | tag found further ih => exact ih
  | tagAndBlank found blank further ih => exact ih

/-- An interrupted word begins with a character of the word or with a bracket. -/
theorem exists_head : ∃ c rest, text = c :: rest ∧ (c ∈ word ∨ c = '<') := by
  cases interrupted with
  | last c => exact ⟨c, [], rfl, .inl List.mem_cons_self⟩
  | keep c further => exact ⟨c, _, rfl, .inl List.mem_cons_self⟩
  | tag found further => exact ⟨'<', _, rfl, .inr rfl⟩
  | tagAndBlank found blank further => exact ⟨'<', _, rfl, .inr rfl⟩

/-- Where a word is interrupted first, a bracket opens behind its beginning. -/
theorem exists_break (differs : text ≠ word) :
    ∃ begun rest later, word = begun ++ rest ∧ rest ≠ [] ∧ text = begun ++ '<' :: later := by
  induction interrupted with
  | last c => exact absurd rfl differs
  | keep c further ih =>
      obtain ⟨begun, rest, later, rfl, some, rfl⟩ := ih fun same => differs (by rw [same])
      exact ⟨c :: begun, rest, later, rfl, some, rfl⟩
  | tag found further ih => exact ⟨[], _, _, rfl, further.word_ne_nil, rfl⟩
  | tagAndBlank found blank further ih => exact ⟨[], _, _, rfl, further.word_ne_nil, rfl⟩

/-- The last pass puts an interrupted word together. -/
theorem pass_append (solid : ∀ c ∈ word, c ≠ '<' ∧ Text.isBlank c = false) (later : Text) :
    voidEnd.pass (text ++ later) = word ++ voidEnd.pass later := by
  induction interrupted with
  | last c =>
      obtain ⟨noBracket, _⟩ := solid c List.mem_cons_self
      exact isFree_voidEnd.pass_of_missing (Rule.match?_of_ne_bracket _ noBracket later)
  | @keep c word text further ih =>
      obtain ⟨⟨noBracket, _⟩, others⟩ := List.forall_mem_cons.1 solid
      rw [List.cons_append, isFree_voidEnd.pass_of_missing (Rule.match?_of_ne_bracket _ noBracket
        _),
        ih others]
      rfl
  | @tag tag found word text further ih =>
      have whole : '<' :: (tag ++ '>' :: text) ++ later = '<' ::
          (tag ++ '>' :: (text ++ later)) := by
        simp
      -- What follows the tag is no blank, so the rule takes nothing along.
      have leaves : (voidEnd.behind (text ++ later)).2 = text ++ later := by
        rw [behind_voidEnd]
        obtain ⟨c, rest, rfl, inWord | bracket⟩ := further.exists_head
        · rw [List.cons_append, takeBlank, if_neg (by simp [(solid c inWord).2])]
        · rw [bracket]
          rfl
      rw [whole, isFree_voidEnd.pass_of_found (Rule.match?_of_word isFree_voidEnd.inTable found _),
        leaves, ih solid]
  | @tagAndBlank tag found c blank word text further ih =>
      have whole : '<' :: (tag ++ '>' :: c :: text) ++ later =
          '<' :: (tag ++ '>' :: c :: (text ++ later)) := by
        simp
      have leaves : (voidEnd.behind (c :: (text ++ later))).2 = text ++ later := by
        rw [behind_voidEnd, takeBlank, if_pos blank]
      rw [whole, isFree_voidEnd.pass_of_found (Rule.match?_of_word isFree_voidEnd.inTable found _),
        leaves, ih solid]

end Interrupted

/-- What is left behind a character that is left comes from what stands behind that character, and
nothing was found where it stands. -/
theorem exists_of_pass_eq_cons {text before rest : Text} {c : Char}
    (leaves : voidEnd.pass text = before ++ c :: rest) :
    ∃ front later, text = front ++ c :: later ∧ voidEnd.match? (c :: later) = none ∧
      voidEnd.pass later = rest := by
  induction text using voidEnd.pass_induction generalizing before with
  | nil => simp [Rule.pass, Rule.passAfter] at leaves
  | cons d text tail behind =>
      cases found : voidEnd.match? (d :: text) with
      | none =>
          rw [isFree_voidEnd.pass_of_missing found] at leaves
          cases before with
          | nil =>
              obtain ⟨rfl, same⟩ := List.cons.inj leaves
              exact ⟨[], text, rfl, found, same⟩
          | cons e before =>
              obtain ⟨front, later, rfl, missing, same⟩ := tail (List.cons.inj leaves).2
              exact ⟨d :: front, later, rfl, missing, same⟩
      | some parts =>
          obtain ⟨taken, left⟩ := parts
          rw [isFree_voidEnd.pass_of_found found] at leaves
          obtain ⟨front, later, rfl, missing, same⟩ := behind _ _ found leaves
          refine ⟨taken ++ front, later, ?_, missing, same⟩
          rw [← (Rule.append_of_match? found).1, List.append_assoc]

/-- What the last pass leaves as a word was that word, perhaps interrupted. -/
theorem exists_interrupted_of_pass {text word rest : Text} (some : word ≠ [])
    (leaves : voidEnd.pass text = word ++ rest) :
    ∃ spread later, text = spread ++ later ∧ Interrupted word spread := by
  induction text using voidEnd.pass_induction generalizing word with
  | nil =>
      rw [Rule.pass, Rule.passAfter] at leaves
      exact absurd (List.append_eq_nil_iff.1 leaves.symm).1 some
  | cons d text tail behind =>
      cases found : voidEnd.match? (d :: text) with
      | none =>
          rw [isFree_voidEnd.pass_of_missing found] at leaves
          obtain ⟨c, word, rfl⟩ := List.exists_cons_of_ne_nil some
          obtain ⟨rfl, same⟩ := List.cons.inj leaves
          by_cases isLast : word = []
          · rw [isLast]
            exact ⟨[d], text, rfl, .last d⟩
          · obtain ⟨spread, later, rfl, further⟩ := tail isLast same
            exact ⟨d :: spread, later, rfl, .keep d further⟩
      | some parts =>
          rw [isFree_voidEnd.pass_of_found found] at leaves
          obtain ⟨spread, later, parted, further⟩ := behind _ _ found some leaves
          obtain ⟨tag, left, whole, inTags, same⟩ :=
            Rule.exists_word_of_match? isFree_voidEnd.inTable found
          rw [same, behind_voidEnd] at parted
          rw [whole]
          rcases exists_cons_of_takeBlank left with none | ⟨c, blank, more⟩
          · rw [none] at parted
            exact ⟨'<' :: (tag ++ '>' :: spread), later, by simp [parted], .tag inTags further⟩
          · rw [more, parted]
            exact ⟨'<' :: (tag ++ '>' :: c :: spread), later, by simp,
              .tagAndBlank inTags blank further⟩

/-! ## One pass -/

/-- Behind its first character the end tag of a void element has neither opening brackets nor
blanks. -/
theorem solid_of_map_fold {tag : Text} (inTags : tag.map fold ∈ voidEnd.tags) :
    ∀ c ∈ tag ++ ['>'], c ≠ '<' ∧ Text.isBlank c = false := by
  intro c inside
  have noSeparator : c ∉ separators := by
    intro separates
    have checked : separators.all (fun d => fold d == d) = true := by decide
    have fixed : fold c = c := beq_iff_eq.1 (List.all_eq_true.1 checked c separates)
    have folded : fold c ∈ tag.map fold ++ ['>'] := by
      rcases List.mem_append.1 inside with inTag | closing
      · exact List.mem_append_left _ (List.mem_map_of_mem inTag)
      · obtain rfl := List.mem_singleton.1 closing
        exact List.mem_append_right _ List.mem_cons_self
    rw [fixed] at folded
    exact ne_of_mem_tag voidEnd isFree_voidEnd.inTable _ inTags c folded c separates rfl
  constructor
  · rintro rfl
    exact noSeparator bracket_mem_separators
  · exact Bool.eq_false_iff.2 fun blank => noSeparator (mem_separators_of_isBlank blank)

/-- The end tag of a void element is closed by its last character alone. -/
theorem notMem_of_append_eq {tag begun rest : Text} (inTags : tag.map fold ∈ voidEnd.tags)
    (parted : tag ++ ['>'] = begun ++ rest) (unfinished : rest ≠ []) : '>' ∉ begun := by
  rcases List.eq_nil_or_concat rest with rfl | ⟨middle, last, rfl⟩
  · exact absurd rfl unfinished
  · rw [List.concat_eq_append, ← List.append_assoc] at parted
    obtain ⟨rfl, _⟩ := List.append_inj' parted rfl
    intro closing
    have inTag := List.mem_append_left middle closing
    exact (ne_bracket_of_map_fold isFree_voidEnd.inTable inTags _ inTag).2 rfl

/-- Where the end tag of a void element is interrupted, the rule does not find it. -/
theorem match?_of_interrupted {tag spread : Text} (inTags : tag.map fold ∈ voidEnd.tags)
    (interrupted : Interrupted (tag ++ ['>']) spread) (differs : spread ≠ tag ++ ['>'])
    (later : Text) :
    voidEnd.match? ('<' :: (spread ++ later)) = none := by
  obtain ⟨begun, rest, behind, parted, some, rfl⟩ := interrupted.exists_break differs
  have unclosed := notMem_of_append_eq inTags parted some
  have missing : voidEnd.match? ('<' :: begun) = none := by
    rw [Option.eq_none_iff_forall_ne_some]
    intro found isFound
    obtain ⟨other, _, whole, _⟩ := Rule.exists_word_of_match? isFree_voidEnd.inTable isFound
    rw [(List.cons.inj whole).2] at unclosed
    exact unclosed (List.mem_append_right other List.mem_cons_self)
  -- No tag reaches over the bracket that opens behind the beginning.
  rw [List.append_assoc, List.cons_append,
    Rule.match?_append_separator isFree_voidEnd.inTable bracket_mem_separators (.inr rfl), missing]
  rfl

/-- The last pass leaves the end tag of a void element if and only if it has put it together. -/
theorem hasVoidEnd_pass_iff (text : Text) :
    HasVoidEnd (voidEnd.pass text) ↔ ∃ word spread, IsVoidEnd ('<' :: word) ∧
      Interrupted word spread ∧ spread ≠ word ∧ '<' :: spread <:+: text := by
  constructor
  · rintro ⟨written, isEnd, front, back, whole⟩
    obtain ⟨tag, rfl, inTags⟩ := isEnd.exists_tag
    have leaves : voidEnd.pass text = front ++ '<' :: ((tag ++ ['>']) ++ back) := by
      rw [← whole]
      simp
    obtain ⟨before, later, rfl, missing, same⟩ := exists_of_pass_eq_cons leaves
    obtain ⟨spread, behind, rfl, interrupted⟩ := exists_interrupted_of_pass (by simp) same
    refine ⟨tag ++ ['>'], spread, isEnd, interrupted, ?_, before, behind, by simp⟩
    rintro rfl
    have found := Rule.match?_of_word isFree_voidEnd.inTable inTags behind
    rw [List.append_assoc, List.singleton_append, found] at missing
    cases missing
  · rintro ⟨word, spread, isEnd, interrupted, differs, front, back, rfl⟩
    obtain ⟨tag, same, inTags⟩ := isEnd.exists_tag
    obtain rfl := (List.cons.inj same).2
    have missing := match?_of_interrupted inTags interrupted differs back
    have parted := isFree_voidEnd.pass_append_separator bracket_mem_separators (.inr rfl) front
      (spread ++ back)
    refine ⟨'<' :: (tag ++ ['>']), isEnd, voidEnd.pass front, voidEnd.pass back, ?_⟩
    rw [List.append_assoc front, List.cons_append, parted, isFree_voidEnd.pass_of_missing missing,
      interrupted.pass_append (solid_of_map_fold inTags)]
    simp

/-! ## All passes -/

/-- Somewhere in the text a bracket opens directly behind the beginning of the end tag of a void
element. -/
def BreaksOff (text : Text) : Prop :=
  ∃ begun rest, begun ≠ [] ∧ rest ≠ [] ∧ IsVoidEnd (begun ++ rest) ∧ begun ++ ['<'] <:+: text

namespace Deletes

variable {strict : Bool} {text left : Text}

/-- A deletion takes out a part that begins with a bracket. -/
theorem exists_parts (deletes : Deletes strict text left) :
    ∃ before inside after, text = before ++ '<' :: (inside ++ after) ∧ left = before ++ after := by
  cases deletes with
  | @tag word found before after => exact ⟨before, word ++ ['>'], after, by simp, rfl⟩
  | @tagAndBlank word found noFrame c blank before after =>
      exact ⟨before, word ++ ['>', c], after, by simp, rfl⟩

/-- A bracket that opens behind the beginning of an end tag after a deletion does so before,
perhaps earlier in the tag. -/
theorem breaksOff (deletes : Deletes strict text left) (broken : BreaksOff left) :
    BreaksOff text := by
  obtain ⟨before, inside, after, rfl, rfl⟩ := deletes.exists_parts
  obtain ⟨begun, rest, started, unfinished, isEnd, occurs⟩ := broken
  have ofBefore : begun ++ ['<'] <:+: before → BreaksOff (before ++ '<' :: (inside ++ after)) :=
    fun within => ⟨begun, rest, started, unfinished, isEnd,
      within.trans (List.prefix_append before _).isInfix⟩
  have ofAfter : begun ++ ['<'] <:+: after → BreaksOff (before ++ '<' :: (inside ++ after)) := by
    intro within
    refine ⟨begun, rest, started, unfinished, isEnd, within.trans ⟨before ++ '<' :: inside,
      [], ?_⟩⟩
    simp
  rcases List.infix_append_iff.1 occurs with within | within | ⟨first, second, whole, ends, begins⟩
  · exact ofBefore within
  · exact ofAfter within
  · rcases List.eq_nil_or_concat second with rfl | ⟨middle, last, rfl⟩
    · rw [List.append_nil] at whole
      exact ofBefore (by rw [whole]; exact ends.isInfix)
    · rw [List.concat_eq_append, ← List.append_assoc] at whole
      obtain ⟨rfl, bracket⟩ := List.append_inj' whole rfl
      rcases List.eq_nil_or_concat first with rfl | nonempty
      · obtain rfl := (List.cons.inj bracket).1
        exact ofAfter (by simpa using begins.isInfix)
      · -- The part of the beginning in front of the deletion stands in front of its bracket.
        have some : first ≠ [] := by
          obtain ⟨inner, c, same⟩ := nonempty
          simp [same]
        obtain ⟨front, rfl⟩ := ends
        refine ⟨first, middle ++ rest, some, by simp [unfinished], ?_, front, inside ++ after,
          by simp⟩
        rwa [← List.append_assoc]

end Deletes

theorem breaksOff_of_deletions {strict : Bool} {text left : Text}
    (deletions : ReflTransGen (Deletes strict) text left) (broken : BreaksOff left) :
    BreaksOff text := by
  induction deletions with
  | refl => exact broken
  | tail _ last ih => exact ih (last.breaksOff broken)

/-- No end tag of a void element is left of a text in which none breaks off. -/
theorem not_hasVoidEnd_elide (strict : Bool) {text : Text} (whole : ¬BreaksOff text) :
    ¬HasVoidEnd (elide strict text) := by
  rw [elide_eq_pass_voidEnd, hasVoidEnd_pass_iff]
  rintro ⟨word, spread, isEnd, interrupted, differs, occurs⟩
  obtain ⟨begun, rest, later, rfl, some, rfl⟩ := interrupted.exists_break differs
  have earlier : ∀ rule ∈ earlierRules strict, rule ∈ activeRules strict :=
    (List.dropLast_sublist _).subset
  have deletions := deletes_applyAll earlier text
  refine whole (breaksOff_of_deletions deletions ⟨'<' :: begun, rest, by simp, some, isEnd, ?_⟩)
  refine List.IsInfix.trans ⟨[], later, ?_⟩ occurs
  simp

/-- An end tag of a void element is left out of a text unless its parts stand around others when
the last pass begins. None is left if no bracket of the text opens directly behind the beginning of
such a tag. -/
theorem hasVoidEnd_elide_iff (strict : Bool) (text : Text) :
    (HasVoidEnd (elide strict text) ↔ ∃ word spread, IsVoidEnd ('<' :: word) ∧
      Interrupted word spread ∧ spread ≠ word ∧
      '<' :: spread <:+: applyAll (earlierRules strict) text) ∧
    (¬BreaksOff text → ¬HasVoidEnd (elide strict text)) := by
  refine ⟨?_, not_hasVoidEnd_elide strict⟩
  rw [elide_eq_pass_voidEnd, hasVoidEnd_pass_iff]

/-- An end tag that stands around another one is left. -/
theorem elide_leaves_voidEnd : HasVoidEnd (elide false "</b</br>r>".toList) := by
  have left : elide false "</b</br>r>".toList = "</br>".toList := by decide +kernel
  rw [left]
  exact ⟨"</br>".toList, by decide, List.infix_rfl⟩

/-! ## Written documents -/

/-- Every bracket that opens is closed before the next one opens. -/
def Alternates (text : Text) : Prop := ∀ inside, '<' :: (inside ++ ['<']) <:+: text → '>' ∈ inside

theorem Alternates.append {first second : Text} (alternates : Alternates first)
    (behind : Alternates second) (closes : '<' ∈ first → first.getLast? = some '>') :
    Alternates (first ++ second) := by
  intro inside occurs
  rcases List.infix_append_iff.1 occurs with within | within | ⟨front, back, whole, ends, begins⟩
  · exact alternates inside within
  · exact behind inside within
  · rcases List.eq_nil_or_concat back with rfl | ⟨middle, last, rfl⟩
    · rw [List.append_nil] at whole
      rw [← whole] at ends
      exact alternates inside ends.isInfix
    · cases front with
      | nil =>
          rw [List.nil_append] at whole
          rw [← whole] at begins
          exact behind inside begins.isInfix
      | cons c front =>
          -- The part in front ends with a bracket that closes, and that is none of the two that
          -- open.
          rw [List.concat_eq_append, List.cons_append, ← List.append_assoc] at whole
          obtain ⟨rfl, inner⟩ := List.cons.inj whole
          obtain ⟨rfl, _⟩ := List.append_inj' inner rfl
          obtain ⟨before, rfl⟩ := ends
          have last := closes (by simp)
          rw [List.getLast?_append_of_ne_nil _ (List.cons_ne_nil _ front)] at last
          rcases List.mem_cons.1 (List.mem_of_getLast? last) with bracket | inFront
          · exact absurd bracket (by decide)
          · exact List.mem_append_left middle inFront

/-- A text with one bracket at most has no second one to open. -/
theorem alternates_of_count {text : Text} (once : text.count '<' ≤ 1) : Alternates text := by
  intro inside occurs
  have twice := occurs.sublist.count_le '<'
  rw [List.count_cons_self, List.count_append, List.count_singleton_self] at twice
  omega

/-- A written piece opens one bracket at most, and ends with the one that closes it. -/
theorem bracket_render {piece : Piece} (plain : piece.IsPlain) :
    piece.render.count '<' ≤ 1 ∧ ('<' ∈ piece.render → piece.render.getLast? = some '>') := by
  have noRun : (∀ verbatim text, piece ≠ .run verbatim text) → piece.render.count '<' ≤ 1 := by
    intro noRun
    obtain ⟨inside, begins, solid⟩ := plain.exists_render noRun
    have none : inside.count '<' = 0 := List.count_eq_zero.2 fun member => solid _ member rfl
    rw [begins, List.count_cons_self, none]
  cases plain with
  | doctype => exact ⟨noRun (by simp), fun _ => rfl⟩
  | startTag named encoded => exact ⟨noRun (by simp), fun _ => List.getLast?_concat⟩
  | endTag named => exact ⟨noRun (by simp), fun _ => List.getLast?_concat⟩
  | @run verbatim text solid =>
      have absent : '<' ∉ (Piece.run verbatim text).render := fun member => solid _ member rfl
      exact ⟨(List.count_eq_zero.2 absent).trans_le (Nat.zero_le 1),
        fun member => absurd member absent⟩

theorem alternates_textOf {pieces : List Piece} (plain : ∀ piece ∈ pieces, piece.IsPlain) :
    Alternates (textOf pieces) := by
  induction pieces with
  | nil => exact alternates_of_count (Nat.zero_le 1)
  | cons piece later ih =>
      obtain ⟨first, others⟩ := List.forall_mem_cons.1 plain
      obtain ⟨once, closes⟩ := bracket_render first
      rw [Canonical.textOf_cons]
      exact (alternates_of_count once).append (ih others) closes

/-- Behind the beginning of an end tag that breaks off a bracket opens before the first one is
closed. -/
theorem Alternates.not_breaksOff {text : Text} (alternates : Alternates text) :
    ¬BreaksOff text := by
  rintro ⟨begun, rest, started, unfinished, isEnd, occurs⟩
  obtain ⟨tag, whole, inTags⟩ := isEnd.exists_tag
  obtain ⟨c, inside, rfl⟩ := List.exists_cons_of_ne_nil started
  rw [List.cons_append] at whole
  obtain ⟨rfl, parted⟩ := List.cons.inj whole
  exact notMem_of_append_eq inTags parted.symm unfinished (alternates inside occurs)

/-- No end tag of a void element is left of a written document, whichever elements it was given, as
long as it has neither scripts nor styles nor comments. -/
theorem not_hasVoidEnd_elide_textOf (strict : Bool) {pieces : List Piece}
    (plain : ∀ piece ∈ pieces, piece.IsPlain) : ¬HasVoidEnd (elide strict (textOf pieces)) :=
  not_hasVoidEnd_elide strict (alternates_textOf plain).not_breaksOff

end HtmlMinifier.OptionalTag

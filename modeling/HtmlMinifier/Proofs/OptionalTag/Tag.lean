/-
# Tags that a rule finds

A rule finds its tag only where a whole written tag is that tag, because a name ends where its tag
or its first attribute begins. So what a pass does at a written piece is decided by the piece and
by the text around it.
-/
import HtmlMinifier.Proofs.Canonical.PlainPiece
import HtmlMinifier.Proofs.OptionalTag.Pass

namespace HtmlMinifier.OptionalTag

open Canonical (Piece)
open Event (isImplicit)
open Token (IsTagName)

/-! ## Words that are found -/

/-- The characters of a tag between its brackets. -/
def isTagChar (c : Char) : Bool := Token.isNameChar c || c = '/'

/-- What a rule of the table needs its tag to be. -/
structure IsRuleTag (tag : Text) : Prop where
  folded : tag.map fold = tag
  chars : ∀ c ∈ tag, isTagChar c = true
  implicit : isImplicit tag = true ∨ tag.head? = some '/'
  noVerbatim : Element.isVerbatim tag = false ∧ Element.isVerbatim tag.tail = false

theorem isRuleTag_of_mem : ∀ rule ∈ rules, ∀ tag ∈ rule.tags, IsRuleTag tag := by
  have checked : ∀ rule ∈ rules, ∀ tag ∈ rule.tags, tag.map fold = tag ∧
      tag.all isTagChar = true ∧ (isImplicit tag = true ∨ tag.head? = some '/') ∧
        Element.isVerbatim tag = false ∧ Element.isVerbatim tag.tail = false := by
    decide +kernel
  intro rule member tag inside
  obtain ⟨folded, chars, implicit, noVerbatim⟩ := checked rule member tag inside
  exact ⟨folded, List.all_eq_true.1 chars, implicit, noVerbatim⟩

/-- What is found of a literal is the literal, letters compared after folding. -/
theorem map_fold_of_matchLiteral? {literal text taken rest : Text}
    (found : matchLiteral? literal text = some (taken, rest)) :
    taken.map fold = literal.map fold := by
  induction literal generalizing text taken with
  | nil =>
      cases found
      rfl
  | cons l literal ih =>
      cases text with
      | nil => cases found
      | cons c text =>
          rw [matchLiteral?] at found
          split at found
          · next same =>
              obtain ⟨⟨inner, behind⟩, deeper, whole⟩ := Option.map_eq_some_iff.1 found
              cases whole
              rw [List.map_cons, List.map_cons, ih deeper, same]
          · cases found

/-- What is a literal after folding is found as that literal. -/
theorem matchLiteral?_of_map_fold {literal taken : Text} (same : taken.map fold = literal.map fold)
    (rest : Text) : matchLiteral? literal (taken ++ rest) = some (taken, rest) := by
  induction literal generalizing taken with
  | nil =>
      obtain rfl := List.map_eq_nil_iff.1 same
      rfl
  | cons l literal ih =>
      obtain ⟨c, inner, rfl, first, further⟩ := List.map_eq_cons_iff.1 same
      rw [List.cons_append, matchLiteral?, if_pos first.symm, ih further]
      rfl

/-- The characters of a word that folds to a tag of a rule are no brackets. -/
theorem ne_bracket_of_map_fold {rule : Rule} (member : rule ∈ rules) {word : Text}
    (inTags : word.map fold ∈ rule.tags) : ∀ c ∈ word, c ≠ '<' ∧ c ≠ '>' := by
  intro c inside
  have tagChar := (isRuleTag_of_mem rule member _ inTags).chars (fold c)
    (List.mem_map_of_mem inside)
  constructor <;> rintro rfl <;> exact absurd tagChar (by decide)

/-- What folds to a tag in brackets is a word in brackets. -/
theorem exists_word_of_map_fold {text tag : Text}
    (folded : text.map fold = '<' :: (tag ++ ['>'])) :
    ∃ word, text = '<' :: (word ++ ['>']) ∧ word.map fold = tag := by
  obtain ⟨opens, inner, rfl, isOpen, insideFolded⟩ := List.map_eq_cons_iff.1 folded
  obtain ⟨word, closing, rfl, wordFolded, isClosing⟩ := List.map_eq_append_iff.1 insideFolded
  obtain ⟨closes, nothing, rfl, isClose, noMore⟩ := List.map_eq_cons_iff.1 isClosing
  obtain rfl := List.map_eq_nil_iff.1 noMore
  obtain rfl := (fold_eq_iff (by decide) (by decide) opens).1 isOpen
  obtain rfl := (fold_eq_iff (by decide) (by decide) closes).1 isClose
  exact ⟨word, rfl, wordFolded⟩

/-- What is found as a tag is a word in brackets. -/
theorem exists_word_of_matchTag? {rule : Rule} (member : rule ∈ rules) {text taken rest : Text}
    (found : matchTag? rule.tags text = some (taken, rest)) :
    ∃ word, text = '<' :: (word ++ '>' :: rest) ∧ word.map fold ∈ rule.tags := by
  obtain ⟨tag, inTags, literal⟩ := List.exists_of_findSome?_eq_some found
  have folded := map_fold_of_matchLiteral? literal
  have isTag := isRuleTag_of_mem rule member tag inTags
  rw [List.map_append, List.map_cons, isTag.folded, List.cons_append] at folded
  obtain ⟨word, rfl, wordFolded⟩ := exists_word_of_map_fold folded
  refine ⟨word, ?_, by rwa [wordFolded]⟩
  rw [← (append_of_matchTag? found).1]
  simp

/-- A word in brackets is found as a tag if it folds to one. -/
theorem matchTag?_of_word {rule : Rule} (member : rule ∈ rules) {word : Text}
    (inTags : word.map fold ∈ rule.tags) (rest : Text) :
    matchTag? rule.tags ('<' :: (word ++ '>' :: rest)) = some ('<' :: (word ++ ['>']), rest) := by
  have parts : '<' :: (word ++ '>' :: rest) = '<' :: (word ++ ['>']) ++ rest := by simp
  cases found : matchTag? rule.tags ('<' :: (word ++ '>' :: rest)) with
  | none =>
      have fixed := (isRuleTag_of_mem rule member _ inTags).folded
      have folded : ('<' :: (word ++ ['>'])).map fold = ('<' :: word.map fold ++ ['>']).map
          fold := by
        rw [List.map_append, List.map_cons, List.map_cons, List.map_append, fixed]
        rfl
      have missing := List.findSome?_eq_none_iff.1 found _ inTags
      rw [parts, matchLiteral?_of_map_fold folded] at missing
      cases missing
  | some found' =>
      -- Another tag that is found there ends with the same bracket.
      obtain ⟨taken, behind⟩ := found'
      obtain ⟨other, whole, otherTag⟩ := exists_word_of_matchTag? member found
      have cut : ∀ {word : Text}, word.map fold ∈ rule.tags → ∀ rest,
          (word ++ '>' :: rest).dropWhile (· != '>') = '>' :: rest := fun inTags rest =>
        (Text.takeWhile_append_of_stops (fun c inside =>
          bne_iff_ne.2 (ne_bracket_of_map_fold member inTags c inside).2) (by simp)).2
      have same : '>' :: rest = '>' :: behind := by
        rw [← cut inTags rest, ← cut otherTag behind, (List.cons.inj whole).2]
      obtain rfl := (List.cons.inj same).2
      have both := (append_of_matchTag? found).1
      rw [parts] at both
      rw [List.append_cancel_right both]

/-- A name character in lower case is left alone by folding. -/
theorem fold_of_isNameChar {c : Char} (named : Token.isNameChar c = true) (lower : c.toLower = c) :
    fold c = c := by
  have noLong : c ≠ '\u017f' := Token.ne_of_isNameChar named (by decide)
  have noKelvin : c ≠ '\u212a' := Token.ne_of_isNameChar named (by decide)
  rw [fold, if_neg noLong, if_neg noKelvin, lower]

/-- A word of tag characters that is followed by another character is found only as a whole. -/
theorem eq_of_map_fold {word tag taken rest later : Text} {c : Char}
    (stop : isTagChar (fold c) = false)
    (wordChars : ∀ d ∈ word, isTagChar d = true ∧ fold d = d)
    (tagChars : ∀ d ∈ tag, isTagChar d = true)
    (whole : taken ++ rest = word ++ c :: later) (same : taken.map fold = tag ++ ['>']) :
    word = tag ∧ fold c = '>' ∧ rest = later := by
  induction word generalizing tag taken with
  | nil =>
      cases taken with
      | nil =>
          have none := congrArg List.length same
          simp at none
      | cons t taken =>
          obtain ⟨rfl, behind⟩ := List.cons.inj whole
          cases tag with
          | nil =>
              obtain ⟨mark, nothing⟩ := List.cons.inj same
              have none : taken = [] := List.map_eq_nil_iff.1 nothing
              subst none
              exact ⟨rfl, mark, behind⟩
          | cons e tag =>
              obtain ⟨first, _⟩ := List.cons.inj same
              rw [first, tagChars e List.mem_cons_self] at stop
              cases stop
  | cons d word ih =>
      obtain ⟨isTag, fixed⟩ := wordChars d List.mem_cons_self
      cases taken with
      | nil =>
          have none := congrArg List.length same
          simp at none
      | cons t taken =>
          obtain ⟨rfl, behind⟩ := List.cons.inj whole
          cases tag with
          | nil =>
              obtain ⟨mark, _⟩ := List.cons.inj same
              rw [fixed] at mark
              rw [mark] at isTag
              exact absurd isTag (by decide)
          | cons e tag =>
              obtain ⟨first, further⟩ := List.cons.inj same
              rw [fixed] at first
              obtain ⟨rfl, stops, rest⟩ := ih
                (fun f inside => wordChars f (List.mem_cons_of_mem t inside))
                (fun f inside => tagChars f (List.mem_cons_of_mem e inside)) behind further
              exact ⟨by rw [first], stops, rest⟩

/-- The characters of a tag name are left alone by folding. -/
theorem tagChar_of_mem_name {name : Text} (named : IsTagName name) :
    ∀ c ∈ name, isTagChar c = true ∧ fold c = c := by
  intro c inside
  have chars := named.chars c inside
  refine ⟨by rw [isTagChar, chars, Bool.true_or], fold_of_isNameChar chars ?_⟩
  have lower := named.lower
  obtain ⟨before, behind, rfl⟩ := List.append_of_mem inside
  rw [Text.lower, List.map_append, List.map_cons] at lower
  have lengths : (before.map Char.toLower).length = before.length := List.length_map _
  exact (List.cons.inj (List.append_inj lower lengths).2).1

/-- What a rule finds is one of its tags and perhaps a blank. -/
theorem exists_of_match? {rule : Rule} {text taken rest : Text}
    (found : rule.match? text = some (taken, rest)) :
    ∃ tag ∈ rule.tags, ∃ literal behind, literal ++ behind = text ∧
      literal.map fold = ('<' :: tag ++ ['>']).map fold ∧
      (rest = behind ∨ rest = (takeBlank behind).2) := by
  rw [Rule.match?] at found
  split at found
  · cases found
  · next literal behind matched =>
      obtain ⟨tag, member, within⟩ := List.exists_of_findSome?_eq_some matched
      refine ⟨tag, member, literal, behind, (append_of_matchLiteral? within).1,
        map_fold_of_matchLiteral? within, ?_⟩
      split at found
      · cases found
        exact .inr rfl
      · cases found
        exact .inl rfl

/-- A tag that is found at the head of a word in brackets is that word. -/
theorem match?_word {rule : Rule} (member : rule ∈ rules) {word taken rest later : Text} {c : Char}
    (stop : c = ' ' ∨ c = '>') (wordChars : ∀ d ∈ word, isTagChar d = true ∧ fold d = d)
    (found : rule.match? ('<' :: (word ++ c :: later)) = some (taken, rest)) :
    word ∈ rule.tags ∧ c = '>' ∧ (rest = later ∨ rest = (takeBlank later).2) := by
  obtain ⟨tag, inside, literal, behind, whole, same, rests⟩ := exists_of_match? found
  have isTag := isRuleTag_of_mem rule member tag inside
  have folded : literal.map fold = '<' :: (tag ++ ['>']) := by
    rw [same, List.map_append, List.map_cons, isTag.folded]
    rfl
  cases literal with
  | nil => cases folded
  | cons t literal =>
      obtain ⟨_, whole⟩ := List.cons.inj whole
      obtain ⟨_, folded⟩ := List.cons.inj folded
      have stops : isTagChar (fold c) = false := by
        rcases stop with rfl | rfl <;> decide
      obtain ⟨rfl, mark, rfl⟩ := eq_of_map_fold stops wordChars isTag.chars whole folded
      refine ⟨inside, ?_, rests⟩
      rcases stop with rfl | rfl
      · exact absurd mark (by decide)
      · rfl

/-! ## Pieces that are found -/

/-- The tag of a piece as rules have it: the name of a tag without attributes, and the slash of an
end tag. -/
def tag? : Piece → Option Text
  | .startTag name [] => some name
  | .endTag name => some ('/' :: name)
  | _ => none

theorem render_of_tag? {piece : Piece} {tag : Text} (same : tag? piece = some tag) :
    piece.render = '<' :: (tag ++ ['>']) := by
  unfold tag? at same
  split at same
  · cases same
    simp [Piece.render]
  · cases same
    simp [Piece.render]
  · cases same

/-- The characters of a tag are left alone by folding. -/
theorem tagChar_of_mem_tag {piece : Piece} (plain : piece.IsPlain) {tag : Text}
    (same : tag? piece = some tag) : ∀ c ∈ tag, isTagChar c = true ∧ fold c = c := by
  cases plain with
  | doctype | run solid => cases same
  | @startTag name attributes named encoded =>
      cases attributes with
      | nil =>
          cases same
          exact tagChar_of_mem_name named
      | cons attr attributes => cases same
  | @endTag name named =>
      cases same
      intro c inside
      rcases List.mem_cons.1 inside with rfl | inName
      · decide
      · exact tagChar_of_mem_name named c inName

/-- What a rule finds at the head of pieces is one of its tags. -/
theorem tag_of_match? {rule : Rule} (member : rule ∈ rules) {piece : Piece} (plain : piece.IsPlain)
    {later taken rest : Text} (found : rule.match? (piece.render ++ later) = some (taken, rest))
    (noRun : ∀ verbatim text, piece ≠ .run verbatim text) :
    ∃ tag ∈ rule.tags, tag? piece = some tag ∧ (rest = later ∨ rest = (takeBlank later).2) := by
  cases plain with
  | doctype =>
      have missing : rule.match? (Element.doctype ++ later) = none := match?_mark member _
      rw [Piece.render, missing] at found
      cases found
  | @startTag name attributes named encoded =>
      rw [Canonical.startTag_render_append] at found
      cases attributes with
      | nil =>
          obtain ⟨inTags, _, rests⟩ := match?_word member (.inr rfl)
            (tagChar_of_mem_name named) found
          exact ⟨name, inTags, rfl, rests⟩
      | cons attr attributes =>
          rw [Token.tagTail_cons] at found
          have bracket := (match?_word member (.inl rfl) (tagChar_of_mem_name named) found).2.1
          exact absurd bracket (by decide)
  | @endTag name named =>
      have parts : (Piece.endTag name).render ++ later = '<' :: ('/' :: name ++ '>' :: later) := by
        simp [Piece.render]
      have chars := tagChar_of_mem_tag (.endTag named) (show tag? (.endTag name) = _ from rfl)
      rw [parts] at found
      obtain ⟨inTags, _, rests⟩ := match?_word member (.inr rfl) chars found
      exact ⟨'/' :: name, inTags, rfl, rests⟩
  | run solid => exact absurd rfl (noRun _ _)

/-- What a rule takes along from behind its tag, and what it leaves there. -/
def Rule.behind (rule : Rule) (later : Text) : Text × Text :=
  if rule.trailingBlank then takeBlank later else ([], later)

/-- A rule finds its tag and what it takes along from behind it. -/
theorem Rule.match?_eq (rule : Rule) (text : Text) :
    rule.match? text = (matchTag? rule.tags text).map fun found =>
      (found.1 ++ (rule.behind found.2).1, (rule.behind found.2).2) := by
  rw [Rule.match?]
  cases matchTag? rule.tags text with
  | none => rfl
  | some found =>
      simp only [Option.map_some, Rule.behind]
      split
      · rfl
      · rw [List.append_nil]

/-- At a word in brackets that folds to its tag a rule finds the word and what it takes along. -/
theorem Rule.match?_of_word {rule : Rule} (member : rule ∈ rules) {word : Text}
    (inTags : word.map fold ∈ rule.tags) (later : Text) :
    rule.match? ('<' :: (word ++ '>' :: later)) =
      some ('<' :: (word ++ ['>']) ++ (rule.behind later).1, (rule.behind later).2) := by
  rw [Rule.match?_eq, matchTag?_of_word member inTags]
  rfl

/-- What a rule finds is such a word. -/
theorem Rule.exists_word_of_match? {rule : Rule} (member : rule ∈ rules) {text taken rest : Text}
    (found : rule.match? text = some (taken, rest)) :
    ∃ word later, text = '<' :: (word ++ '>' :: later) ∧ word.map fold ∈ rule.tags ∧
      rest = (rule.behind later).2 := by
  rw [Rule.match?_eq] at found
  obtain ⟨⟨literal, later⟩, matched, same⟩ := Option.map_eq_some_iff.1 found
  obtain ⟨_, rfl⟩ := Prod.mk.inj same
  obtain ⟨word, whole, inTags⟩ := exists_word_of_matchTag? member matched
  exact ⟨word, later, whole, inTags, rfl⟩

/-- A rule finds its tag, and the blank behind it where it takes that along. -/
theorem match?_tag {rule : Rule} (member : rule ∈ rules) {piece : Piece} (plain : piece.IsPlain)
    {tag : Text} (same : tag? piece = some tag) (inTags : tag ∈ rule.tags) (later : Text) :
    rule.match? (piece.render ++ later) =
      some (piece.render ++ (rule.behind later).1, (rule.behind later).2) := by
  have fixed : tag.map fold = tag := by
    rw [List.map_congr_left fun c inside => (tagChar_of_mem_tag plain same c inside).2,
      List.map_id']
  have whole : piece.render ++ later = '<' :: (tag ++ '>' :: later) := by
    rw [render_of_tag? same]
    simp
  rw [whole, Rule.match?_of_word member (by rwa [fixed]), render_of_tag? same]

/-- At its tag a rule takes the tag out if it is allowed to. -/
theorem Rule.passAfter_tag {rule : Rule} (member : rule ∈ rules) {piece : Piece}
    (plain : piece.IsPlain) {tag : Text} (same : tag? piece = some tag) (inTags : tag ∈ rule.tags)
    {reversedBefore later : Text}
    (allowed : rule.allows reversedBefore (rule.behind later).2 = true) :
    rule.passAfter reversedBefore (piece.render ++ later) =
      rule.passAfter ((piece.render ++ (rule.behind later).1).reverse ++ reversedBefore)
        (rule.behind later).2 := by
  have found := match?_tag member plain same inTags later
  have parts : piece.render ++ later = '<' :: (tag ++ ['>'] ++ later) := by
    rw [render_of_tag? same]
    rfl
  rw [parts] at found ⊢
  exact Rule.passAfter_remove found allowed

/-- A pass goes over a piece that its rule does not take out. -/
theorem Rule.passAfter_piece {rule : Rule} {piece : Piece} (plain : piece.IsPlain)
    {reversedBefore later : Text}
    (keeps : ∀ taken rest, rule.match? (piece.render ++ later) = some (taken, rest) →
      rule.allows reversedBefore rest = false) :
    rule.passAfter reversedBefore (piece.render ++ later) =
      piece.render ++ rule.passAfter (piece.render.reverse ++ reversedBefore) later := by
  by_cases isRun : ∃ verbatim text, piece = .run verbatim text
  · obtain ⟨verbatim, text, rfl⟩ := isRun
    cases plain with
    | run solid => exact rule.passAfter_append solid reversedBefore later
  · have noRun : ∀ verbatim text, piece ≠ .run verbatim text := by
      intro verbatim text same
      exact isRun ⟨verbatim, text, same⟩
    obtain ⟨inside, begins, solid⟩ := plain.exists_render noRun
    have whole : piece.render ++ later = '<' :: (inside ++ later) := by
      rw [begins, List.cons_append]
    rw [whole] at keeps ⊢
    rw [Rule.passAfter_keep keeps, Rule.passAfter_append solid, begins, List.cons_append,
      List.reverse_cons, List.append_assoc, List.singleton_append]

end HtmlMinifier.OptionalTag

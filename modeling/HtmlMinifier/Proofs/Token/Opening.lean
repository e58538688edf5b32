/-
# What a bracket opens

The first characters of a text settle which construct begins there, if any. A text that is cut off
can only open less than the whole: where the whole opens nothing the part opens nothing either, and
a mark declaration that the whole does not continue as a comment, a CDATA section or a doctype is
not continued by the part.
-/
import HtmlMinifier.Proofs.Text.Terminator
import HtmlMinifier.Proofs.Token.Stream

namespace HtmlMinifier.Token

/-- A construct that is read is a first part of the tokens. -/
theorem tokenize_of_readConstruct {text rest : Text} {tokens : List Token} (some : text ≠ [])
    (read : readConstruct text = (tokens, rest)) : tokenize text = tokens ++ tokenize rest := by
  obtain ⟨c, later, rfl⟩ := List.exists_cons_of_ne_nil some
  rw [tokenize, read]

/-! ## Tags -/

/-- What is followed by a letter opens a start tag. -/
theorem opening_startTag {c : Char} (alpha : c.isAlpha = true) (rest : Text) :
    Opening.of? ('<' :: c :: rest) = some .startTag := by
  have differs : ∀ mark : Char, mark.isAlpha = false → c ≠ mark := by
    rintro mark noLetter rfl
    rw [alpha] at noLetter
    exact absurd noLetter Bool.true_eq_false.mp
  rw [Opening.of?, if_neg (differs '!' (by decide)), if_neg (differs '?' (by decide)),
    if_neg (differs '/' (by decide)), if_pos alpha]

/-- A slash that is followed by a letter opens an end tag. -/
theorem opening_endTag {c : Char} (alpha : c.isAlpha = true) (rest : Text) :
    Opening.of? ('<' :: '/' :: c :: rest) = some .endTag := by
  have letter : ((c :: rest).take 1).any Char.isAlpha = true := by simp [alpha]
  rw [Opening.of?, if_neg (by decide), if_neg (by decide), if_pos rfl, if_pos letter]

/-! ## Declarations -/

/-- Two dashes open a comment. -/
theorem opening_comment (text : Text) :
    Opening.of? ('<' :: '!' :: ("--".toList ++ text)) = some .comment := by
  have dashes : Text.startsFolded "--".toList ("--".toList ++ text) = true := by
    rw [Text.startsFolded, Text.dropFolded?_append_self]
    rfl
  rw [Opening.of?, if_pos rfl, if_pos dashes]

/-- A text begins with a word if it begins with a spelling of it. -/
theorem startsFolded_iff {literal text : Text} :
    Text.startsFolded literal text = true ↔
      ∃ word rest, Text.lower word = Text.lower literal ∧ text = word ++ rest := by
  rw [Text.startsFolded, Option.isSome_iff_exists]
  constructor
  · rintro ⟨rest, found⟩
    obtain ⟨word, spelled, parts⟩ := Text.dropFolded?_eq_some_iff.1 found
    exact ⟨word, rest, spelled, parts⟩
  · rintro ⟨word, rest, spelled, parts⟩
    exact ⟨rest, Text.dropFolded?_eq_some_iff.2 ⟨word, spelled, parts⟩⟩

/-- A text does not begin with a word if its first letter is another one. -/
theorem startsFolded_of_ne {l d : Char} {word later : Text}
    (spelled : Text.lower word = d :: later)
    (differs : l.toLower ≠ d) (literal text : Text) :
    Text.startsFolded (l :: literal) (word ++ text) = false := by
  cases word with
  | nil => cases spelled
  | cons c word =>
      rw [← (List.cons.inj spelled).1] at differs
      rw [List.cons_append, Text.startsFolded, Text.dropFolded?_cons_cons, if_neg differs]
      rfl

/-- A CDATA section is opened by its word in any case. -/
theorem opening_cdata {word : Text} (spelled : Text.lower word = "[cdata[".toList) (text : Text) :
    Opening.of? ('<' :: '!' :: (word ++ text)) = some .cdata := by
  have noDashes : Text.startsFolded "--".toList (word ++ text) = false :=
    startsFolded_of_ne spelled (by decide) _ text
  have begins : Text.startsFolded "[CDATA[".toList (word ++ text) = true :=
    startsFolded_iff.2 ⟨word, text, by rw [spelled]; decide, rfl⟩
  rw [Opening.of?, if_pos rfl, noDashes, if_neg Bool.false_ne_true, if_pos begins]

/-- A doctype is opened by its word in any case. -/
theorem opening_doctype {word : Text} (spelled : Text.lower word = "doctype".toList)
    (text : Text) :
    Opening.of? ('<' :: '!' :: (word ++ text)) = some .doctype := by
  have noDashes : Text.startsFolded "--".toList (word ++ text) = false :=
    startsFolded_of_ne spelled (by decide) _ text
  have noSection : Text.startsFolded "[CDATA[".toList (word ++ text) = false :=
    startsFolded_of_ne spelled (by decide) _ text
  have begins : Text.startsFolded "doctype".toList (word ++ text) = true :=
    startsFolded_iff.2 ⟨word, text, by rw [spelled]; decide, rfl⟩
  rw [Opening.of?, if_pos rfl, noDashes, if_neg Bool.false_ne_true, noSection,
    if_neg Bool.false_ne_true,
    if_pos begins]

/-- What a declaration opens is settled by the word behind its `<!`. -/
theorem exists_of_declaration {rest : Text} {opening : Opening}
    (opens : Opening.of? ('<' :: '!' :: rest) = some opening) :
    (opening = .comment ∧ ∃ inside, rest = "--".toList ++ inside) ∨
      (opening = .cdata ∧ ∃ word inside, Text.lower word = "[cdata[".toList ∧ rest = word ++
      inside) ∨
      (opening = .doctype ∧ ∃ word inside, Text.lower word = "doctype".toList ∧ rest = word ++
      inside) ∨
      opening = .bogusComment := by
  rw [Opening.of?, if_pos rfl] at opens
  split at opens
  · next dashes =>
      obtain ⟨word, inside, spelled, parts⟩ := startsFolded_iff.1 dashes
      cases opens
      exact .inl ⟨rfl, inside, by rw [parts, Text.eq_of_lower_eq (by decide) spelled]⟩
  · split at opens
    · next begins =>
        obtain ⟨word, inside, spelled, parts⟩ := startsFolded_iff.1 begins
        cases opens
        exact .inr (.inl ⟨rfl, word, inside, by rw [spelled]; decide, parts⟩)
    · split at opens
      · next begins =>
          obtain ⟨word, inside, spelled, parts⟩ := startsFolded_iff.1 begins
          cases opens
          exact .inr (.inr (.inl ⟨rfl, word, inside, by rw [spelled]; decide, parts⟩))
      · cases opens
        exact .inr (.inr (.inr rfl))

/-- Without the mark of a declaration a bogus comment or a tag is opened. -/
theorem opening_of_ne_mark {mark : Char} {rest : Text} {opening : Opening}
    (opens : Opening.of? ('<' :: mark :: rest) = some opening) (other : mark ≠ '!') :
    opening = .bogusComment ∨ opening = .endTag ∨ opening = .startTag := by
  rw [Opening.of?, if_neg other] at opens
  split at opens
  · cases opens
    exact .inl rfl
  · split at opens
    · split at opens
      · cases opens
        exact .inr (.inl rfl)
      · cases opens
    · split at opens
      · cases opens
        exact .inr (.inr rfl)
      · cases opens

/-! ## Texts that are cut off -/

theorem startsFolded_of_append {literal text more : Text}
    (missing : Text.startsFolded literal (text ++ more) = false) :
    Text.startsFolded literal text = false := by
  cases begins : Text.startsFolded literal text with
  | false => rfl
  | true =>
      obtain ⟨word, rest, spelled, parts⟩ := startsFolded_iff.1 begins
      have further : Text.startsFolded literal (text ++ more) = true :=
        startsFolded_iff.2 ⟨word, rest ++ more, spelled, by rw [parts, List.append_assoc]⟩
      rw [missing] at further
      cases further

/-- A declaration that is a bogus comment as a whole is one where it is cut off. -/
theorem opening_bogusComment_of_append {mark : Char} {inside more : Text}
    (opens : Opening.of? ('<' :: mark :: (inside ++ more)) = some .bogusComment) :
    Opening.of? ('<' :: mark :: inside) = some .bogusComment := by
  rw [Opening.of?] at opens ⊢
  by_cases declares : mark = '!'
  · rw [if_pos declares] at opens ⊢
    split at opens
    · cases opens
    · next noDashes =>
        split at opens
        · cases opens
        · next noSection =>
            split at opens
            · cases opens
            · next noDoctype =>
                rw [Bool.not_eq_true] at noDashes noSection noDoctype
                rw [startsFolded_of_append noDashes, startsFolded_of_append noSection,
                  startsFolded_of_append noDoctype]
                rfl
  · rw [if_neg declares] at opens ⊢
    by_cases question : mark = '?'
    · rw [if_pos question]
    · rw [if_neg question] at opens
      split at opens
      · split at opens <;> cases opens
      · split at opens <;> cases opens

/-- Where a text opens nothing, it opens nothing if it is cut off. -/
theorem opening_none_of_append {text more : Text} (nothing : Opening.of? (text ++ more) = none) :
    Opening.of? text = none := by
  cases opens : Opening.of? text with
  | none => rfl
  | some opening =>
      obtain ⟨c, rest, rfl⟩ := exists_of_opening opens
      rw [List.cons_append, List.cons_append] at nothing
      rw [Opening.of?] at opens nothing
      by_cases declares : c = '!'
      · rw [if_pos declares] at nothing
        repeat' split at nothing
        all_goals cases nothing
      · rw [if_neg declares] at opens nothing
        by_cases question : c = '?'
        · rw [if_pos question] at nothing
          cases nothing
        · rw [if_neg question] at opens nothing
          by_cases slash : c = '/'
          · rw [if_pos slash] at opens nothing
            cases rest with
            | nil => cases opens
            | cons d rest =>
                split at nothing
                · cases nothing
                · next noLetter =>
                    have none : (List.take 1 (d :: rest)).any Char.isAlpha = false := by
                      simpa using noLetter
                    rw [none, if_neg Bool.false_ne_true] at opens
                    cases opens
          · rw [if_neg slash] at opens nothing
            split at nothing
            · cases nothing
            · next noLetter =>
                rw [if_neg noLetter] at opens
                cases opens

end HtmlMinifier.Token

/-
# What follows a tag does not matter

A reader inside a start tag stops in front of the bracket of the tag, or at it. How it reads is
then settled by what stands in front of the bracket: with any other text behind the bracket it
reads the same.
-/
import HtmlMinifier.Proofs.Token.TagEnd

namespace HtmlMinifier.Token

/-- A reader that stops in front of a bracket reads the same whatever follows the bracket. -/
def IsLocal {α : Type} (read : Text → α × Text) : Prop :=
  ∀ input inside rest, (read input).2 = inside ++ '>' :: rest →
    ∃ taken, input = taken ++ (inside ++ '>' :: rest) ∧
      ∀ other, read (taken ++ (inside ++ '>' :: other)) = ((read input).1, inside ++ '>' :: other)

/-- Up to a bracket, texts begin alike whatever follows it. -/
theorem head?_append_bracket (text rest other : Text) :
    (text ++ '>' :: rest).head? = (text ++ '>' :: other).head? := by
  cases text <;> rfl

/-- Blanks in front of a bracket are skipped whatever follows it. -/
theorem exists_trimStart {input inside rest : Text}
    (same : Text.trimStart input = inside ++ '>' :: rest) :
    ∃ blanks, (∀ c ∈ blanks, Text.isBlank c = true) ∧ input = blanks ++ (inside ++ '>' :: rest) ∧
      ∀ other, Text.trimStart (blanks ++ (inside ++ '>' :: other)) = inside ++ '>' :: other := by
  refine ⟨input.takeWhile Text.isBlank, fun c member => ?_, ?_, fun other => ?_⟩
  · exact List.all_eq_true.1 List.all_takeWhile c member
  · rw [← same]
    exact List.takeWhile_append_dropWhile.symm
  · refine (Text.takeWhile_append_of_stops (List.all_eq_true.1 List.all_takeWhile) fun c
      first => ?_).2
    rw [head?_append_bracket inside other rest, ← same] at first
    obtain ⟨later, following⟩ := List.head?_eq_some_iff.1 first
    exact isBlank_of_trimStart following

/-! ## Values -/

/-- A quoted value is read up to its quote. -/
theorem isLocal_splitAt {quote : Char}
    (letterless : quote.isLower = false ∧ quote.toLower = quote) :
    IsLocal (Text.splitAt [quote]) := by
  intro input inside rest stops
  have caseless : Text.IsCaseless [quote] := by
    intro c member
    rwa [List.mem_singleton.1 member]
  obtain ⟨closing, parts, ends⟩ := Text.exists_ends_splitAt (List.cons_ne_nil quote [])
    caseless input
  rw [stops] at parts ends
  exact ⟨_, parts, fun other => ends.splitAt_append (List.cons_ne_nil quote []) caseless
    (by simp) _⟩

/-- A value without quotes is read up to what stops it, and the bracket stops it at the latest. -/
theorem isLocal_readUnquoted : IsLocal readUnquoted := by
  intro input inside rest stops
  fun_induction readUnquoted input with
  | case1 => simp at stops
  | case2 input =>
      refine ⟨[], stops, fun other => ?_⟩
      cases inside with
      | nil => simp at stops
      | cons c inside =>
          obtain ⟨rfl, later⟩ := List.cons.inj stops
          cases inside with
          | nil => rfl
          | cons d inside =>
              obtain ⟨rfl, _⟩ := List.cons.inj later
              rfl
  | case3 c input _ ends =>
      rw [Bool.or_eq_true, decide_eq_true_iff] at ends
      refine ⟨[], stops, fun other => ?_⟩
      cases inside with
      | nil => exact readUnquoted_of_stops (.inr rfl) other
      | cons d inside =>
          obtain ⟨rfl, _⟩ := List.cons.inj stops
          exact readUnquoted_of_stops ends _
  | case4 c input notClosing goesOn later ih =>
      obtain ⟨taken, parts, reads⟩ := ih stops
      refine ⟨c :: taken, by rw [parts, List.cons_append], fun other => ?_⟩
      rw [List.cons_append, readUnquoted.eq_def]
      split
      · next same => cases same
      · next behind same =>
          -- The slash would be followed by the bracket in front of any text.
          obtain ⟨rfl, following⟩ := List.cons.inj same
          have first : input.head? = some '>' := by
            rw [parts, ← List.append_assoc, head?_append_bracket (taken ++ inside) rest other,
              List.append_assoc, following]
            rfl
          obtain ⟨more, bracket⟩ := List.head?_eq_some_iff.1 first
          exact absurd bracket (notClosing more rfl)
      · next same =>
          obtain ⟨rfl, rfl⟩ := List.cons.inj same
          rw [if_neg goesOn, reads]

/-- Behind its blanks a quoted value is read up to its quote. -/
theorem readValue_of_quote {quote : Char} (isQuote : quote = '"' ∨ quote = '\'')
    {input quoted : Text}
    (same : Text.trimStart input = quote :: quoted) :
    readValue input = Text.splitAt [quote] quoted := by
  rw [readValue, same]
  rcases isQuote with rfl | rfl <;> rfl

/-- Behind its blanks a value that begins with no quote is read without quotes. -/
theorem readValue_of_noQuote {input : Text}
    (noQuote : ∀ c, (Text.trimStart input).head? = some c → c ≠ '"' ∧ c ≠ '\'') :
    readValue input = readUnquoted (Text.trimStart input) := by
  rw [readValue]
  split
  · next same => exact absurd rfl (noQuote '"' (by rw [same]; rfl)).1
  · next same => exact absurd rfl (noQuote '\'' (by rw [same]; rfl)).2
  · rfl

/-- A value is read up to its end, whether it is quoted or not. -/
theorem isLocal_readValue : IsLocal readValue := by
  intro input inside rest stops
  by_cases quoted : ∃ quote later, (quote = '"' ∨ quote = '\'') ∧ Text.trimStart input =
    quote :: later
  · obtain ⟨quote, later, isQuote, same⟩ := quoted
    have letterless : quote.isLower = false ∧ quote.toLower = quote := by
      rcases isQuote with rfl | rfl <;> decide
    rw [readValue_of_quote isQuote same] at stops ⊢
    obtain ⟨taken, parts, reads⟩ := isLocal_splitAt letterless later inside rest stops
    have start : Text.trimStart input = (quote :: taken ++ inside) ++ '>' :: rest := by
      rw [same, parts, List.cons_append, List.cons_append, List.append_assoc]
    obtain ⟨blanks, _, whole, skipped⟩ := exists_trimStart start
    refine ⟨blanks ++ quote :: taken, by rw [whole]; simp, fun other => ?_⟩
    have begins : Text.trimStart (blanks ++ quote :: taken ++ (inside ++ '>' :: other)) =
        quote :: (taken ++ (inside ++ '>' :: other)) := by
      have behind := skipped other
      simpa using behind
    rw [readValue_of_quote isQuote begins, reads]
  · have noQuote : ∀ c, (Text.trimStart input).head? = some c → c ≠ '"' ∧ c ≠ '\'' := by
      intro c first
      obtain ⟨later, same⟩ := List.head?_eq_some_iff.1 first
      exact ⟨fun double => quoted ⟨c, later, .inl double, same⟩,
        fun single => quoted ⟨c, later, .inr single, same⟩⟩
    rw [readValue_of_noQuote noQuote] at stops ⊢
    obtain ⟨taken, parts, reads⟩ := isLocal_readUnquoted _ inside rest stops
    have start : Text.trimStart input = (taken ++ inside) ++ '>' :: rest := by
      rw [parts, List.append_assoc]
    obtain ⟨blanks, _, whole, skipped⟩ := exists_trimStart start
    refine ⟨blanks ++ taken, by rw [whole]; simp, fun other => ?_⟩
    have begins : Text.trimStart (blanks ++ taken ++ (inside ++ '>' :: other)) =
        taken ++ (inside ++ '>' :: other) := by
      have behind := skipped other
      simpa using behind
    rw [readValue_of_noQuote, begins, reads]
    rw [begins, ← List.append_assoc, head?_append_bracket (taken ++ inside) other rest, ← start]
    exact noQuote

/-! ## Attributes -/

section

variable {name gap : Text} (chars : ∀ c ∈ name, isAttributeChar c = true)
  (ends : ∀ c, gap.head? = some c → isAttributeChar c = false)

include chars ends

/-- Behind a name and a `=` stands a value. -/
theorem readAttribute_of_equals {valued : Text} (same : Text.trimStart gap = '=' :: valued) :
    readAttribute (name ++ gap) =
    ((Text.lower name, some (readValue valued).1), (readValue valued).2) := by
  obtain ⟨taken, dropped⟩ := Text.takeWhile_append_of_stops chars ends
  rw [readAttribute, taken, dropped, same]
  rfl

/-- A name without a `=` behind it stands alone. -/
theorem readAttribute_of_bare (noEquals : (Text.trimStart gap).head? ≠ some '=') :
    readAttribute (name ++ gap) = ((Text.lower name, none), Text.trimStart gap) := by
  obtain ⟨taken, dropped⟩ := Text.takeWhile_append_of_stops chars ends
  rw [readAttribute, taken, dropped]
  split
  · next same => exact absurd (by rw [same]; rfl) noEquals
  · rfl

end

/-- An attribute is read up to the next one, or to the end of the tag. -/
theorem isLocal_readAttribute : IsLocal readAttribute := by
  intro input inside rest stops
  have chars : ∀ c ∈ input.takeWhile isAttributeChar, isAttributeChar c = true :=
    List.all_eq_true.1 List.all_takeWhile
  have ends : ∀ c, (input.dropWhile isAttributeChar).head? = some c → isAttributeChar c =
      false := by
    intro c first
    have stop := List.head?_dropWhile_not isAttributeChar input
    rw [first] at stop
    simpa using stop
  obtain ⟨name, gap, parts, chars, ends⟩ : ∃ name gap, input = name ++ gap ∧
      (∀ c ∈ name, isAttributeChar c = true) ∧
      ∀ c, gap.head? = some c → isAttributeChar c = false :=
    ⟨_, _, List.takeWhile_append_dropWhile.symm, chars, ends⟩
  by_cases equals : (Text.trimStart gap).head? = some '='
  · obtain ⟨valued, same⟩ := List.head?_eq_some_iff.1 equals
    rw [parts, readAttribute_of_equals chars ends same] at stops ⊢
    obtain ⟨taken, valueParts, reads⟩ := isLocal_readValue valued inside rest stops
    have start : Text.trimStart gap = ('=' :: taken ++ inside) ++ '>' :: rest := by
      rw [same, valueParts, List.cons_append, List.cons_append, List.append_assoc]
    obtain ⟨blanks, _, whole, skipped⟩ := exists_trimStart start
    refine ⟨name ++ blanks ++ '=' :: taken, by rw [whole]; simp, fun other => ?_⟩
    have begins := skipped other
    have alike : ∀ c, (blanks ++ ('=' :: taken ++ inside ++ '>' :: other)).head? = some c →
        isAttributeChar c = false := by
      intro c first
      rw [← List.append_assoc, head?_append_bracket _ other rest, List.append_assoc,
        ← whole] at first
      exact ends c first
    rw [List.append_assoc ('=' :: taken), List.cons_append] at begins alike
    have reread := readAttribute_of_equals chars alike begins
    rw [reads] at reread
    simpa using reread
  · rw [parts, readAttribute_of_bare chars ends equals] at stops ⊢
    obtain ⟨blanks, _, whole, skipped⟩ := exists_trimStart stops
    refine ⟨name ++ blanks, by rw [whole, List.append_assoc], fun other => ?_⟩
    have begins := skipped other
    have alike : ∀ c, (blanks ++ (inside ++ '>' :: other)).head? = some c → isAttributeChar c =
        false := by
      intro c first
      rw [← List.append_assoc, head?_append_bracket _ other rest, List.append_assoc,
        ← whole] at first
      exact ends c first
    have bare : (Text.trimStart (blanks ++ (inside ++ '>' :: other))).head? ≠ some '=' := by
      rw [begins, head?_append_bracket inside other rest, ← stops]
      exact equals
    rw [List.append_assoc, readAttribute_of_bare chars alike bare, begins]

/-- A character that begins no attribute and ends no tag is skipped. -/
theorem readAttributes_skip {c : Char} {rest : Text} (solid : Text.isBlank c = false)
    (unnamed : isAttributeChar c = false) (noBracket : c ≠ '>')
    (notClosing : c = '/' → rest.head? ≠ some '>') :
    readAttributes (c :: rest) = readAttributes rest := by
  have begins := trimStart_cons solid rest
  rw [readAttributes.eq_def]
  split
  · next same =>
      rw [begins] at same
      cases same
  · next same =>
      rw [begins] at same
      cases same
      exact absurd rfl noBracket
  · next same =>
      rw [begins] at same
      cases same
      exact absurd rfl (notClosing rfl)
  · next same =>
      rw [begins] at same
      cases same
      rw [dif_neg (by rw [unnamed]; exact Bool.false_ne_true)]

/-- A slash and a bracket end a tag that closes itself. -/
theorem readAttributes_selfClose (rest : Text) :
    readAttributes ('/' :: '>' :: rest) = ⟨[], true, rest⟩ := by
  rw [readAttributes.eq_def, trimStart_cons (by decide)]
  rfl

/-- Behind its name a start tag that something follows is read the same whatever follows it
instead. -/
theorem exists_readAttributes_local (input : Text) (some : (readAttributes input).rest ≠ []) :
    ∃ inside, input = inside ++ '>' :: (readAttributes input).rest ∧
      ∀ other, readAttributes (inside ++ '>' :: other) =
        ⟨(readAttributes input).attributes, (readAttributes input).selfClosing, other⟩ := by
  -- Blanks may stand in front of what is read the same.
  have behindBlanks : ∀ {input inside rest : Text} {attributes : List (Text × Option Text)}
      {selfClosing : Bool}, Text.trimStart input = inside ++ '>' :: rest →
      (∀ other, readAttributes (inside ++ '>' :: other) = ⟨attributes, selfClosing, other⟩) →
      ∃ inside, input = inside ++ '>' :: rest ∧
        ∀ other, readAttributes (inside ++ '>' :: other) = ⟨attributes, selfClosing, other⟩ := by
    intro input inside rest attributes selfClosing start reads
    obtain ⟨blanks, _, whole, skipped⟩ := exists_trimStart start
    refine ⟨blanks ++ inside, by rw [whole, List.append_assoc], fun other => ?_⟩
    have twice := trimStart_trimStart (blanks ++ (inside ++ '>' :: other))
    rw [skipped other] at twice
    rw [← reads other, List.append_assoc]
    apply readAttributes_congr
    rw [skipped other, twice]
  fun_induction readAttributes input with
  | case1 input same => exact absurd rfl some
  | case2 input rest same =>
      exact behindBlanks (show Text.trimStart input = [] ++ '>' :: rest from same)
        readAttributes_close
  | case3 input rest same =>
      exact behindBlanks (show Text.trimStart input = ['/'] ++ '>' :: rest from same)
        readAttributes_selfClose
  | case4 input c rest _ _ same named found later ih =>
      obtain ⟨inside, behind, reads⟩ := ih some
      obtain ⟨taken, parts, readsFirst⟩ :=
        isLocal_readAttribute (c :: rest) inside later.rest behind
      have start : Text.trimStart input = (taken ++ inside) ++ '>' :: later.rest := by
        rw [same, parts, List.append_assoc]
      refine behindBlanks start fun other => ?_
      have first : (taken ++ inside ++ '>' :: other).head? = Option.some c := by
        rw [head?_append_bracket (taken ++ inside) other later.rest, ← start, same]
        rfl
      obtain ⟨more, begins⟩ := List.head?_eq_some_iff.1 first
      have readFirst := readsFirst other
      rw [← List.append_assoc, begins] at readFirst
      rw [begins, readAttributes_named named, readFirst]
      simp only [reads other]
      rfl
  | case5 input c rest noBracket notClosing same unnamed ih =>
      obtain ⟨inside, parts, reads⟩ := ih some
      have start : Text.trimStart input = (c :: inside) ++ '>' :: (readAttributes rest).rest := by
        rw [same, List.cons_append, ← parts]
      refine behindBlanks start fun other => ?_
      rw [List.cons_append,
        readAttributes_skip (isBlank_of_trimStart same) (by simpa using unnamed) noBracket,
          reads other]
      intro slash bracket
      rw [head?_append_bracket inside other (readAttributes rest).rest, ← parts] at bracket
      obtain ⟨later, following⟩ := List.head?_eq_some_iff.1 bracket
      exact notClosing later slash following

/-- What is taken of a start tag that something follows is read the same in front of any other
text. -/
theorem readAttributes_append {input taken : Text}
    (parts : input = taken ++ (readAttributes input).rest)
    (some : (readAttributes input).rest ≠ []) (other : Text) :
    readAttributes (taken ++ other) =
      ⟨(readAttributes input).attributes, (readAttributes input).selfClosing, other⟩ := by
  obtain ⟨inside, ends, reads⟩ := exists_readAttributes_local input some
  have same : taken = inside ++ ['>'] := by
    have both := parts.symm.trans ends
    rw [← List.singleton_append, ← List.append_assoc] at both
    exact List.append_cancel_right both
  rw [same, List.append_assoc, List.singleton_append, reads]

end HtmlMinifier.Token

/-
# Verbatim bodies

The body of a verbatim element is what stands in front of its first end tag. It therefore contains
no such end tag, and a body without one is read back whole when the end tag is written behind it,
even if the body ends in the middle of something that looks like the end tag.
-/
import HtmlMinifier.Proofs.Text.Occurrence
import HtmlMinifier.Proofs.Token.Name

namespace HtmlMinifier.Token

/-- Nowhere in the body does an end tag of `name` begin. -/
def AvoidsEndTag (name body : Text) : Prop :=
  ∀ suffix, suffix <:+ body → dropEndTag? name suffix = none

/-- An end tag is its name and, behind blanks, a `>`. -/
theorem dropEndTag?_eq_some_iff {name input rest : Text} :
    dropEndTag? name input = some rest ↔
      ∃ inside, Text.dropFolded? ('<' :: '/' :: name) input = some inside ∧
        Text.trimStart inside = '>' :: rest := by
  unfold dropEndTag?
  constructor
  · intro found
    split at found
    · exact absurd found (Option.some_ne_none _).symm
    · next inside literal =>
        split at found
        · next behind same =>
            cases found
            exact ⟨inside, literal, same⟩
        · exact absurd found (Option.some_ne_none _).symm
  · rintro ⟨inside, literal, same⟩
    rw [literal]
    simp only [same]

/-- Blanks are skipped up to the same place when the text goes on. -/
theorem trimStart_append {text rest : Text} {c : Char} (same : Text.trimStart text = c :: rest)
    (more : Text) : Text.trimStart (text ++ more) = c :: rest ++ more := by
  unfold Text.trimStart at *
  rw [List.dropWhile_append, same]
  rfl

/-- An end tag that is found is still found when the text goes on. -/
theorem dropEndTag?_append {name input rest : Text} (found : dropEndTag? name input = some rest)
    (more : Text) : dropEndTag? name (input ++ more) = some (rest ++ more) := by
  obtain ⟨inside, literal, same⟩ := dropEndTag?_eq_some_iff.1 found
  exact dropEndTag?_eq_some_iff.2
    ⟨inside ++ more, Text.dropFolded?_append literal more, trimStart_append same more⟩

theorem readVerbatim_fst_prefix (name text : Text) : (readVerbatim name text).1 <+: text := by
  induction text with
  | nil => exact List.prefix_rfl
  | cons c text ih =>
      rw [readVerbatim]
      split
      · exact List.nil_prefix
      · exact List.cons_prefix_cons.2 ⟨rfl, ih⟩

/-- A body that is read contains no end tag of its element. -/
theorem avoidsEndTag_readVerbatim (name text : Text) :
    AvoidsEndTag name (readVerbatim name text).1 := by
  induction text with
  | nil =>
      intro suffix inside
      rw [readVerbatim, List.suffix_nil] at inside
      rw [inside]
      rfl
  | cons c text ih =>
      intro suffix inside
      rw [readVerbatim] at inside
      split at inside
      · rw [List.suffix_nil] at inside
        rw [inside]
        rfl
      · next missing =>
          rcases List.suffix_cons_iff.1 inside with whole | later
          · -- An end tag at the head of the body is one at the head of the text.
            cases found : dropEndTag? name suffix with
            | none => rfl
            | some rest =>
                obtain ⟨more, joined⟩ := readVerbatim_fst_prefix name text
                have further := dropEndTag?_append found more
                rw [whole, List.cons_append, joined, missing] at further
                exact absurd further (Option.some_ne_none _).symm
          · exact ih suffix later

/-- No end tag begins in a text without brackets. -/
theorem avoidsEndTag_of_ne_bracket (name : Text) {body : Text} (solid : ∀ c ∈ body, c ≠ '<') :
    AvoidsEndTag name body := by
  intro suffix inside
  rw [dropEndTag?]
  cases suffix with
  | nil => rfl
  | cons c later =>
      have differs : ('<' : Char).toLower ≠ c.toLower := by
        intro same
        apply solid c (inside.subset List.mem_cons_self)
        exact (Text.toLower_eq_iff (by decide) (by decide) c).1 same.symm
      rw [Text.dropFolded?_cons_cons, if_neg differs]

/-- The end tag of an element, as it is written. -/
def endTagText (name : Text) : Text := '<' :: '/' :: name ++ ['>']

/-- A written end tag is an end tag. -/
theorem dropEndTag?_endTagText (name rest : Text) :
    dropEndTag? name (endTagText name ++ rest) = some rest := by
  refine dropEndTag?_eq_some_iff.2 ⟨'>' :: rest, ?_, rfl⟩
  have found := Text.dropFolded?_append_self ('<' :: '/' :: name) ('>' :: rest)
  rwa [show endTagText name ++ rest = '<' :: '/' :: name ++ '>' :: rest by simp [endTagText]]

/-- A literal that is cut off within a text by the `<` of what follows is not found there. -/
theorem dropFolded?_append_bracket {literal text : Text} (solid : ∀ c ∈ literal, c.toLower ≠ '<')
    (short : text.length < literal.length) (rest : Text) :
    Text.dropFolded? literal (text ++ '<' :: rest) = none := by
  induction text generalizing literal with
  | nil =>
      cases literal with
      | nil => simp at short
      | cons l literal =>
          rw [List.nil_append, Text.dropFolded?_cons_cons, if_neg]
          exact solid l List.mem_cons_self
  | cons c text ih =>
      cases literal with
      | nil => simp at short
      | cons l literal =>
          rw [List.cons_append, Text.dropFolded?_cons_cons]
          split
          · exact ih (fun d inside => solid d (List.mem_cons_of_mem l inside))
              (by simpa using short)
          · rfl

/-- Behind a body that contains no end tag, the first end tag is the one that is written there. -/
theorem dropEndTag?_append_endTagText {name suffix : Text} (named : IsTagName name)
    (some : suffix ≠ []) (missing : dropEndTag? name suffix = none) (rest : Text) :
    dropEndTag? name (suffix ++ (endTagText name ++ rest)) = none := by
  obtain ⟨c, body, rfl⟩ := List.exists_cons_of_ne_nil some
  have solid : ∀ d ∈ '/' :: name, d.toLower ≠ '<' := by
    intro d inside
    rcases List.mem_cons.1 inside with rfl | later
    · decide
    · exact ne_of_isNameChar (isNameChar_toLower (named.chars d later)) (by decide)
  cases found : dropEndTag? name (c :: body ++ (endTagText name ++ rest)) with
  | none => rfl
  | some behind =>
      exfalso
      obtain ⟨inside, literal, same⟩ := dropEndTag?_eq_some_iff.1 found
      rw [List.cons_append, Text.dropFolded?_cons_cons] at literal
      split at literal
      · next opens =>
          rcases Nat.lt_or_ge body.length ('/' :: name).length with short | long
          · -- The literal would have to go on into the `<` of the written end tag.
            have cut := dropFolded?_append_bracket solid short ('/' :: name ++ ['>'] ++ rest)
            rw [show '<' :: ('/' :: name ++ ['>'] ++ rest) = endTagText name ++ rest by
              simp [endTagText]] at cut
            rw [cut] at literal
            exact absurd literal (Option.some_ne_none _).symm
          · -- The literal lies in the body, and what follows it there is nothing but blanks.
            cases within : Text.dropFolded? ('/' :: name) body with
            | none =>
                rw [Text.dropFolded?_append_eq_none long within] at literal
                exact absurd literal (Option.some_ne_none _).symm
            | some tail =>
                rw [Text.dropFolded?_append within] at literal
                cases literal
                have whole : Text.dropFolded? ('<' :: '/' :: name) (c :: body) =
                    Option.some tail := by
                  rw [Text.dropFolded?_cons_cons, if_pos opens, within]
                cases trimmed : Text.trimStart tail with
                | nil =>
                    unfold Text.trimStart at same trimmed
                    rw [List.dropWhile_append, trimmed] at same
                    simp [endTagText, Text.isBlank] at same
                | cons d later =>
                    rw [trimStart_append trimmed] at same
                    have mark : d = '>' := (List.cons.inj same).1
                    rw [dropEndTag?_eq_some_iff.2 ⟨tail, whole, by rw [trimmed, mark]⟩] at missing
                    exact absurd missing (Option.some_ne_none _)
      · exact absurd literal (Option.some_ne_none _).symm

/-- A body that contains no end tag is read back whole in front of the end tag that is written. -/
theorem readVerbatim_append {name body : Text} (named : IsTagName name)
    (avoids : AvoidsEndTag name body) (rest : Text) :
    readVerbatim name (body ++ (endTagText name ++ rest)) = (body, rest) := by
  induction body with
  | nil =>
      have found := dropEndTag?_endTagText name rest
      rw [List.nil_append]
      rw [show endTagText name ++ rest = '<' :: ('/' :: name ++ ['>'] ++ rest) by
        simp [endTagText]] at found ⊢
      rw [readVerbatim, found]
  | cons c body ih =>
      have missing := dropEndTag?_append_endTagText named (List.cons_ne_nil c body)
        (avoids _ List.suffix_rfl) rest
      rw [List.cons_append] at missing
      rw [List.cons_append, readVerbatim, missing]
      simp only
      rw [ih]
      intro suffix inside
      exact avoids suffix (inside.trans (List.suffix_cons c body))

end HtmlMinifier.Token

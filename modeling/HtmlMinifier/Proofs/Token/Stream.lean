/-
# What the reader yields

A token stream is a list of constructs. Tags have names that are read back as they are written, a
comment does not contain its own end, and the start tag of a verbatim element is followed by its
body and its end tag at once. `tokenize` yields such a stream for every text.
-/
import HtmlMinifier.Proofs.Token.Verbatim

namespace HtmlMinifier.Token

/-- A list of constructs as the reader yields them. A verbatim element whose tag closes itself has
no body of its own, so its tag stands alone. -/
inductive Stream : List Token → Prop
  | done : Stream []
  | doctype {body : Text} {later : List Token} : Stream later → Stream (.doctype body :: later)
  | comment {body : Text} {later : List Token} (avoids : Text.Avoids "-->".toList body) :
      Stream later → Stream (.comment body :: later)
  | cdata {body : Text} {later : List Token} : Stream later → Stream (.cdata body :: later)
  | text {body : Text} {later : List Token} (some : body ≠ []) :
      Stream later → Stream (.text body :: later)
  | endTag {name : Text} {later : List Token} (named : IsTagName name) :
      Stream later → Stream (.endTag name :: later)
  | startTag {name : Text} {attributes : List (Text × Option Text)} {selfClosing : Bool}
      {later : List Token} (named : IsTagName name)
      (attributeNames : ∀ given ∈ attributes, IsAttributeName given.1)
      (plain : Element.isVerbatim name = true → selfClosing = true) :
      Stream later → Stream (.startTag name attributes selfClosing :: later)
  | verbatim {name : Text} {attributes : List (Text × Option Text)} {body : Text}
      {later : List Token} (named : IsTagName name)
      (attributeNames : ∀ given ∈ attributes, IsAttributeName given.1)
      (isVerbatim : Element.isVerbatim name = true) (avoids : AvoidsEndTag name body) :
      Stream later →
        Stream (.startTag name attributes false ::
          ((if body = [] then [] else [.text body]) ++ .endTag name :: later))

/-- The start tags of a stream have names, and so have their attributes. -/
theorem named_of_mem {tokens : List Token} (stream : Stream tokens) {name : Text}
    {attributes : List (Text × Option Text)} {selfClosing : Bool}
    (member : .startTag name attributes selfClosing ∈ tokens) :
    IsTagName name ∧ ∀ given ∈ attributes, IsAttributeName given.1 := by
  induction stream with
  | done => cases member
  | doctype _ ih | comment _ _ ih | cdata _ ih | text _ _ ih | endTag _ _ ih =>
      rcases List.mem_cons.1 member with same | later
      · cases same
      · exact ih later
  | startTag named attributeNames _ _ ih =>
      rcases List.mem_cons.1 member with same | later
      · cases same
        exact ⟨named, attributeNames⟩
      · exact ih later
  | verbatim named attributeNames _ _ _ ih =>
      rcases List.mem_cons.1 member with same | further
      · cases same
        exact ⟨named, attributeNames⟩
      · rcases List.mem_append.1 further with inBody | behind
        · split at inBody
          · cases inBody
          · cases List.mem_singleton.1 inBody
        · rcases List.mem_cons.1 behind with same | later
          · cases same
          · exact ih later

/-- No comment of a stream contains its own end. -/
theorem avoids_of_mem {tokens : List Token} (stream : Stream tokens) {body : Text}
    (member : .comment body ∈ tokens) : Text.Avoids "-->".toList body := by
  induction stream with
  | done => cases member
  | doctype _ ih | cdata _ ih | text _ _ ih | endTag _ _ ih | startTag _ _ _ _ ih =>
      rcases List.mem_cons.1 member with same | later
      · cases same
      · exact ih later
  | comment avoids _ ih =>
      rcases List.mem_cons.1 member with same | later
      · cases same
        exact avoids
      · exact ih later
  | verbatim _ _ _ _ _ ih =>
      rcases List.mem_cons.1 member with same | further
      · cases same
      · rcases List.mem_append.1 further with inBody | behind
        · split at inBody
          · cases inBody
          · cases List.mem_singleton.1 inBody
        · rcases List.mem_cons.1 behind with same | later
          · cases same
          · exact ih later

/-- Every attribute of a tag that is read has a name. -/
theorem isAttributeName_of_mem_readAttributes (input : Text) :
    ∀ given ∈ (readAttributes input).attributes, IsAttributeName given.1 := by
  fun_induction readAttributes input with
  | case1 => simp
  | case2 => simp
  | case3 => simp
  | case4 input c rest _ _ same named found later ih =>
      intro given member
      rcases List.mem_cons.1 member with rfl | further
      · have name : found.1.1 = Text.lower ((c :: rest).takeWhile isAttributeChar) := by
          simp only [found, readAttribute]
          split <;> rfl
        rw [name]
        exact isAttributeName_takeWhile named rest
      · exact ih given further
  | case5 input c rest _ _ same _ ih => exact ih

/-- No element is both void and verbatim. -/
theorem isVoid_of_isVerbatim {name : Text} (isVerbatim : Element.isVerbatim name = true) :
    Element.isVoid name = false := by
  simp only [Element.isVerbatim, Element.verbatimNames, List.contains_iff_mem, List.map_cons,
    List.map_nil, List.mem_cons, List.not_mem_nil, or_false] at isVerbatim
  rcases isVerbatim with rfl | rfl | rfl | rfl <;> decide

/-- A start tag in front of a stream begins a stream. -/
theorem stream_readStartTag {c : Char} (alpha : c.isAlpha = true) (input : Text)
    {later : List Token} (stream : Stream later) :
    Stream ((readStartTag (c :: input)).1 ++ later) := by
  have named := isTagName_takeWhile alpha input
  have attributeNames := isAttributeName_of_mem_readAttributes ((c :: input).dropWhile isNameChar)
  simp only [readStartTag]
  split
  · next verbatimBody =>
      rw [Bool.and_eq_true, Bool.not_eq_true'] at verbatimBody
      rw [verbatimBody.2, isVoid_of_isVerbatim verbatimBody.1]
      have avoids := avoidsEndTag_readVerbatim
        (Text.lower ((c :: input).takeWhile isNameChar))
        (readAttributes ((c :: input).dropWhile isNameChar)).rest
      have whole := Stream.verbatim named attributeNames verbatimBody.1 avoids stream
      simpa using whole
  · next notVerbatim =>
      refine .startTag named attributeNames (fun isVerbatim => ?_) stream
      rw [isVerbatim, Bool.true_and, Bool.not_eq_true', Bool.not_eq_false] at notVerbatim
      rw [notVerbatim, Bool.true_or]

/-- A `<!` opens no tag. -/
theorem opening_mark_ne {rest : Text} {opening : Opening}
    (opens : Opening.of? ('<' :: '!' :: rest) = some opening) :
    opening ≠ .endTag ∧ opening ≠ .startTag := by
  simp only [Opening.of?, if_true] at opens
  split at opens
  · cases opens; decide
  · split at opens
    · cases opens; decide
    · split at opens <;> cases opens <;> decide

/-- What opens an end tag or a start tag is followed by a letter. -/
theorem isAlpha_of_opening {c : Char} {rest : Text} {opening : Opening}
    (opens : Opening.of? ('<' :: c :: rest) = some opening) :
    (opening = .endTag → ∃ d inside, c :: rest = '/' :: d :: inside ∧ d.isAlpha = true) ∧
    (opening = .startTag → c.isAlpha = true) := by
  by_cases mark : c = '!'
  · subst mark
    have noTag := opening_mark_ne opens
    exact ⟨fun same => absurd same noTag.1, fun same => absurd same noTag.2⟩
  · simp only [Opening.of?, if_neg mark] at opens
    by_cases question : c = '?'
    · rw [if_pos question] at opens
      cases opens
      exact ⟨by simp, by simp⟩
    · rw [if_neg question] at opens
      by_cases slash : c = '/'
      · rw [if_pos slash] at opens
        subst slash
        split at opens
        · next letter =>
            cases opens
            refine ⟨fun _ => ?_, by simp⟩
            cases rest with
            | nil => exact absurd letter (by decide)
            | cons d inside => exact ⟨d, inside, rfl, by simpa using letter⟩
        · cases opens
      · rw [if_neg slash] at opens
        split at opens
        · next alpha =>
            cases opens
            exact ⟨by simp, fun _ => alpha⟩
        · cases opens

/-- What opens begins with a `<` and has more than that. -/
theorem exists_of_opening {input : Text} {opening : Opening}
    (opens : Opening.of? input = some opening) : ∃ c rest, input = '<' :: c :: rest := by
  unfold Opening.of? at opens
  split at opens
  · exact ⟨_, _, rfl⟩
  · cases opens

/-- Only a `<` opens anything. -/
theorem opening_of_ne_bracket {c : Char} (plain : c ≠ '<') (input : Text) :
    Opening.of? (c :: input) = none := by
  cases opens : Opening.of? (c :: input) with
  | none => rfl
  | some opening =>
      obtain ⟨d, rest, same⟩ := exists_of_opening opens
      exact absurd (List.cons.inj same).1 plain

/-- Where nothing opens, at least one character of text is read. -/
theorem readText_fst_ne_nil {c : Char} {input : Text}
    (nothing : Opening.of? (c :: input) = none) : (readText (c :: input)).1 ≠ [] := by
  rw [readText, nothing]
  exact List.cons_ne_nil _ _

/-- One construct in front of a stream begins a stream. -/
theorem stream_readConstruct (c : Char) (input : Text) {later : List Token}
    (stream : Stream later) :
    Stream ((readConstruct (c :: input)).1 ++ later) := by
  cases opens : Opening.of? (c :: input) with
  | none =>
      simp only [readConstruct, opens]
      exact .text (readText_fst_ne_nil opens) stream
  | some opening =>
      cases opening with
      | comment =>
          simp only [readConstruct, opens]
          exact .comment (Text.avoids_splitAt (by decide) _) stream
      | cdata =>
          simp only [readConstruct, opens]
          exact .cdata stream
      | doctype =>
          simp only [readConstruct, opens]
          exact .doctype stream
      | bogusComment =>
          simp only [readConstruct, opens]
          exact .comment (Text.avoids_commentEnd (Text.avoids_splitAt (by decide) _)) stream
      | endTag =>
          obtain ⟨d, rest, same⟩ := exists_of_opening opens
          rw [same] at opens ⊢
          obtain ⟨d, inside, following, alpha⟩ := (isAlpha_of_opening opens).1 rfl
          rw [following] at opens ⊢
          simp only [readConstruct, opens, List.drop_succ_cons, List.drop_zero, readEndTag]
          exact .endTag (isTagName_takeWhile alpha inside) stream
      | startTag =>
          obtain ⟨d, rest, same⟩ := exists_of_opening opens
          rw [same] at opens ⊢
          have alpha := (isAlpha_of_opening opens).2 rfl
          simp only [readConstruct, opens, List.drop_succ_cons, List.drop_zero]
          exact stream_readStartTag alpha rest stream

/-- Every text is read as a stream. -/
theorem stream_tokenize (input : Text) : Stream (tokenize input) := by
  fun_induction tokenize input with
  | case1 => exact .done
  | case2 c input ih => exact stream_readConstruct c input ih

end HtmlMinifier.Token

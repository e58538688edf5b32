/-
# Token streams are well formed

Every token that is read fits its place, the token in front of it and the tokens behind it. A text
has characters, no text follows it, and unless it is a verbatim body nothing in it looks like
markup. Names are plain. The tag of a void element closes itself, and the tag of a verbatim element
that does not is followed by its body, if there is any, and by its end tag.

A construct that is read in front of tokens that fit yields tokens that fit, and what a verbatim
tag asks for comes with it as one construct. So all tokens of a text fit.
-/
import HtmlMinifier.Proofs.Token.Segment

namespace HtmlMinifier.Token

/-! ## Tokens in their places -/

/-- The names of tags: letters from `a` to `z`, digits and three marks, with a letter first. -/
structure IsPlainTagName (name : Text) : Prop where
  letter : ∃ first later, name = first :: later ∧ first.isLower = true
  chars : ∀ c ∈ name, c.isLower = true ∨ c.isDigit = true ∨ c = '-' ∨ c = '_' ∨ c = ':'

/-- The names of attributes: no letters from `A` to `Z`, no blanks, and no mark with a meaning of
its own. -/
structure IsPlainAttributeName (name : Text) : Prop where
  nonempty : name ≠ []
  chars : ∀ c ∈ name, c.isUpper = false ∧ Text.isBlank c = false ∧
    c ∉ ['/', '>', '=', '<', '"', '\'']

/-- Nothing in a text looks like markup: no `<` is followed by a letter, by `!` or `?`, or by a
slash and a letter. -/
def IsInert (body : Text) : Prop :=
  ∀ earlier c later, body = earlier ++ '<' :: c :: later →
    c.isAlpha = false ∧ c ≠ '!' ∧ c ≠ '?' ∧ (c = '/' → ∀ d, later.head? = some d →
      d.isAlpha = false)

/-- Whether a token is the tag of a verbatim element that has a body. -/
def OpensBody (token : Token) : Prop :=
  ∃ name attributes, token = .startTag name attributes false ∧ Element.isVerbatim name = true

/-- A text in its place: it is not empty, no text follows, and it is inert unless it is a body. -/
structure TextFits (before : Option Token) (body : Text) (later : List Token) : Prop where
  nonempty : body ≠ []
  apart : ∀ other rest, later ≠ .text other :: rest
  inert : IsInert body ∨ ∃ token, before = some token ∧ OpensBody token

/-- A start tag in its place: it has plain names, it closes itself if its element is void, and if
its element is verbatim and it does not close itself, at most one text stands in front of its end
tag. -/
structure StartTagFits (name : Text) (attributes : List (Text × Option Text)) (selfClosing : Bool)
    (later : List Token) : Prop where
  plain : IsPlainTagName name
  attributes : ∀ given ∈ attributes, IsPlainAttributeName given.1
  closesVoid : Element.isVoid name = true → selfClosing = true
  closesBody : Element.isVerbatim name = true → selfClosing = false →
    ∃ body rest, (body = [] ∨ ∃ text, body = [.text text]) ∧ later = body ++ .endTag name :: rest

/-- Whether a token fits between the token in front of it and the tokens behind it. -/
def Fits (before : Option Token) : Token → List Token → Prop
  | .text body, later => TextFits before body later
  | .startTag name attributes selfClosing, later => StartTagFits name attributes selfClosing later
  | .endTag name, _ => IsPlainTagName name
  | .doctype _, _ => True
  | .comment _, _ => True
  | .cdata _, _ => True

/-- All tokens of a list fit their places, where `before` stands in front of the first one. -/
def AllFit (before : Option Token) (tokens : List Token) : Prop :=
  ∀ earlier token later, tokens = earlier ++ token :: later → Fits (earlier.getLast?.or before)
    token later

theorem allFit_nil (before : Option Token) : AllFit before [] := by
  intro earlier token later parts
  simp at parts

/-- The first token is what stands in front of the others. -/
theorem allFit_cons_iff {before : Option Token} {token : Token} {tokens : List Token} :
    AllFit before (token :: tokens) ↔ Fits before token tokens ∧ AllFit (some token) tokens := by
  have inFront : ∀ earlier : List Token,
      (token :: earlier).getLast?.or before = earlier.getLast?.or (some token) := by
    intro earlier
    rw [List.getLast?_cons]
    cases earlier.getLast? with
    | none => rfl
    | some last => rfl
  constructor
  · intro fit
    refine ⟨fit [] token tokens rfl, fun earlier other later parts => ?_⟩
    rw [← inFront earlier]
    exact fit (token :: earlier) other later (congrArg (List.cons token) parts)
  · rintro ⟨first, others⟩ earlier other later parts
    cases earlier with
    | nil =>
        cases parts
        exact first
    | cons head earlier =>
        obtain ⟨rfl, behind⟩ := List.cons.inj parts
        rw [inFront earlier]
        exact others earlier other later behind

/-- What fits behind nothing fits behind every token. -/
theorem AllFit.behind {tokens : List Token} (fit : AllFit none tokens) (before : Option Token) :
    AllFit before tokens := by
  cases tokens with
  | nil => exact allFit_nil before
  | cons token tokens =>
      rw [allFit_cons_iff] at fit ⊢
      refine ⟨?_, fit.2⟩
      cases token with
      | text body =>
          obtain ⟨nonempty, apart, inert | ⟨token, nothing, _⟩⟩ := fit.1
          · exact ⟨nonempty, apart, .inl inert⟩
          · cases nothing
      | doctype body | comment body | cdata body | endTag name
      | startTag name attributes selfClosing => exact fit.1

/-! ## Names -/

theorem IsTagName.isPlain {name : Text} (named : IsTagName name) : IsPlainTagName name where
  letter := by
    obtain ⟨first, later, rfl, alpha⟩ := named.letter
    exact ⟨first, later, rfl,
      isLower_of_isAlpha alpha (Text.toLower_of_mem named.lower List.mem_cons_self)⟩
  chars c inside := by
    have lower := Text.toLower_of_mem named.lower inside
    have char := named.chars c inside
    simp only [isNameChar, Char.isAlphanum, Bool.or_eq_true, decide_eq_true_iff] at char
    rcases char with (((alpha | digit) | dash) | line) | colon
    · exact .inl (isLower_of_isAlpha alpha lower)
    · exact .inr (.inl digit)
    · exact .inr (.inr (.inl dash))
    · exact .inr (.inr (.inr (.inl line)))
    · exact .inr (.inr (.inr (.inr colon)))

theorem IsAttributeName.isPlain {name : Text} (named : IsAttributeName name) :
    IsPlainAttributeName name where
  nonempty := named.some
  chars c inside := by
    refine ⟨Text.isUpper_of_toLower_eq (Text.toLower_of_mem named.lower inside), ?_, ?_⟩
    · exact isBlank_of_isAttributeChar (named.chars c inside)
    · have char := named.chars c inside
      simp only [isAttributeChar, Bool.not_eq_true', Bool.or_eq_false_iff, decide_eq_false_iff_not]
        at char
      simp [char]

/-! ## Runs of text -/

/-- Where nothing opens, a `<` is followed by nothing that looks like markup. -/
theorem inert_of_opening_none {c : Char} {rest : Text}
    (nothing : Opening.of? ('<' :: c :: rest) = none) :
    c.isAlpha = false ∧ c ≠ '!' ∧ c ≠ '?' ∧
    (c = '/' → ∀ d, rest.head? = some d → d.isAlpha = false) := by
  refine ⟨?_, ?_, ?_, ?_⟩
  · cases alpha : c.isAlpha with
    | false => rfl
    | true =>
        rw [opening_startTag alpha] at nothing
        cases nothing
  · rintro rfl
    rw [Opening.of?, if_pos rfl] at nothing
    repeat' split at nothing
    all_goals cases nothing
  · rintro rfl
    cases nothing
  · rintro rfl d first
    obtain ⟨behind, rfl⟩ := List.head?_eq_some_iff.1 first
    cases alpha : d.isAlpha with
    | false => rfl
    | true =>
        rw [opening_endTag alpha] at nothing
        cases nothing

/-- A run of text is inert. -/
theorem isInert_readText (input : Text) : IsInert (readText input).1 := by
  intro earlier c later parts
  have nothing := (readText_parts input).2.1 earlier ('<' :: c :: later)
    (List.cons_ne_nil _ _) parts
  obtain ⟨noLetter, noMark, noQuestion, noSlash⟩ := inert_of_opening_none nothing
  refine ⟨noLetter, noMark, noQuestion, fun slash d first => noSlash slash d ?_⟩
  obtain ⟨behind, rfl⟩ := List.head?_eq_some_iff.1 first
  rfl

/-- Where a construct opens, no text is read first. -/
theorem tokenize_ne_text {input : Text} (opens : (Opening.of? input).isSome = true) (body : Text)
    (rest : List Token) : tokenize input ≠ .text body :: rest := by
  obtain ⟨opening, same⟩ := Option.isSome_iff_exists.1 opens
  obtain ⟨c, inside, rfl⟩ := exists_of_opening same
  rw [tokenize, readConstruct, same]
  cases opening with
  | comment | cdata | doctype | bogusComment | endTag => simp [readEndTag]
  | startTag =>
      simp only [readStartTag]
      split
      · simp
      · simp

/-! ## Constructs -/

/-- The tag of a verbatim element fits in front of its body and its end tag, and these in front of
what fits. -/
theorem allFit_verbatim {name : Text} {attributes : List (Text × Option Text)}
    (named : IsPlainTagName name)
    (attributeNames : ∀ given ∈ attributes, IsPlainAttributeName given.1)
    (isVerbatim : Element.isVerbatim name = true) (body : Text) {later : List Token}
    (fit : AllFit none later) :
    AllFit none (.startTag name attributes false ::
      ((if body = [] then [] else [.text body]) ++ .endTag name :: later)) := by
  have tagFits : ∀ inner : List Token, (inner = [] ∨ ∃ text, inner = [.text text]) →
      Fits none (.startTag name attributes false) (inner ++ .endTag name :: later) := by
    intro inner short
    refine ⟨named, attributeNames, fun isVoid => ?_, fun _ _ => ⟨inner, later, short, rfl⟩⟩
    rw [isVoid_of_isVerbatim isVerbatim] at isVoid
    cases isVoid
  have endFits : ∀ before, AllFit before (.endTag name :: later) := fun before =>
    allFit_cons_iff.2 ⟨named, fit.behind _⟩
  rw [allFit_cons_iff]
  by_cases none : body = []
  · rw [if_pos none]
    exact ⟨tagFits [] (.inl rfl), endFits _⟩
  · rw [if_neg none, List.singleton_append]
    refine ⟨tagFits [.text body] (.inr ⟨body, rfl⟩), allFit_cons_iff.2 ⟨⟨none, ?_, .inr ?_⟩,
      endFits _⟩⟩
    · intro other rest same
      cases same
    · exact ⟨_, rfl, name, attributes, rfl, isVerbatim⟩

/-- A start tag fits in front of tokens that fit, with the body and the end tag of its element. -/
theorem allFit_readStartTag {c : Char} (alpha : c.isAlpha = true) (input : Text)
    {later : List Token}
    (fit : AllFit none later) : AllFit none ((readStartTag (c :: input)).1 ++ later) := by
  have named := (isTagName_takeWhile alpha input).isPlain
  have attributeNames : ∀ given ∈ (readAttributes ((c :: input).dropWhile isNameChar)).attributes,
      IsPlainAttributeName given.1 := fun given member =>
    (isAttributeName_of_mem_readAttributes _ given member).isPlain
  simp only [readStartTag]
  split
  · next verbatim =>
      rw [Bool.and_eq_true, Bool.not_eq_true'] at verbatim
      rw [verbatim.2, isVoid_of_isVerbatim verbatim.1]
      have whole := allFit_verbatim named attributeNames verbatim.1
        (readVerbatim (Text.lower ((c :: input).takeWhile isNameChar))
          (readAttributes ((c :: input).dropWhile isNameChar)).rest).1 fit
      simpa using whole
  · next notVerbatim =>
      rw [List.singleton_append, allFit_cons_iff]
      refine ⟨⟨named, attributeNames, fun isVoid => ?_, fun isVerbatim isOpen => ?_⟩, fit.behind _⟩
      · rw [isVoid, Bool.or_true]
      · rw [Bool.or_eq_false_iff] at isOpen
        rw [isVerbatim, isOpen.1] at notVerbatim
        exact absurd rfl notVerbatim

/-- A construct fits in front of tokens that fit, unless it is a run of text in front of a text. -/
theorem allFit_readConstruct (c : Char) (input : Text)
    (fit : AllFit none (tokenize (readConstruct (c :: input)).2)) :
    AllFit none ((readConstruct (c :: input)).1 ++ tokenize (readConstruct (c :: input)).2) := by
  -- A token with no names of its own fits in front of all that fits.
  have alone : ∀ {token : Token} {later : List Token}, Fits none token later → AllFit none later →
      AllFit none ([token] ++ later) := fun fits others =>
    allFit_cons_iff.2 ⟨fits, others.behind _⟩
  cases opens : Opening.of? (c :: input) with
  | none =>
      obtain ⟨parts, _, ends⟩ := readText_parts (c :: input)
      simp only [readConstruct, opens] at fit ⊢
      refine alone ⟨readText_fst_ne_nil opens, fun other rest => ?_, .inl (isInert_readText _)⟩ fit
      rcases ends with none | some
      · rw [none, tokenize]
        intro same
        cases same
      · exact tokenize_ne_text some other rest
  | some opening =>
      cases opening with
      | comment | cdata | doctype | bogusComment =>
          simp only [readConstruct, opens] at fit ⊢
          exact alone trivial fit
      | endTag =>
          obtain ⟨d, rest, same⟩ := exists_of_opening opens
          rw [same] at opens fit ⊢
          obtain ⟨d, inside, following, alpha⟩ := (isAlpha_of_opening opens).1 rfl
          rw [following] at opens fit ⊢
          simp only [readConstruct, opens, List.drop_succ_cons, List.drop_zero,
            readEndTag] at fit ⊢
          exact alone (isTagName_takeWhile alpha inside).isPlain fit
      | startTag =>
          obtain ⟨d, rest, same⟩ := exists_of_opening opens
          rw [same] at opens fit ⊢
          have alpha := (isAlpha_of_opening opens).2 rfl
          simp only [readConstruct, opens, List.drop_succ_cons, List.drop_zero] at fit ⊢
          exact allFit_readStartTag alpha rest fit

/-- Every token of a text fits its place. -/
theorem tokenize_wellFormed (input : Text) : AllFit none (tokenize input) := by
  fun_induction tokenize input with
  | case1 => exact allFit_nil none
  | case2 c input ih => exact allFit_readConstruct c input ih

end HtmlMinifier.Token

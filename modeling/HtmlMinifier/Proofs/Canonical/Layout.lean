/-
# Documents around the elements that keep their text

A written document without raw text and comments is letters and tags. Among the tags, those of an
element that keeps its text are looked at together with what stands between them, so a document is
a sequence of letters, of other tags, and of such elements, which are documents again. A title
stands for itself, because its text is no markup.

A letter is a character that the text stands for. What is written for it may be a reference, but it
never holds a bracket, so it cannot be taken for a tag.
-/
import HtmlMinifier.Proofs.Canonical.Characters
import HtmlMinifier.Proofs.Event.Heeded
import HtmlMinifier.Proofs.Reference.Encoded

namespace HtmlMinifier.Canonical

open Event (charTokens preserves)
open Token (IsTagName IsEncodedAttribute)

/-- The layout of a document behind its document type. -/
inductive Layout where
  | nil
  | letter (c : Char) (later : Layout)
  | tag (piece : Piece) (later : Layout)
  | verbatim (name : Text) (attributes : List (Text × Option Text)) (body : Text) (later : Layout)
  | element (name : Text) (attributes : List (Text × Option Text)) (inner later : Layout)
  deriving DecidableEq, Repr

/-- A tag of an element whose text is markup and is not kept as it is. -/
inductive Piece.IsOrdinaryTag : Piece → Prop
  | startTag {name : Text} {attributes : List (Text × Option Text)} (named : IsTagName name)
      (noVerbatim : Element.isVerbatim name = false) (ordinary : preserves name = false)
      (encoded : ∀ attr ∈ attributes, IsEncodedAttribute attr) :
      IsOrdinaryTag (.startTag name attributes)
  | endTag {name : Text} (named : IsTagName name) (ordinary : preserves name = false) :
      IsOrdinaryTag (.endTag name)

theorem Piece.IsOrdinaryTag.begins {piece : Piece} (ordinary : piece.IsOrdinaryTag) :
    ∃ inside, piece.render = '<' :: inside := by
  cases ordinary <;> exact ⟨_, rfl⟩

theorem Piece.IsOrdinaryTag.noRun {piece : Piece} (ordinary : piece.IsOrdinaryTag) :
    ∀ verbatim text, piece ≠ .run verbatim text := by
  cases ordinary <;> simp

namespace Layout

/-! ## What a layout holds -/

/-- The text of a layout. -/
def text : Layout → Text
  | nil => []
  | letter c later => Reference.encodeChar c ++ later.text
  | tag piece later => piece.render ++ later.text
  | verbatim name attributes body later =>
      (Piece.startTag name attributes).render ++
        (Reference.encode body ++ ((Piece.endTag name).render ++ later.text))
  | element name attributes inner later =>
      (Piece.startTag name attributes).render ++
        (inner.text ++ ((Piece.endTag name).render ++ later.text))

/-- The characters that a layout is read as, and its tags between them. -/
def tokens : Layout → List Token
  | nil => []
  | letter c later => charTokens (Reference.encodeChar c) ++ later.tokens
  | tag piece later => piece.spelled ++ later.tokens
  | verbatim name attributes body later =>
      (Piece.startTag name attributes).spelled ++
        (charTokens (Reference.encode body) ++ .endTag name :: later.tokens)
  | element name attributes inner later =>
      (Piece.startTag name attributes).spelled ++ (inner.tokens ++ .endTag name :: later.tokens)

/-- The text that a layout stands for. -/
def content : Layout → Text
  | nil => []
  | letter c later => c :: later.content
  | tag _ later => later.content
  | verbatim _ _ body later => body ++ later.content
  | element _ _ inner later => inner.content ++ later.content

/-- The elements that keep their text, in the order of their start tags. -/
def nodes : Layout → List Layout
  | nil => []
  | letter _ later => later.nodes
  | tag _ later => later.nodes
  | verbatim _ _ _ later => later.nodes
  | element name attributes inner later =>
      element name attributes inner nil :: (inner.nodes ++ later.nodes)

/-- The names of all start tags with their attributes. -/
def startTags : Layout → List (Text × List (Text × Option Text))
  | nil => []
  | letter _ later => later.startTags
  | tag (.startTag name attributes) later => (name, attributes) :: later.startTags
  | tag _ later => later.startTags
  | verbatim name attributes _ later => (name, attributes) :: later.startTags
  | element name attributes inner later =>
      (name, attributes) :: (inner.startTags ++ later.startTags)

/-- Letters in front of a layout. -/
def ofText (letters : Text) (later : Layout) : Layout := letters.foldr letter later

/-- Whether there are but letters. -/
def IsText (layout : Layout) : Prop := ∃ letters, layout = ofText letters nil

/-- A layout as it is written: every tag has a name, and a verbatim element holds but letters. -/
inductive IsPlain : Layout → Prop
  | nil : IsPlain nil
  | letter {c : Char} {later : Layout} : IsPlain later → IsPlain (letter c later)
  | tag {piece : Piece} {later : Layout} (ordinary : piece.IsOrdinaryTag) :
      IsPlain later → IsPlain (tag piece later)
  | verbatim {name : Text} {attributes : List (Text × Option Text)} {body : Text} {later : Layout}
      (named : IsTagName name) (isVerbatim : Element.isVerbatim name = true)
      (ordinary : preserves name = false) (encoded : ∀ attr ∈ attributes,
        IsEncodedAttribute attr) :
      IsPlain later → IsPlain (verbatim name attributes body later)
  | element {name : Text} {attributes : List (Text × Option Text)} {inner later : Layout}
      (named : IsTagName name) (keeps : preserves name = true)
      (encoded : ∀ attr ∈ attributes, IsEncodedAttribute attr)
      (text : Element.isVerbatim name = true → inner.IsText) :
      IsPlain inner → IsPlain later → IsPlain (element name attributes inner later)

/-! ## Letters -/

@[simp]
theorem ofText_nil (later : Layout) : ofText [] later = later := rfl

@[simp]
theorem ofText_cons (c : Char) (letters : Text) (later : Layout) :
    ofText (c :: letters) later = letter c (ofText letters later) := rfl

theorem text_ofText (letters : Text) (later : Layout) :
    (ofText letters later).text = Reference.encode letters ++ later.text := by
  induction letters with
  | nil => rfl
  | cons c letters ih =>
      rw [ofText_cons, text, ih, ← List.append_assoc, Reference.encode, Reference.encode,
        List.flatMap_cons]

theorem tokens_ofText (letters : Text) (later : Layout) :
    (ofText letters later).tokens = charTokens (Reference.encode letters) ++ later.tokens := by
  induction letters with
  | nil => rfl
  | cons c letters ih =>
      rw [ofText_cons, tokens, ih, ← List.append_assoc, ← Event.charTokens_append,
        Reference.encode,
        Reference.encode, List.flatMap_cons]

theorem content_ofText (letters : Text) (later : Layout) :
    (ofText letters later).content = letters ++ later.content := by
  induction letters with
  | nil => rfl
  | cons c letters ih => exact congrArg (c :: ·) ih

theorem nodes_ofText (letters : Text) (later : Layout) :
    (ofText letters later).nodes = later.nodes := by
  induction letters with
  | nil => rfl
  | cons c letters ih => exact ih

theorem startTags_ofText (letters : Text) (later : Layout) :
    (ofText letters later).startTags = later.startTags := by
  induction letters with
  | nil => rfl
  | cons c letters ih => exact ih

theorem IsPlain.ofText {later : Layout} (plain : later.IsPlain) (letters : Text) :
    (ofText letters later).IsPlain := by
  induction letters with
  | nil => exact plain
  | cons c letters ih => exact .letter ih

/-! ## One layout behind another -/

/-- A layout behind another. -/
def append : Layout → Layout → Layout
  | nil, second => second
  | letter c later, second => letter c (later.append second)
  | tag piece later, second => tag piece (later.append second)
  | verbatim name attributes body later, second =>
      verbatim name attributes body (later.append second)
  | element name attributes inner later, second =>
      element name attributes inner (later.append second)

theorem text_append (first second : Layout) :
    (first.append second).text = first.text ++ second.text := by
  induction first with
  | nil => rfl
  | letter c later ih | tag piece later ih | verbatim name attributes body later ih
  | element name attributes inner later _ ih => simp only [append, text, ih, List.append_assoc]

theorem content_append (first second : Layout) :
    (first.append second).content = first.content ++ second.content := by
  induction first with
  | nil => rfl
  | letter c later ih | verbatim name attributes body later ih
  | element name attributes inner later _ ih =>
      simp only [append, content, ih, List.append_assoc, List.cons_append]
  | tag piece later ih => exact ih

theorem nodes_append (first second : Layout) :
    (first.append second).nodes = first.nodes ++ second.nodes := by
  induction first with
  | nil => rfl
  | letter c later ih | tag piece later ih | verbatim name attributes body later ih => exact ih
  | element name attributes inner later _ ih =>
      simp only [append, nodes, ih, List.append_assoc, List.cons_append]

theorem startTags_append (first second : Layout) :
    (first.append second).startTags = first.startTags ++ second.startTags := by
  induction first with
  | nil => rfl
  | letter c later ih => exact ih
  | tag piece later ih => cases piece <;> simp [append, startTags, ih]
  | verbatim name attributes body later ih => exact congrArg (_ :: ·) ih
  | element name attributes inner later _ ih =>
      simp only [append, startTags, ih, List.append_assoc, List.cons_append]

theorem IsPlain.append {first second : Layout} (plain : first.IsPlain) (behind : second.IsPlain) :
    (first.append second).IsPlain := by
  induction plain with
  | nil => exact behind
  | letter _ ih => exact .letter ih
  | tag ordinary _ ih => exact .tag ordinary ih
  | verbatim named isVerbatim ordinary encoded _ ih =>
      exact .verbatim named isVerbatim ordinary encoded ih
  | element named keeps encoded text inner _ _ ih =>
      exact .element named keeps encoded text inner ih

/-- A layout with letters behind it. -/
def followedBy (layout : Layout) (letters : Text) : Layout := layout.append (ofText letters nil)

section
variable (layout : Layout) (letters : Text)

theorem text_followedBy : (layout.followedBy letters).text = layout.text ++
    Reference.encode letters := by
  rw [followedBy, text_append, text_ofText, text, List.append_nil]

theorem content_followedBy : (layout.followedBy letters).content = layout.content ++ letters := by
  rw [followedBy, content_append, content_ofText, content, List.append_nil]

theorem nodes_followedBy : (layout.followedBy letters).nodes = layout.nodes := by
  rw [followedBy, nodes_append, nodes_ofText, nodes, List.append_nil]

theorem startTags_followedBy : (layout.followedBy letters).startTags = layout.startTags := by
  rw [followedBy, startTags_append, startTags_ofText, startTags, List.append_nil]

variable {layout}

theorem IsPlain.followedBy (plain : layout.IsPlain) : (layout.followedBy letters).IsPlain :=
  plain.append (IsPlain.nil.ofText letters)

theorem IsText.followedBy (textual : layout.IsText) : (layout.followedBy letters).IsText := by
  obtain ⟨front, rfl⟩ := textual
  refine ⟨front ++ letters, ?_⟩
  rw [Layout.followedBy]
  induction front with
  | nil => rfl
  | cons c front ih => exact congrArg (letter c) ih

end

/-! ## An element around a layout -/

/-- An element with a layout between its tags. -/
def wrap (name : Text) (attributes : List (Text × Option Text)) (inner : Layout) : Layout :=
  if preserves name then element name attributes inner nil
  else if Element.isVerbatim name then verbatim name attributes inner.content nil
  else tag (.startTag name attributes) (inner.append (tag (.endTag name) nil))

section
variable {name : Text} {attributes : List (Text × Option Text)} {inner : Layout}
  (textual : Element.isVerbatim name = true → inner.IsText)
include textual

theorem text_wrap :
    (wrap name attributes inner).text =
      (Piece.startTag name attributes).render ++ (inner.text ++ (Piece.endTag name).render) := by
  rw [wrap]
  split
  · rw [text, text, List.append_nil]
  · split
    · next isVerbatim =>
        obtain ⟨letters, rfl⟩ := textual isVerbatim
        simp only [text, text_ofText, content_ofText, content, List.append_nil]
    · simp only [text, text_append, List.append_nil]

omit textual in
theorem content_wrap : (wrap name attributes inner).content = inner.content := by
  rw [wrap]
  split
  · rw [content, content, List.append_nil]
  · split
    · rw [content, content, List.append_nil]
    · simp only [content, content_append, List.append_nil]

theorem nodes_wrap :
    (wrap name attributes inner).nodes =
      (if preserves name then [element name attributes inner nil] else []) ++ inner.nodes := by
  rw [wrap]
  split
  · simp only [nodes, List.append_nil, List.singleton_append]
  · split
    · next isVerbatim =>
        obtain ⟨letters, rfl⟩ := textual isVerbatim
        simp only [nodes, nodes_ofText, List.append_nil]
    · simp only [nodes, nodes_append, List.append_nil, List.nil_append]

theorem startTags_wrap :
    (wrap name attributes inner).startTags = (name, attributes) :: inner.startTags := by
  rw [wrap]
  split
  · simp only [startTags, List.append_nil]
  · split
    · next isVerbatim =>
        obtain ⟨letters, rfl⟩ := textual isVerbatim
        simp only [startTags, startTags_ofText]
    · simp only [startTags, startTags_append, List.append_nil]

theorem IsPlain.wrap (named : IsTagName name)
    (encoded : ∀ attr ∈ attributes, IsEncodedAttribute attr)
    (plain : inner.IsPlain) : (wrap name attributes inner).IsPlain := by
  rw [Layout.wrap]
  split
  · next keeps => exact .element named keeps encoded textual plain .nil
  · next ordinary =>
      rw [Bool.not_eq_true] at ordinary
      split
      · next isVerbatim => exact .verbatim named isVerbatim ordinary encoded .nil
      · next noVerbatim =>
          rw [Bool.not_eq_true] at noVerbatim
          exact .tag (.startTag named noVerbatim ordinary encoded)
            (plain.append (.tag (.endTag named ordinary) .nil))

end

/-! ## Trimming -/

/-- Blanks are not cut off through what ends with none. -/
theorem trimEnd_solid_append {front : Text} (solid : Text.endsBlank front = false) (later : Text) :
    Text.trimEnd (front ++ later) = front ++ Text.trimEnd later := by
  rw [Text.trimEnd_append]
  split
  · next vanishes => rw [vanishes, List.append_nil, Text.trimEnd_eq_self_iff.2 solid]
  · rfl

/-- A tag ends with no blank. -/
theorem endsBlank_append_render (piece : Piece)
    (noRun : ∀ verbatim text, piece ≠ .run verbatim text)
    (earlier : Text) : Text.endsBlank (earlier ++ piece.render) = false :=
  Text.trimEnd_eq_self_iff.1 (trimEnd_append_render piece noRun earlier)

/-- Trimming takes blanks at the end of a document, and no element loses any. -/
theorem exists_trimEnd {layout : Layout} (plain : layout.IsPlain) :
    ∃ trimmed : Layout, trimmed.IsPlain ∧ trimmed.text = Text.trimEnd layout.text ∧
      trimmed.nodes = layout.nodes ∧ trimmed.startTags = layout.startTags := by
  induction plain with
  | nil => exact ⟨nil, .nil, rfl, rfl, rfl⟩
  | @letter c later _ ih =>
      obtain ⟨trimmed, plain, same, nodes, startTags⟩ := ih
      cases blank : Text.isBlank c with
      | true =>
          rw [text, Reference.encodeChar_of_isBlank blank, Text.trimEnd_append, ← same]
          by_cases vanishes : trimmed.text = []
          · refine ⟨trimmed, plain, ?_, nodes, startTags⟩
            have alone : Text.trimEnd [c] = [] := Text.trimEnd_concat_of_blank blank []
            rw [if_pos vanishes, vanishes, alone]
          · refine ⟨letter c trimmed, .letter plain, ?_, nodes, startTags⟩
            rw [if_neg vanishes, text, Reference.encodeChar_of_isBlank blank]
      | false =>
          have ends : Text.endsBlank (Reference.encodeChar c) = false :=
            Text.endsBlank_of_solid (Reference.encodeChar_of_not_isBlank blank).2
          refine ⟨letter c trimmed, .letter plain, ?_, nodes, startTags⟩
          rw [text, text, trimEnd_solid_append ends, same]
  | @tag piece later ordinary _ ih =>
      obtain ⟨trimmed, plain, same, nodes, startTags⟩ := ih
      refine ⟨tag piece trimmed, .tag ordinary plain, ?_, nodes, ?_⟩
      · have ends := endsBlank_append_render piece ordinary.noRun []
        rw [List.nil_append] at ends
        rw [text, text, trimEnd_solid_append ends, same]
      · cases piece <;> simp only [Layout.startTags, startTags]
  | @verbatim name attributes body later named isVerbatim ordinary encoded _ ih =>
      obtain ⟨trimmed, plain, same, nodes, startTags⟩ := ih
      refine ⟨verbatim name attributes body trimmed,
        .verbatim named isVerbatim ordinary encoded plain, ?_, nodes, congrArg (_ :: ·) startTags⟩
      have ends := endsBlank_append_render (.endTag name) (by simp)
        ((Piece.startTag name attributes).render ++ Reference.encode body)
      simp only [text, ← List.append_assoc] at same ⊢
      rw [trimEnd_solid_append ends, same]
  | @element name attributes inner later named keeps encoded textual plainInner _ _ ih =>
      obtain ⟨trimmed, plain, same, nodes, startTags⟩ := ih
      refine ⟨element name attributes inner trimmed,
        .element named keeps encoded textual plainInner plain, ?_, ?_, ?_⟩
      · have ends := endsBlank_append_render (.endTag name) (by simp)
          ((Piece.startTag name attributes).render ++ inner.text)
        simp only [text, ← List.append_assoc] at same ⊢
        rw [trimEnd_solid_append ends, same]
      · rw [Layout.nodes, Layout.nodes, nodes]
      · rw [Layout.startTags, Layout.startTags, startTags]

/-! ## Reading -/

/-- A verbatim element without brackets is read tag by tag, whether or not its start tag is read as
one that closes itself. -/
theorem charsOf_verbatim {name : Text} {attributes : List (Text × Option Text)}
    (named : IsTagName name)
    (encoded : ∀ attr ∈ attributes, IsEncodedAttribute attr)
    {body : Text} (solid : ∀ c ∈ body, c ≠ '<') (rest : Text) :
    charsOf ((Piece.startTag name attributes).render ++
    (body ++ ((Piece.endTag name).render ++ rest))) =
      (Piece.startTag name attributes).spelled ++
      (charTokens body ++ .endTag name :: charsOf rest) := by
  rw [charsOf_startTag named encoded]
  cases entered : (Piece.startTag name attributes).enters? with
  | none => rw [charsOf_append solid, charsOf_endTag named]
  | some other =>
      have same : other = name := by
        rw [Piece.enters?] at entered
        split at entered
        · exact (Option.some.inj entered).symm
        · cases entered
      have ends : (Piece.endTag name).render = Token.endTagText name := rfl
      rw [same, ends]
      simp only [Token.readVerbatim_append named (Token.avoidsEndTag_of_ne_bracket name solid)]

theorem ne_bracket_of_mem_encode (letters : Text) : ∀ c ∈ Reference.encode letters, c ≠ '<' :=
  Reference.IsEncoded.ne_bracket ⟨letters, rfl⟩

/-- A layout is read as its tokens in front of whatever follows it. -/
theorem charsOf_text_append {layout : Layout} (plain : layout.IsPlain) (rest : Text) :
    charsOf (layout.text ++ rest) = layout.tokens ++ charsOf rest := by
  induction plain generalizing rest with
  | nil => rfl
  | @letter c later _ ih =>
      have letters : ∀ d ∈ Reference.encodeChar c, d ≠ '<' := fun d inside =>
        Reference.ne_bracket_of_mem_encodeChar inside
      rw [text, List.append_assoc, charsOf_append letters, ih, tokens, List.append_assoc]
  | @tag piece later ordinary _ ih =>
      rw [text, List.append_assoc, tokens, List.append_assoc]
      cases ordinary with
      | startTag named noVerbatim _ encoded =>
          rw [charsOf_startTag named encoded, enters?_of_noVerbatim noVerbatim, ih]
      | endTag named _ =>
          rw [charsOf_endTag named, ih]
          rfl
  | @verbatim name attributes body later named isVerbatim ordinary encoded _ ih =>
      simp only [text, tokens, List.append_assoc, List.cons_append]
      rw [charsOf_verbatim named encoded (ne_bracket_of_mem_encode body), ih]
  | @element name attributes inner later named keeps encoded textual _ _ ihInner ih =>
      simp only [text, tokens, List.append_assoc, List.cons_append]
      cases isVerbatim : Element.isVerbatim name with
      | true =>
          obtain ⟨letters, rfl⟩ := textual isVerbatim
          rw [text_ofText, tokens_ofText, text, tokens, List.append_nil, List.append_nil,
            charsOf_verbatim named encoded (ne_bracket_of_mem_encode letters), ih]
      | false =>
          rw [charsOf_startTag named encoded, enters?_of_noVerbatim isVerbatim, ihInner,
            charsOf_endTag named, ih]

/-- The start tags of a layout are read with their names. -/
theorem exists_of_startTag_mem_tokens {layout : Layout} (plain : layout.IsPlain) {name : Text}
    {given : List (Text × Option Text)} {selfClosing : Bool}
    (member : .startTag name given selfClosing ∈ layout.tokens) :
    ∃ attributes, (name, attributes) ∈ layout.startTags ∧
      selfClosing = ((tagRead attributes).selfClosing || Element.isVoid name) := by
  have noLetter : ∀ letters : Text, .startTag name given selfClosing ∉ charTokens letters := by
    intro letters inside
    obtain ⟨c, _, same⟩ := List.mem_map.1 inside
    cases same
  induction plain with
  | nil => cases member
  | letter _ ih =>
      rcases List.mem_append.1 member with front | behind
      · exact absurd front (noLetter _)
      · exact ih behind
  | tag ordinary _ ih =>
      rcases List.mem_append.1 member with front | behind
      · cases ordinary with
        | @startTag other attributes =>
            cases List.mem_singleton.1 front
            exact ⟨attributes, List.mem_cons_self, rfl⟩
        | endTag => cases List.mem_singleton.1 front
      · obtain ⟨attributes, inside, same⟩ := ih behind
        refine ⟨attributes, ?_, same⟩
        cases ordinary with
        | startTag => exact List.mem_cons_of_mem _ inside
        | endTag => exact inside
  | verbatim named isVerbatim ordinary encoded _ ih =>
      rcases List.mem_append.1 member with front | behind
      · cases List.mem_singleton.1 front
        exact ⟨_, List.mem_cons_self, rfl⟩
      · rcases List.mem_append.1 behind with body | last
        · exact absurd body (noLetter _)
        · obtain ⟨attributes, inside, same⟩ := ih ((List.mem_cons.1 last).resolve_left (by simp))
          exact ⟨attributes, List.mem_cons_of_mem _ inside, same⟩
  | element named keeps encoded text _ _ ihInner ih =>
      rcases List.mem_append.1 member with front | behind
      · cases List.mem_singleton.1 front
        exact ⟨_, List.mem_cons_self, rfl⟩
      · rcases List.mem_append.1 behind with body | last
        · obtain ⟨attributes, inside, same⟩ := ihInner body
          exact ⟨attributes, List.mem_cons_of_mem _ (List.mem_append_left _ inside), same⟩
        · obtain ⟨attributes, inside, same⟩ := ih ((List.mem_cons.1 last).resolve_left (by simp))
          exact ⟨attributes, List.mem_cons_of_mem _ (List.mem_append_right _ inside), same⟩

end Layout

end HtmlMinifier.Canonical

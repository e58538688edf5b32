/-
# Reading a document around the elements that keep their text

What an element keeps is what its letters stand for, whatever tags stand between them. Where the
elements of a layout are sealed, so that every end tag in them is heeded, the builder finds just
these elements in the text of the layout, in their order.
-/
import HtmlMinifier.Proofs.Canonical.Layout
import HtmlMinifier.Proofs.Event.Framed

namespace HtmlMinifier.Canonical

open Event (IsClear IsOrdinary IsHomely OpensPlainly ClosesOnlyVoid Framed Tells OpenElements
  charTokens
  elementTokens elementEvents feedAll heedsAll ofTokensWithin preserves preservedElements
    preservedTexts)

theorem feedAll_charTokens (stack : OpenElements) (text : Text) :
    feedAll stack (charTokens text) = (text.map fun c => .characters [c], stack) := by
  induction text with
  | nil => rfl
  | cons c text ih =>
      rw [show charTokens (c :: text) = .text [c] :: charTokens text from rfl, Event.feedAll_cons,
        Event.feed, if_neg (List.cons_ne_nil c []), ih]
      rfl

/-- An ordinary tag is read as an ordinary token that tells nothing. -/
theorem Piece.IsOrdinaryTag.spelled {piece : Piece} (ordinary : piece.IsOrdinaryTag) :
    ∃ token, piece.spelled = [token] ∧ IsOrdinary token ∧
      ∀ stack, Tells (Event.feed stack token).1 [] := by
  cases ordinary with
  | startTag named noVerbatim ordinary encoded =>
      exact ⟨_, rfl, ordinary, fun stack => Event.tells_startTag stack _ _ _⟩
  | endTag named ordinary => exact ⟨_, rfl, ordinary, fun stack => Event.tells_endTag stack _⟩

namespace Layout

/-- The tokens of a verbatim element are its tokens by itself in front of what follows it. -/
theorem tokens_verbatim (name : Text) (attributes : List (Text × Option Text)) (body : Text)
    (later : Layout) :
    (verbatim name attributes body later).tokens = (Piece.startTag name attributes).spelled ++
      (charTokens (Reference.encode body) ++ [.endTag name]) ++ later.tokens := by
  simp only [tokens, List.append_assoc, List.singleton_append]

theorem isOrdinary_of_mem_verbatim {name : Text} (ordinary : preserves name = false)
    (attributes : List (Text × Option Text)) (body : Text) :
    ∀ token ∈ (Piece.startTag name attributes).spelled ++ (charTokens body ++ [.endTag name]),
      IsOrdinary token := by
  intro token member
  rcases List.mem_append.1 member with first | later
  · rw [List.mem_singleton.1 first]
    exact ordinary
  · rcases List.mem_append.1 later with inside | last
    · exact Event.isOrdinary_of_mem_charTokens token inside
    · rw [List.mem_singleton.1 last]
      exact ordinary

/-! ## What is told -/

/-- What is read of a layout tells its content, whatever is open. -/
theorem tells_feedAll {layout : Layout} (plain : layout.IsPlain) (stack : OpenElements) :
    Tells (feedAll stack layout.tokens).1 layout.content := by
  have letters (stack : OpenElements) (text : Text) :
      Tells (feedAll stack (charTokens (Reference.encode text))).1 text := by
    rw [feedAll_charTokens]
    exact Event.tells_characters text
  induction plain generalizing stack with
  | nil => exact Event.tells_nil
  | @letter c later _ ih =>
      have first := letters stack [c]
      rw [Reference.encode, List.flatMap_singleton] at first
      rw [tokens, Event.feedAll_append]
      exact first.append (ih _)
  | tag ordinary _ ih =>
      obtain ⟨token, spelled, _, nothing⟩ := ordinary.spelled
      rw [tokens, spelled, List.singleton_append, Event.feedAll_cons]
      exact (nothing stack).append (ih _)
  | @verbatim name attributes body later named isVerbatim ordinary encoded _ ih =>
      rw [tokens, Piece.spelled, List.singleton_append, Event.feedAll_cons, Event.feedAll_append,
        Event.feedAll_cons]
      exact (Event.tells_startTag stack _ _ _).append
        ((letters _ body).append ((Event.tells_endTag _ name).append (ih _)))
  | @element name attributes inner later named keeps encoded text _ _ ihInner ih =>
      rw [tokens, Piece.spelled, List.singleton_append, Event.feedAll_cons, Event.feedAll_append,
        Event.feedAll_cons]
      exact (Event.tells_startTag stack _ _ _).append
        ((ihInner _).append ((Event.tells_endTag _ name).append (ih _)))

/-- An element keeps what is inside it. -/
theorem content_elementEvents {inner : Layout} (plain : inner.IsPlain) (name : Text)
    (attributes : List (Text × Option Text)) :
    Event.content (elementEvents name attributes inner.tokens) = inner.content := by
  have opens : Tells [Event.opening name attributes] [] := Event.tells_tag (.inl ⟨_, _, rfl⟩)
  have inside := (tells_feedAll plain []).append (Event.tells_closeAll (feedAll [] inner.tokens).2)
  have whole := opens.append (inside.append (Event.tells_tag (.inr ⟨name, rfl⟩)))
  rw [← Event.ofTokensWithin_eq_feedAll] at whole
  rw [elementEvents, ← List.singleton_append, whole.content_eq, List.nil_append, List.append_nil,
    List.append_nil]

/-! ## What is found -/

/-- Whether every end tag in the elements is heeded. -/
def IsSealed (layout : Layout) : Prop := ∀ node ∈ layout.nodes, heedsAll [] node.tokens = true

theorem IsSealed.inner {name : Text} {attributes : List (Text × Option Text)}
    {inner later : Layout}
    (isSealed : (element name attributes inner later).IsSealed) : inner.IsSealed :=
  fun node member => isSealed node (List.mem_cons_of_mem _ (List.mem_append_left _ member))

theorem IsSealed.later {name : Text} {attributes : List (Text × Option Text)}
    {inner later : Layout}
    (isSealed : (element name attributes inner later).IsSealed) : later.IsSealed :=
  fun node member => isSealed node (List.mem_cons_of_mem _ (List.mem_append_right _ member))

/-- The tokens of an element are its tokens by itself in front of what follows it. -/
theorem tokens_element (name : Text) (attributes : List (Text × Option Text))
    (inner later : Layout) :
    (element name attributes inner later).tokens =
      elementTokens name (tagRead attributes).attributes
          ((tagRead attributes).selfClosing || Element.isVoid name) inner.tokens ++
          later.tokens := by
  rw [tokens, elementTokens, Piece.spelled]
  simp only [List.cons_append, List.append_assoc, List.nil_append]

theorem IsSealed.first {name : Text} {attributes : List (Text × Option Text)}
    {inner later : Layout}
    (isSealed : (element name attributes inner later).IsSealed) :
    heedsAll [] (elementTokens name (tagRead attributes).attributes
      ((tagRead attributes).selfClosing || Element.isVoid name) inner.tokens) = true := by
  have alone := isSealed _ List.mem_cons_self
  rwa [tokens_element, tokens, List.append_nil] at alone

/-- The tokens of a layout with sealed elements are framed. -/
theorem framed_tokens {layout : Layout} (plain : layout.IsPlain) (isSealed : layout.IsSealed) :
    Framed layout.tokens := by
  induction plain with
  | nil => exact Event.framed_of_ordinary (List.forall_mem_nil _)
  | letter _ ih =>
      exact (Event.framed_of_ordinary Event.isOrdinary_of_mem_charTokens).append (ih isSealed)
  | tag ordinary _ ih =>
      obtain ⟨token, spelled, ordinary, _⟩ := ordinary.spelled
      rw [tokens, spelled]
      refine (Event.framed_of_ordinary fun other member => ?_).append (ih isSealed)
      rw [List.mem_singleton.1 member]
      exact ordinary
  | verbatim named isVerbatim ordinary encoded _ ih =>
      rw [tokens_verbatim]
      exact (Event.framed_of_ordinary (isOrdinary_of_mem_verbatim ordinary _ _)).append
        (ih isSealed)
  | element named keeps encoded text _ _ ihInner ih =>
      rw [tokens_element]
      exact (Event.framed_element keeps (ihInner isSealed.inner) isSealed.first).append
        (ih isSealed.later)

/-- Whether no tag inside an element closes itself: none is written that way, or nothing is foreign
content. -/
def NodesOpenPlainly (stack : OpenElements) (layout : Layout) : Prop :=
  (∀ node ∈ layout.nodes, ClosesOnlyVoid node.tokens) ∨ IsHomely stack layout.tokens

/-- Ordinary tokens in front of a layout lead to where it is read in the same way. -/
theorem NodesOpenPlainly.feedAll {stack : OpenElements} {layout later : Layout}
    {first : List Token}
    (plainly : layout.NodesOpenPlainly stack) (parts : layout.tokens = first ++ later.tokens)
    (among : ∀ node ∈ later.nodes, node ∈ layout.nodes) :
    later.NodesOpenPlainly (feedAll stack first).2 := by
  apply plainly.imp
  · exact fun void node member => void node (among node member)
  · intro homely
    rw [parts] at homely
    exact homely.feedAll

theorem NodesOpenPlainly.first {stack : OpenElements} {name : Text}
    {attributes : List (Text × Option Text)} {inner later : Layout}
    (plainly : (element name attributes inner later).NodesOpenPlainly stack) :
    OpensPlainly stack (elementTokens name (tagRead attributes).attributes
      ((tagRead attributes).selfClosing || Element.isVoid name) inner.tokens) := by
  apply plainly.imp
  · intro void
    have alone := void _ List.mem_cons_self
    rwa [tokens_element, tokens, List.append_nil] at alone
  · intro homely
    rw [tokens_element] at homely
    exact homely.mono (fun _ => id) fun _ => List.mem_append_left _

theorem NodesOpenPlainly.inner {stack : OpenElements} {name : Text}
    {attributes : List (Text × Option Text)} {inner later : Layout}
    (plainly : (element name attributes inner later).NodesOpenPlainly stack) :
    inner.NodesOpenPlainly [] := by
  apply plainly.imp
  · exact fun void node member =>
      void node (List.mem_cons_of_mem _ (List.mem_append_left _ member))
  · intro homely
    rw [tokens_element] at homely
    exact homely.mono (fun _ inside => by cases inside) fun _ member =>
      List.mem_append_left _ (List.mem_cons_of_mem _ (List.mem_append_left _ member))

/-- The elements that are found in a layout are its elements, and they keep what is inside them. -/
theorem preservedTexts_ofTokensWithin {layout : Layout} (plain : layout.IsPlain)
    (isSealed : layout.IsSealed) {stack : OpenElements} (clear : IsClear stack)
    (plainly : layout.NodesOpenPlainly stack) :
    preservedTexts (ofTokensWithin stack layout.tokens) = layout.nodes.map content := by
  -- Ordinary tokens in front of a layout add no element.
  have ordinaryFirst {first : List Token} (ordinary : ∀ token ∈ first, IsOrdinary token)
      (stack : OpenElements) (later : List Token) :
      preservedTexts (ofTokensWithin stack (first ++ later)) =
        preservedTexts (ofTokensWithin (feedAll stack first).2 later) := by
    rw [Event.ofTokensWithin_append, preservedTexts, preservedTexts,
      Event.preservedElements_feedAll_append stack ordinary]
  induction plain generalizing stack with
  | nil =>
      have none := Event.preservedElements_closeAll_append stack []
      rw [List.append_nil] at none
      rw [tokens, ofTokensWithin, preservedTexts, none]
      rfl
  | @letter c later _ ih =>
      have ordinary : ∀ token ∈ charTokens (Reference.encodeChar c), IsOrdinary token :=
        Event.isOrdinary_of_mem_charTokens
      rw [tokens, ordinaryFirst ordinary]
      exact ih isSealed (clear.feedAll ordinary) (plainly.feedAll rfl fun _ => id)
  | tag ordinary _ ih =>
      obtain ⟨token, spelled, ordinary, _⟩ := ordinary.spelled
      have ordinaryAll : ∀ other ∈ [token], IsOrdinary other := by
        intro other member
        rw [List.mem_singleton.1 member]
        exact ordinary
      rw [tokens, spelled, ordinaryFirst ordinaryAll]
      apply ih isSealed (clear.feedAll ordinaryAll) (plainly.feedAll _ fun _ => id)
      rw [tokens, spelled]
  | @verbatim name attributes body later named isVerbatim ordinary encoded _ ih =>
      have ordinaryAll := isOrdinary_of_mem_verbatim ordinary attributes (Reference.encode body)
      have parts := tokens_verbatim name attributes body later
      rw [parts, ordinaryFirst ordinaryAll]
      exact ih isSealed (clear.feedAll ordinaryAll) (plainly.feedAll parts fun _ => id)
  | @element name attributes inner later named keeps encoded text plainInner _ ihInner ih =>
      have elementPlainly := plainly.first
      have first := Event.feedAll_element keeps (framed_tokens plainInner isSealed.inner)
        isSealed.first
        elementPlainly
      have clearLater : IsClear (Event.afterImplied name stack) := fun other member =>
        clear other ((List.dropWhile_suffix _).subset member)
      have plainlyLater := plainly.feedAll (tokens_element name attributes inner later) fun node
          member =>
        List.mem_cons_of_mem _ (List.mem_append_right _ member)
      rw [first] at plainlyLater
      rw [tokens_element, Event.ofTokensWithin_append, first, preservedTexts, List.append_assoc,
        Event.preservedElements_closeAll_append, Event.preservedElements_elementEvents_append
          keeps,
        List.map_cons, List.map_append, content_elementEvents plainInner, ← preservedTexts,
          ← preservedTexts,
        ihInner isSealed.inner Event.isClear_nil plainly.inner,
          ih isSealed.later clearLater plainlyLater,
        nodes, List.map_cons, List.map_append]
      simp only [content, List.append_nil]

/-! ## Reading the text -/

theorem charsOf_document {layout : Layout} (plain : layout.IsPlain) :
    charsOf (Element.doctype ++ layout.text) = .doctype "doctype html".toList ::
    layout.tokens := by
  have whole := charsOf_text_append plain []
  rw [List.append_nil, charsOf_nil, List.append_nil] at whole
  rw [charsOf_doctype, whole]

/-- The texts that are kept in a document are those of its elements. -/
theorem preservedTexts_parse {layout : Layout} (plain : layout.IsPlain)
    (isSealed : layout.IsSealed)
    (plainly : layout.NodesOpenPlainly []) :
    preservedTexts (Event.parse (Element.doctype ++ layout.text)) = layout.nodes.map content := by
  rw [← preservedTexts_ofTokensWithin plain isSealed Event.isClear_nil plainly,
    ← Event.preservedTexts_flatMap_chars, Event.parse, Event.ofTokens, List.flatMap_cons,
    ← Event.ofTokensWithin_flatMap_chars, ← charsOf, charsOf_document plain]
  rfl

/-- Whether the end tags of a document are heeded is a matter of its layout. -/
theorem heedsAll_tokenize {layout : Layout} (plain : layout.IsPlain) :
    heedsAll [] (Token.tokenize (Element.doctype ++ layout.text)) = heedsAll [] layout.tokens := by
  rw [← Event.heedsAll_flatMap_chars, ← charsOf, charsOf_document plain]
  rfl

end Layout

end HtmlMinifier.Canonical

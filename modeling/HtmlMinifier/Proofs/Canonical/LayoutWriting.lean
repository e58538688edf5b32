/-
# What is written around the elements that keep their text

Outside of the elements that keep their text, runs are collapsed and trimmed, but none of this
reaches into such an element. So what is written of a complete stream is a layout, and its elements
are those of the stream: each keeps what its events tell, and is written by itself as it is written
here.
-/
import HtmlMinifier.Proofs.Canonical.KeptWriting

namespace HtmlMinifier.Canonical

open Event (Balanced IsClear IsContainer preserves preservedElements)
open Token (IsTagName IsAttributeName)

/-- A writer that has written a layout of earlier events, outside of all elements that keep their
text. The elements that have been found stand for themselves whatever follows. -/
structure Shown (options : Options) (earlier : List Event) (found : List (List Event))
    (writer : Writer)
    (layout : Layout) : Prop where
  plain : layout.IsPlain
  written : writer.written = Element.doctype ++ layout.text
  clear : IsClear writer.stack
  markup : ∀ name ∈ writer.stack, Element.isRawText name = false
  elements : ∀ later, preservedElements (earlier ++ later) = found ++ preservedElements later
  nodes : List.Forall₂ (NodeOf options) found layout.nodes
  origin : layout.ComesFrom options earlier

theorem shown_start (options : Options) : Shown options [] [] Writer.start .nil where
  plain := .nil
  written := rfl
  clear := Event.isClear_nil
  markup := List.forall_mem_nil _
  elements _ := rfl
  nodes := .nil
  origin := .nil options []

namespace Shown

variable {options : Options} {earlier : List Event} {found : List (List Event)} {writer : Writer}
  {layout : Layout}

/-- Events that open nothing that keeps its text and write nothing leave a writer as it is
shown. -/
theorem pass (shown : Shown options earlier found writer layout) (event : Event)
    (skipped : ∀ later, preservedElements (event :: later) = preservedElements later)
    {next : Writer} (written : next.written = writer.written) (stack : next.stack = writer.stack) :
    Shown options (earlier ++ [event]) found next layout where
  plain := shown.plain
  written := written.trans shown.written
  clear := stack ▸ shown.clear
  markup := stack ▸ shown.markup
  elements later := by rw [List.append_assoc, shown.elements, List.singleton_append, skipped]
  nodes := shown.nodes
  origin := shown.origin.mono fun _ => List.mem_append_left [event]

/-- Waiting text is written as letters. -/
theorem flush (shown : Shown options earlier found writer layout) :
    ∃ letters, Shown options earlier found writer.flush (layout.followedBy letters) := by
  obtain ⟨letters, encoded⟩ := Writer.isEncoded_normalize shown.markup writer.pending
  refine ⟨letters, shown.plain.followedBy letters, ?_, ?_, ?_, shown.elements, ?_,
    shown.origin.of_startTags (Layout.startTags_followedBy _ _)⟩
  · rw [Writer.written_flush, shown.written, Layout.text_followedBy, List.append_assoc, ← encoded]
  · rw [Writer.flush_stack]
    exact shown.clear
  · rw [Writer.flush_stack]
    exact shown.markup
  · rw [Layout.nodes_followedBy]
    exact shown.nodes

/-- Trimming keeps the elements. -/
theorem trimmed (shown : Shown options earlier found writer layout) :
    ∃ layout' : Layout, layout'.IsPlain ∧ Text.trimEnd writer.written = Element.doctype ++
    layout'.text ∧
      layout'.nodes = layout.nodes ∧ layout'.startTags = layout.startTags := by
  obtain ⟨layout', plain, text, nodes, startTags⟩ := Layout.exists_trimEnd shown.plain
  refine ⟨layout', plain, ?_, nodes, startTags⟩
  rw [shown.written, Layout.trimEnd_solid_append (by decide), text]

/-- In front of a tag the waiting text is written and perhaps trimmed. -/
theorem settle (shown : Shown options earlier found writer layout) (name : Text) :
    ∃ layout', Shown options earlier found (writer.flush.trimBefore name) layout' := by
  obtain ⟨letters, flushed⟩ := shown.flush
  by_cases cuts : writer.flush.cutsBefore name = true
  · obtain ⟨layout', plain, text, nodes, startTags⟩ := flushed.trimmed
    refine ⟨layout', plain, ?_, ?_, ?_, flushed.elements, nodes ▸ flushed.nodes,
      flushed.origin.of_startTags startTags⟩
    · rw [Writer.written_trimBefore, if_pos cuts, text]
    · rw [Writer.trimBefore_stack]
      exact flushed.clear
    · rw [Writer.trimBefore_stack]
      exact flushed.markup
  · refine ⟨_, flushed.plain, ?_, ?_, ?_, flushed.elements, flushed.nodes, flushed.origin⟩
    · rw [Writer.written_trimBefore, if_neg cuts, flushed.written]
    · rw [Writer.trimBefore_stack]
      exact flushed.clear
    · rw [Writer.trimBefore_stack]
      exact flushed.markup

/-- A layout is written behind a settled one. -/
theorem write {name : Text}
    (settled : Shown options earlier found (writer.flush.trimBefore name) layout)
    {events : List Event} {elements : List (List Event)} {next : Writer} {behind : Layout}
    (plain : behind.IsPlain)
    (written : next.written = (writer.flush.trimBefore name).written ++ behind.text)
    (clear : IsClear next.stack) (markup : ∀ name ∈ next.stack, Element.isRawText name = false)
    (skipped : ∀ later, preservedElements (events ++ later) = elements ++ preservedElements later)
    (nodes : List.Forall₂ (NodeOf options) elements behind.nodes)
    (origin : behind.ComesFrom options events) :
    Shown options (earlier ++ events) (found ++ elements) next (layout.append behind) where
  plain := settled.plain.append plain
  written := by rw [written, settled.written, Layout.text_append, List.append_assoc]
  clear := clear
  markup := markup
  elements later := by rw [List.append_assoc, settled.elements, skipped, List.append_assoc]
  nodes := by
    rw [Layout.nodes_append]
    exact List.rel_append settled.nodes nodes
  origin := (settled.origin.mono fun _ => List.mem_append_left events).append
    (origin.mono fun _ => List.mem_append_right earlier)

/-- An ordinary tag is written behind a settled layout. -/
theorem write_tag {name : Text}
    (settled : Shown options earlier found (writer.flush.trimBefore name) layout)
    {piece : Piece} (ordinary : piece.IsOrdinaryTag) {events : List Event} {next : Writer}
    (written : next.written = (writer.flush.trimBefore name).written ++ piece.render)
    (clear : IsClear next.stack) (markup : ∀ name ∈ next.stack, Element.isRawText name = false)
    (skipped : ∀ later, preservedElements (events ++ later) = preservedElements later)
    (origin : (Layout.tag piece .nil).ComesFrom options events) :
    Shown options (earlier ++ events) found next (layout.append (.tag piece .nil)) := by
  have text : (Layout.tag piece .nil).text = piece.render := by
    rw [Layout.text, Layout.text, List.append_nil]
  have whole := settled.write (.tag ordinary .nil) (written.trans (by rw [text])) clear markup
    skipped .nil
    origin
  rwa [List.append_nil] at whole

/-! ## One tag -/

/-- An element is opened that does not keep its text. -/
theorem openElement (shown : Shown options earlier found writer layout) {name : Text}
    {given : List (Text × Text)} (markup : IsMarkupName name)
    (noVerbatim : Element.isVerbatim name = false)
    (ordinary : preserves name = false) (attributeNames : ∀ attr ∈ given, IsAttributeName attr.1) :
    ∃ layout', Shown options (earlier ++ [.elementOpen name given]) found
      (writer.step options (.elementOpen name given)) layout' := by
  obtain ⟨layout', settled⟩ := shown.settle name
  rw [Writer.step, markup.named.lower]
  refine ⟨_, settled.write_tag (.startTag markup.named noVerbatim ordinary
    (isEncodedAttribute_canonicalAttributes attributeNames))
    (Writer.written_openElement options name given writer) ?_ ?_ ?_
    (.startTag options List.mem_cons_self)⟩
  · rw [Writer.openElement_stack]
    exact List.forall_mem_cons.2 ⟨ordinary, shown.clear⟩
  · rw [Writer.openElement_stack]
    exact List.forall_mem_cons.2 ⟨markup.noRawText, shown.markup⟩
  · intro later
    rw [List.singleton_append, preservedElements, ordinary, if_neg Bool.false_ne_true]

/-- The innermost element is closed. -/
theorem closeElement (shown : Shown options earlier found writer layout)
    (none : options.compressor = none) {name : Text} {stack : List Text}
    (current : writer.stack = name :: stack) (named : IsTagName name)
    (noVoid : Element.isVoid name = false) :
    ∃ layout', Shown options (earlier ++ [.elementClose name]) found
      (writer.step options (.elementClose name)) layout' := by
  obtain ⟨layout', settled⟩ := shown.settle name
  have ordinary : preserves name = false :=
    shown.clear name (by rw [current]; exact List.mem_cons_self)
  rw [Writer.step, named.lower]
  refine ⟨_, settled.write_tag (.endTag named ordinary) ?_ ?_ ?_ (fun later => rfl) fun _ _
      member =>
    absurd member List.not_mem_nil⟩
  · rw [Writer.written_closeElement, Writer.compressStyle_eq_self none, noVoid,
      if_neg Bool.false_ne_true]
  · rw [Writer.closeElement_stack]
    exact fun other member => shown.clear other (List.mem_of_mem_tail member)
  · rw [Writer.closeElement_stack]
    exact fun other member => shown.markup other (List.mem_of_mem_tail member)

end Shown

/-! ## Complete streams -/

/-- Whether something is shown again once events have been written outside of the elements that
keep their text. -/
def Lays (options : Options) (events : List Event) : Prop :=
  ∀ ⦃earlier : List Event⦄ ⦃found : List (List Event)⦄ ⦃writer : Writer⦄ ⦃layout : Layout⦄,
    Shown options earlier found writer layout →
      ∃ found' layout', Shown options (earlier ++ events) found' (writer.steps options events)
        layout' ∧
        (writer.steps options events).stack = writer.stack

theorem Lays.append {options : Options} {first second : List Event} (lays : Lays options first)
    (further : Lays options second) : Lays options (first ++ second) := by
  intro earlier found writer layout shown
  obtain ⟨found', layout', entered, stack⟩ := lays shown
  obtain ⟨found'', last, whole, stack'⟩ := further entered
  rw [← List.append_assoc, Writer.steps_append]
  exact ⟨found'', last, whole, stack'.trans stack⟩

namespace Lays

variable {options : Options}

theorem characters (options : Options) (text : Text) : Lays options [.characters text] :=
  fun _ _ _ _ shown => ⟨_, _, shown.pass (.characters text) (fun _ => rfl) rfl rfl, rfl⟩

theorem cdata (options : Options) (text : Text) : Lays options [.cdata text] :=
  fun _ _ _ _ shown => ⟨_, _, shown.pass (.cdata text) (fun _ => rfl) rfl rfl, rfl⟩

theorem comment (options : Options) {body : Text} (dropped : isConditional body = false) :
    Lays options [.comment body] := by
  intro earlier found writer layout shown
  have same : writer.steps options [.comment body] = writer.flush :=
    writer.comment_of_dropped dropped
  obtain ⟨letters, flushed⟩ := shown.flush
  rw [same]
  exact ⟨_, _, flushed.pass (.comment body) (fun _ => rfl) rfl rfl, writer.flush_stack⟩

section
variable (none : options.compressor = none) {name : Text} {given : List (Text × Text)}
  (attributeNames : ∀ attr ∈ given, IsAttributeName attr.1)
include none attributeNames

/-- A void element is opened and closed. -/
theorem void (named : IsTagName name) (isVoid : Element.isVoid name = true) :
    Lays options [.elementOpen name given, .elementClose name] := by
  intro earlier found writer layout shown
  obtain ⟨layout', settled⟩ := shown.settle name
  have ordinaryTag : (Piece.startTag name
      (canonicalAttributes options.collapseEmptyAttributes name given)).IsOrdinaryTag :=
    Keeps.isOrdinaryTag_of_isVoid named isVoid (isEncodedAttribute_canonicalAttributes
      attributeNames)
  have stack : (writer.steps options [.elementOpen name given, .elementClose name]).stack =
      writer.stack := by
    simp only [Writer.steps_cons, Writer.steps_nil, Writer.step, named.lower]
    rw [Writer.closeElement_stack, Writer.openElement_stack, List.tail_cons]
  refine ⟨_, _, settled.write_tag ordinaryTag ?_ (stack ▸ shown.clear) (stack ▸ shown.markup) ?_
    (.startTag options List.mem_cons_self), stack⟩
  · simp only [Writer.steps_cons, Writer.steps_nil, Writer.step, named.lower]
    rw [written_closeElement_void none isVoid, Writer.written_openElement]
  · intro later
    rw [List.cons_append, preservedElements, Event.preserves_of_isVoid isVoid,
      if_neg Bool.false_ne_true]
    rfl

/-- An element that keeps its text is written from its start tag to its end tag. -/
theorem element (markup : IsMarkupName name) (noVoid : Element.isVoid name = false)
    (keepsName : preserves name = true) {events : List Event} (nested : Nested events)
    {inner : Layout}
    {behind : Text} (kept : Keeps options events [] inner behind)
    (textual : Element.isVerbatim name = true → inner.IsText) :
    Lays options (.elementOpen name given :: (events ++ [.elementClose name])) := by
  intro earlier found writer layout shown
  obtain ⟨layout', settled⟩ := shown.settle name
  have inside := Writer.keepsText_openElement shown.markup options keepsName markup.noRawText given
  have whole := kept.element none markup noVoid [] nested attributeNames textual
  rw [Reference.decode_nil, Layout.ofText_nil] at whole
  obtain ⟨written, _, stack⟩ := Keeps.steps_element kept none markup noVoid inside
  refine ⟨_, _, settled.write whole.plain ?_ (stack ▸ shown.clear) (stack ▸ shown.markup)
    (Event.preservedElements_append (nested.balanced_element markup.named given).walk_eq)
      whole.found
    whole.origin, stack⟩
  rw [written, Layout.text_wrap fun isVerbatim => (textual isVerbatim).followedBy _]

/-- A verbatim element that does not keep its text is written with the letters of its body. -/
theorem verbatim (markup : IsMarkupName name) (isVerbatim : Element.isVerbatim name = true)
    (ordinary : preserves name = false) (body : Text) :
    Lays options (.elementOpen name given ::
      ((if body = [] then [] else [.characters body]) ++ [.elementClose name])) := by
  intro earlier found writer layout shown
  let events : List Event := .elementOpen name given ::
    ((if body = [] then [] else [.characters body]) ++ [.elementClose name])
  obtain ⟨layout', settled⟩ := shown.settle name
  have same : writer.steps options events =
      ((writer.openElement options name given).characters body).closeElement options name := by
    rw [Writer.steps_cons, Writer.steps_append, steps_characters, Writer.steps_cons,
      Writer.steps_nil]
    simp only [Writer.step, markup.named.lower]
  have stack : (writer.steps options events).stack = writer.stack := by
    rw [same, Writer.closeElement_stack, Writer.characters_stack, Writer.openElement_stack,
      List.tail_cons]
  have pending : ((writer.openElement options name given).characters body).pending = body := by
    rw [Writer.characters, Writer.openElement_pending, List.nil_append]
  have around : ∀ other ∈ ((writer.openElement options name given).characters body).stack,
      Element.isRawText other = false := by
    rw [Writer.characters_stack, Writer.openElement_stack]
    exact List.forall_mem_cons.2 ⟨markup.noRawText, shown.markup⟩
  obtain ⟨letters, encoded⟩ := Writer.isEncoded_normalize around body
  have textual : Element.isVerbatim name = true → (Layout.ofText letters .nil).IsText :=
    fun _ => ⟨letters, rfl⟩
  have plain : (Layout.wrap name (canonicalAttributes options.collapseEmptyAttributes name given)
      (.ofText letters .nil)).IsPlain :=
    (Layout.IsPlain.nil.ofText letters).wrap textual markup.named
      (isEncodedAttribute_canonicalAttributes attributeNames)
  have written : (writer.steps options events).written = (writer.flush.trimBefore name).written ++
      (Layout.wrap name (canonicalAttributes options.collapseEmptyAttributes name given)
        (.ofText letters .nil)).text := by
    have stays : ((writer.openElement options name given).characters body).flush.cutsBefore name =
        false := by
      rw [Writer.cutsBefore, isBlock_of_isVerbatim isVerbatim, Bool.false_and]
    rw [same, Writer.written_closeElement, Writer.compressStyle_eq_self none,
      Writer.written_trimBefore,
      stays, Writer.written_flush, pending, encoded, Writer.written_characters,
        Writer.written_openElement,
      Token.isVoid_of_isVerbatim isVerbatim, if_neg Bool.false_ne_true, if_neg Bool.false_ne_true,
      Layout.text_wrap textual, Layout.text_ofText, Layout.text, List.append_nil,
        List.append_assoc,
      List.append_assoc]
  have skipped : ∀ later, preservedElements (events ++ later) = [] ++ preservedElements later := by
    intro later
    rw [List.cons_append, preservedElements, ordinary, if_neg Bool.false_ne_true]
    split <;> rfl
  have nodes : List.Forall₂ (NodeOf options) [] (Layout.wrap name
      (canonicalAttributes options.collapseEmptyAttributes name given)
          (.ofText letters .nil)).nodes := by
    rw [Layout.nodes_wrap textual, ordinary, if_neg Bool.false_ne_true, Layout.nodes_ofText]
    exact .nil
  have origin : (Layout.wrap name (canonicalAttributes options.collapseEmptyAttributes name given)
      (.ofText letters .nil)).ComesFrom options events :=
    Layout.ComesFrom.wrap textual
      ((Layout.ComesFrom.nil options events).of_startTags (Layout.startTags_ofText letters .nil))
      List.mem_cons_self
  have whole := settled.write plain written (stack ▸ shown.clear) (stack ▸ shown.markup) skipped
    nodes origin
  rw [List.append_nil] at whole
  exact ⟨_, _, whole, stack⟩

/-- Any other element is opened, written inside and closed. -/
theorem container (markup : IsMarkupName name) (container : IsContainer name)
    (ordinary : preserves name = false) {events : List Event} (inside : Lays options events) :
    Lays options (.elementOpen name given :: (events ++ [.elementClose name])) := by
  intro earlier found writer layout shown
  obtain ⟨_, entered⟩ := shown.openElement markup container.noVerbatim ordinary attributeNames
  obtain ⟨found', layout', whole, stack⟩ := inside entered
  have current : ((writer.step options (.elementOpen name given)).steps options events).stack =
      name :: writer.stack := by
    rw [stack, Writer.step, markup.named.lower, Writer.openElement_stack]
  obtain ⟨last, closed⟩ := whole.closeElement none current markup.named container.noVoid
  rw [List.append_assoc, List.append_assoc] at closed
  refine ⟨found', last, ?_, ?_⟩
  · rw [Writer.steps_cons, Writer.steps_append, Writer.steps_cons, Writer.steps_nil]
    exact closed
  · have last : ∀ ready : Writer, (ready.step options (.elementClose name)).stack =
        ready.stack.tail :=
      fun ready => Writer.closeElement_stack options (Text.lower name) ready
    rw [Writer.steps_cons, Writer.steps_append, Writer.steps_cons, Writer.steps_nil, last, current,
      List.tail_cons]

end

end Lays

/-- Outside of the elements that keep their text a layout is written of every complete stream. -/
theorem lays_of_nested {options : Options} (none : options.compressor = none) {events : List Event}
    (nested : Nested events) : Lays options events := by
  induction nested with
  | nil =>
      intro earlier found writer layout shown
      rw [List.append_nil]
      exact ⟨found, layout, shown, rfl⟩
  | characters text _ ih => exact (Lays.characters options text).append ih
  | cdata text _ ih => exact (Lays.cdata options text).append ih
  | comment dropped _ ih => exact (Lays.comment options dropped).append ih
  | void named isVoid attributeNames _ ih =>
      exact (Lays.void none attributeNames named isVoid).append ih
  | @verbatim name given body later markup isVerbatim attributeNames _ ih =>
      have element : Lays options (.elementOpen name given ::
          ((if body = [] then [] else [.characters body]) ++ [.elementClose name])) := by
        cases keeps : preserves name with
        | true =>
            exact Lays.element none attributeNames markup
              (Token.isVoid_of_isVerbatim isVerbatim) keeps
              (nested_body body) (Keeps.body options body) fun _ => ⟨[], rfl⟩
        | false => exact Lays.verbatim none attributeNames markup isVerbatim keeps body
      have whole := element.append ih
      rwa [List.cons_append, List.append_assoc] at whole
  | @container name given inner later markup container attributeNames nestedInner _ ihInner ih =>
      have element : Lays options (.elementOpen name given ::
          (inner ++ [.elementClose name])) := by
        cases keeps : preserves name with
        | true =>
            obtain ⟨layout, behind, kept⟩ := exists_keeps none nestedInner []
            exact Lays.element none attributeNames markup container.noVoid keeps nestedInner kept
              fun isVerbatim => by rw [container.noVerbatim] at isVerbatim; cases isVerbatim
        | false => exact Lays.container none attributeNames markup container keeps ihInner
      have whole := element.append ih
      rwa [List.cons_append, List.append_assoc] at whole

/-- What is written of a complete stream is a layout with the elements of the stream. -/
theorem exists_layout {options : Options} (none : options.compressor = none) {events : List Event}
    (nested : Nested events) :
    ∃ layout : Layout, layout.IsPlain ∧
      serialize options (.documentStart :: events) = .ok (Element.doctype ++ layout.text) ∧
      List.Forall₂ (NodeOf options) (preservedElements events) layout.nodes ∧
      layout.ComesFrom options events := by
  obtain ⟨found, layout, shown, _⟩ := lays_of_nested none nested (shown_start options)
  obtain ⟨letters, flushed⟩ := shown.flush
  obtain ⟨trimmed, plain, text, nodes, startTags⟩ := flushed.trimmed
  have elements := flushed.elements []
  rw [List.nil_append, List.append_nil, show preservedElements [] = [] from rfl, List.append_nil]
    at elements
  refine ⟨trimmed, plain, ?_, ?_, flushed.origin.of_startTags startTags⟩
  · have begins : Element.doctype <+: (Writer.start.steps options events).flush.written := by
      rw [flushed.written]
      exact List.prefix_append _ _
    rw [serialize_of_balanced options nested.balanced, trim_of_doctype begins, text]
  · rw [elements, nodes]
    exact flushed.nodes

end HtmlMinifier.Canonical

/-
# What is written inside the elements that keep their text

Inside an element that keeps its text a writer writes every run as its letters, whatever stands
around the element, so what it writes of a complete stream is a layout that depends on the stream
and on the text that waits. The elements of this layout are those of the stream: each keeps what
its events tell, and is written by itself as it is written here.
-/
import Mathlib.Data.List.Forall2
import HtmlMinifier.Proofs.Canonical.FirstWriting
import HtmlMinifier.Proofs.Canonical.LayoutReading
import HtmlMinifier.Proofs.Canonical.Nested

namespace HtmlMinifier.Canonical

open Event (Balanced IsClear contentFrom preserves preservedElements walk)
open Reference (encode decode)
open Token (IsTagName IsAttributeName)

/-! ## Where text is kept -/

/-- Among the elements with markup, those keep their text under which white space is content. -/
theorem isPreformatted_eq_preserves {name : Text} (noRawText : Element.isRawText name = false) :
    Element.isPreformatted name = preserves name := by
  rw [Bool.eq_iff_iff]
  simp only [Element.isPreformatted, Element.preformattedNames, preserves, Event.preservingNames,
    List.contains_iff_mem, List.map_cons, List.map_nil, List.mem_cons, List.not_mem_nil, or_false]
  constructor
  · rintro (rfl | rfl | rfl | rfl)
    · exact .inl rfl
    · exact absurd noRawText (by decide)
    · exact absurd noRawText (by decide)
    · exact .inr rfl
  · rintro (rfl | rfl)
    · exact .inl rfl
    · exact .inr (.inr (.inr rfl))

/-- Where no element around has raw text, a run is written as letters. -/
theorem Writer.isEncoded_normalize {writer : Writer}
    (markup : ∀ name ∈ writer.stack, Element.isRawText name = false) (text : Text) :
    Reference.IsEncoded (writer.place.normalize text) :=
  (Place.fits_normalize writer.place text).isEncoded (Place.inRawText_of_markup markup)

/-- A writer inside an element that keeps its text. -/
structure Writer.KeepsText (writer : Writer) : Prop where
  inside : ∃ name ∈ writer.stack, preserves name = true
  markup : ∀ name ∈ writer.stack, Element.isRawText name = false

/-- A writer enters an element that keeps its text. -/
theorem Writer.keepsText_openElement {writer : Writer}
    (markup : ∀ outer ∈ writer.stack, Element.isRawText outer = false) (options : Options)
    {name : Text}
    (keeps : preserves name = true) (noRawText : Element.isRawText name = false)
    (given : List (Text × Text)) : (writer.openElement options name given).KeepsText := by
  constructor
  · exact ⟨name, by rw [Writer.openElement_stack]; exact List.mem_cons_self, keeps⟩
  · rw [Writer.openElement_stack]
    exact List.forall_mem_cons.2 ⟨noRawText, markup⟩

namespace Writer.KeepsText

variable {writer : Writer}

/-- Whether text is kept is a matter of the open elements. -/
theorem of_stack (keeps : writer.KeepsText) {other : Writer} (same : other.stack = writer.stack) :
    other.KeepsText :=
  ⟨same ▸ keeps.inside, same ▸ keeps.markup⟩

theorem openElement (keeps : writer.KeepsText) (options : Options) {name : Text}
    (noRawText : Element.isRawText name = false) (given : List (Text × Text)) :
    (writer.openElement options name given).KeepsText := by
  obtain ⟨outer, member, isKept⟩ := keeps.inside
  constructor
  · exact ⟨outer, by rw [openElement_stack]; exact List.mem_cons_of_mem name member, isKept⟩
  · rw [openElement_stack]
    exact List.forall_mem_cons.2 ⟨noRawText, keeps.markup⟩

theorem inPreformatted (keeps : writer.KeepsText) : writer.place.inPreformatted = true := by
  obtain ⟨outer, member, isKept⟩ := keeps.inside
  rw [Place.inPreformatted, List.any_eq_true]
  exact ⟨outer, member, by rw [isPreformatted_eq_preserves (keeps.markup outer member), isKept]⟩

/-- Waiting text is written as the letters that it stands for. -/
theorem written_flush (keeps : writer.KeepsText) :
    writer.flush.written = writer.written ++ encode (decode writer.pending) := by
  rw [Writer.written_flush,
    Place.normalize_of_inPreformatted (Place.inRawText_of_markup keeps.markup)
    keeps.inPreformatted, Reference.normalize]

/-- Nothing is cut off in front of a tag. -/
theorem written_settle (keeps : writer.KeepsText) (name : Text) :
    (writer.flush.trimBefore name).written = writer.written ++ encode (decode writer.pending) := by
  have whole : writer.flush.KeepsText := keeps.of_stack writer.flush_stack
  have stays : writer.flush.cutsBefore name = false := by
    rw [cutsBefore, whole.inPreformatted, Bool.not_true, Bool.and_false]
  rw [written_trimBefore, stays, if_neg Bool.false_ne_true, keeps.written_flush]

end Writer.KeepsText

/-! ## Elements of a layout -/

/-- Whether every start tag of a layout is written for an open among the events. -/
def Layout.ComesFrom (options : Options) (events : List Event) (layout : Layout) : Prop :=
  ∀ name attributes, (name, attributes) ∈ layout.startTags → ∃ given,
    .elementOpen name given ∈ events ∧
      attributes = canonicalAttributes options.collapseEmptyAttributes name given

namespace Layout.ComesFrom

variable {options : Options} {events : List Event} {layout : Layout}

theorem nil (options : Options) (events : List Event) : Layout.nil.ComesFrom options events :=
  fun _ _ member => absurd member List.not_mem_nil

theorem mono (origin : layout.ComesFrom options events) {more : List Event}
    (among : ∀ event ∈ events, event ∈ more) : layout.ComesFrom options more := by
  intro name attributes member
  obtain ⟨given, inside, same⟩ := origin name attributes member
  exact ⟨given, among _ inside, same⟩

theorem of_startTags {other : Layout} (origin : layout.ComesFrom options events)
    (same : other.startTags = layout.startTags) : other.ComesFrom options events :=
  fun name attributes member => origin name attributes (same ▸ member)

theorem append {second : Layout} (origin : layout.ComesFrom options events)
    (behind : second.ComesFrom options events) :
    (layout.append second).ComesFrom options events := by
  intro name attributes member
  rw [Layout.startTags_append] at member
  exact (List.mem_append.1 member).elim (origin name attributes) (behind name attributes)

theorem startTag (options : Options) {name : Text} {given : List (Text × Text)}
    (member : .elementOpen name given ∈ events) :
    (Layout.tag (.startTag name (canonicalAttributes options.collapseEmptyAttributes name given))
      .nil).ComesFrom options events := by
  intro other attributes inside
  cases List.mem_singleton.1 inside
  exact ⟨given, member, rfl⟩

theorem wrap {name : Text} {given : List (Text × Text)}
    (textual : Element.isVerbatim name = true → layout.IsText)
    (origin : layout.ComesFrom options events) (member : .elementOpen name given ∈ events) :
    (Layout.wrap name (canonicalAttributes options.collapseEmptyAttributes name given)
    layout).ComesFrom
      options events := by
  intro other attributes inside
  rw [Layout.startTags_wrap textual] at inside
  rcases List.mem_cons.1 inside with same | further
  · cases same
    exact ⟨given, member, rfl⟩
  · exact origin other attributes further

end Layout.ComesFrom

/-- An element of a layout that belongs to the events of an element: it keeps what they tell, and
is what is written of them by themselves. -/
structure NodeOf (options : Options) (events : List Event) (node : Layout) : Prop where
  plain : node.IsPlain
  content : Event.content events = node.content
  alone : serialize options (.documentStart :: events) = .ok (Element.doctype ++ node.text)
  origin : node.ComesFrom options events

/-! ## Inside an element that keeps its text -/

/-- Inside an element that keeps its text, a layout is written of events behind the text that
waits, and some of their text waits afterwards. -/
structure Keeps (options : Options) (events : List Event) (waiting : Text) (layout : Layout)
    (behind : Text) : Prop where
  plain : layout.IsPlain
  steps : ∀ writer : Writer, writer.KeepsText → writer.pending = waiting →
    (writer.steps options events).written = writer.written ++ layout.text ∧
      (writer.steps options events).pending = behind ∧
        (writer.steps options events).stack = writer.stack
  tells : ∀ later, contentFrom waiting (events ++ later) = layout.content ++
    contentFrom behind later
  found : List.Forall₂ (NodeOf options) (preservedElements events) layout.nodes
  origin : layout.ComesFrom options events

namespace Keeps

variable {options : Options} {waiting : Text}

theorem nil (options : Options) (waiting : Text) : Keeps options [] waiting .nil waiting where
  plain := .nil
  steps _ _ same := ⟨(List.append_nil _).symm, same, rfl⟩
  tells _ := rfl
  found := .nil
  origin := .nil options []

theorem characters (options : Options) (waiting text : Text) :
    Keeps options [.characters text] waiting .nil (waiting ++ text) where
  plain := .nil
  steps _ _ same := ⟨(List.append_nil _).symm, congrArg (· ++ text) same, rfl⟩
  tells _ := rfl
  found := .nil
  origin := .nil options _

theorem cdata (options : Options) (waiting text : Text) :
    Keeps options [.cdata text] waiting .nil (waiting ++ text) where
  plain := .nil
  steps _ _ same := ⟨(List.append_nil _).symm, congrArg (· ++ text) same, rfl⟩
  tells _ := rfl
  found := .nil
  origin := .nil options _

theorem body (options : Options) (body : Text) :
    Keeps options (if body = [] then [] else [.characters body]) [] .nil body := by
  split
  · next none =>
      rw [none]
      exact .nil options []
  · exact .characters options [] body

/-- In front of a comment the waiting text is written. -/
theorem comment (options : Options) (waiting : Text) {body : Text}
    (dropped : isConditional body = false) :
    Keeps options [.comment body] waiting (.ofText (decode waiting) .nil) [] where
  plain := Layout.IsPlain.nil.ofText _
  steps writer keeps same := by
    have flushed : writer.steps options [.comment body] = writer.flush :=
      writer.comment_of_dropped dropped
    rw [flushed, keeps.written_flush, same, Layout.text_ofText, Layout.text, List.append_nil]
    exact ⟨rfl, writer.flush_pending, writer.flush_stack⟩
  tells later := by
    rw [Layout.content_ofText, Layout.content, List.append_nil]
    rfl
  found := by
    rw [Layout.nodes_ofText]
    exact .nil
  origin := (Layout.ComesFrom.nil options _).of_startTags (Layout.startTags_ofText _ _)

theorem append {first second : List Event} {layout later : Layout} {middle behind : Text}
    (keeps : Keeps options first waiting layout middle) (complete : walk [] first = some [])
    (further : Keeps options second middle later behind) :
    Keeps options (first ++ second) waiting (layout.append later) behind where
  plain := keeps.plain.append further.plain
  steps writer inside same := by
    obtain ⟨written, pending, stack⟩ := keeps.steps writer inside same
    obtain ⟨written', pending', stack'⟩ := further.steps _ (inside.of_stack stack) pending
    rw [Writer.steps_append]
    exact ⟨by rw [written', written, Layout.text_append, List.append_assoc], pending',
      stack'.trans stack⟩
  tells events := by
    rw [List.append_assoc, keeps.tells, further.tells, Layout.content_append, List.append_assoc]
  found := by
    rw [Event.preservedElements_append complete, Layout.nodes_append]
    exact List.rel_append keeps.found further.found
  origin := (keeps.origin.mono fun _ => List.mem_append_left second).append
    (further.origin.mono fun _ => List.mem_append_right first)

/-! ## Elements -/

/-- The tag of a void element is an ordinary tag. -/
theorem isOrdinaryTag_of_isVoid {name : Text} (named : IsTagName name)
    (isVoid : Element.isVoid name = true)
    {attributes : List (Text × Option Text)}
    (encoded : ∀ attr ∈ attributes, Token.IsEncodedAttribute attr) :
    (Piece.startTag name attributes).IsOrdinaryTag := by
  apply Piece.IsOrdinaryTag.startTag named _ (Event.preserves_of_isVoid isVoid) encoded
  cases isVerbatim : Element.isVerbatim name with
  | false => rfl
  | true => exact absurd (Token.isVoid_of_isVerbatim isVerbatim) (by simp [isVoid])

section
variable (none : options.compressor = none) {name : Text} {given : List (Text × Text)}
include none

/-- A void element is a tag behind the waiting text. -/
theorem void (waiting : Text) (named : IsTagName name) (isVoid : Element.isVoid name = true)
    (attributeNames : ∀ attr ∈ given, IsAttributeName attr.1) :
    Keeps options [.elementOpen name given, .elementClose name] waiting
      (.ofText (decode waiting)
        (.tag (.startTag name (canonicalAttributes options.collapseEmptyAttributes name given))
        .nil))
      [] where
  plain := (Layout.IsPlain.tag (isOrdinaryTag_of_isVoid named isVoid
    (isEncodedAttribute_canonicalAttributes attributeNames)) .nil).ofText _
  steps writer keeps same := by
    simp only [Writer.steps_cons, Writer.steps_nil, Writer.step, named.lower]
    refine ⟨?_, Writer.closeElement_pending _ _ _, ?_⟩
    · rw [written_closeElement_void none isVoid, Writer.written_openElement, keeps.written_settle,
        same,
        Layout.text_ofText, Layout.text, Layout.text, List.append_nil, List.append_assoc]
    · rw [Writer.closeElement_stack, Writer.openElement_stack, List.tail_cons]
  tells later := by
    rw [Layout.content_ofText, Layout.content, Layout.content, List.append_nil]
    rw [List.cons_append, Event.contentFrom_elementOpen, List.singleton_append,
      Event.contentFrom_elementClose, Reference.decode_nil, List.nil_append]
  found := by
    rw [preservedElements, Event.preserves_of_isVoid isVoid, if_neg Bool.false_ne_true,
      Layout.nodes_ofText]
    exact .nil
  origin := (Layout.ComesFrom.startTag options List.mem_cons_self).of_startTags
    (Layout.startTags_ofText _ _)

end

section
variable {name : Text} {given : List (Text × Text)} {events : List Event} {layout : Layout}
  {behind : Text}
  (kept : Keeps options events [] layout behind)
include kept

theorem comesFrom_followedBy :
    (layout.followedBy (decode behind)).ComesFrom options
      (.elementOpen name given :: (events ++ [.elementClose name])) := by
  refine (kept.origin.of_startTags (Layout.startTags_followedBy _ _)).mono fun event member => ?_
  exact List.mem_cons_of_mem _ (List.mem_append_left _ member)

/-- What the events of an element tell. -/
theorem contentFrom_element (waiting : Text) (later : List Event) :
    contentFrom waiting (.elementOpen name given :: (events ++ [.elementClose name]) ++ later) =
      decode waiting ++ ((layout.followedBy (decode behind)).content ++
        contentFrom [] later) := by
  have inside := kept.tells (.elementClose name :: later)
  rw [List.cons_append, List.append_assoc, List.singleton_append, Event.contentFrom_elementOpen,
    inside,
    Event.contentFrom_elementClose, Layout.content_followedBy, List.append_assoc]

variable (none : options.compressor = none) (markup : IsMarkupName name)
  (noVoid : Element.isVoid name = false)
include none markup noVoid

/-- An element that is opened where its text is kept is written around its layout. -/
theorem steps_element {writer : Writer}
    (keeps : (writer.openElement options name given).KeepsText) :
    let after := writer.steps options (.elementOpen name given :: (events ++ [.elementClose name]))
    after.written = (writer.flush.trimBefore name).written ++
        ((Piece.startTag name
            (canonicalAttributes options.collapseEmptyAttributes name given)).render ++
          ((layout.followedBy (decode behind)).text ++ (Piece.endTag name).render)) ∧
      after.pending = [] ∧ after.stack = writer.stack := by
  intro after
  obtain ⟨written, pending, stack⟩ := kept.steps _ keeps (Writer.openElement_pending _ _ _ _)
  have same : after =
      ((writer.openElement options name given).steps options events).closeElement options
          name := by
    simp only [after, Writer.steps_cons, Writer.steps_append, Writer.steps_nil, Writer.step,
      markup.named.lower]
  rw [same]
  refine ⟨?_, Writer.closeElement_pending _ _ _, ?_⟩
  · rw [Writer.written_closeElement, Writer.compressStyle_eq_self none,
      (keeps.of_stack stack).written_settle, noVoid, if_neg Bool.false_ne_true, written, pending,
      Writer.written_openElement, Layout.text_followedBy]
    simp only [List.append_assoc]
  · rw [Writer.closeElement_stack, stack, Writer.openElement_stack, List.tail_cons]

/-- An element that keeps its text belongs to its events. -/
theorem nodeOf_element (nested : Nested events) (keeps : preserves name = true)
    (attributeNames : ∀ attr ∈ given, IsAttributeName attr.1)
    (textual : Element.isVerbatim name = true → layout.IsText) :
    NodeOf options (.elementOpen name given :: (events ++ [.elementClose name]))
      (.element name (canonicalAttributes options.collapseEmptyAttributes name given)
        (layout.followedBy (decode behind)) .nil) where
  plain := .element markup.named keeps (isEncodedAttribute_canonicalAttributes attributeNames)
    (fun isVerbatim => (textual isVerbatim).followedBy _) (kept.plain.followedBy _) .nil
  content := by
    have whole : contentFrom [] (.elementOpen name given :: (events ++ [.elementClose name]) ++
        []) = _ :=
      kept.contentFrom_element [] []
    rw [List.append_nil] at whole
    rw [Event.content, whole, contentFrom, Layout.content, Layout.content, Reference.decode_nil,
      List.nil_append]
  alone := by
    have opened := Writer.start.keepsText_openElement (List.forall_mem_nil _) options keeps
      markup.noRawText given
    have begins : (Writer.start.flush.trimBefore name).written = Element.doctype := by
      rw [Writer.written_trimBefore]
      split <;> rfl
    obtain ⟨written, pending, _⟩ := steps_element kept none markup noVoid opened
    have settled := trimEnd_append_render (.endTag name) (by simp) (Element.doctype ++
      ((Piece.startTag name (canonicalAttributes options.collapseEmptyAttributes name
        given)).render ++
        (layout.followedBy (decode behind)).text))
    simp only [List.append_assoc] at settled
    rw [serialize_of_balanced options (nested.balanced_element markup.named given),
      Writer.written_flush,
      pending, Place.normalize_nil, List.append_nil, written, begins,
      trim_of_doctype (List.prefix_append _ _), settled, Layout.text, Layout.text, List.append_nil]
  origin := by
    intro other attributes member
    rcases List.mem_cons.1 member with same | further
    · cases same
      exact ⟨given, List.mem_cons_self, rfl⟩
    · rw [Layout.startTags, List.append_nil] at further
      exact kept.comesFrom_followedBy other attributes further

/-- An element inside one that keeps its text is written around its layout, behind the text that
waits. -/
theorem element (waiting : Text) (nested : Nested events)
    (attributeNames : ∀ attr ∈ given, IsAttributeName attr.1)
    (textual : Element.isVerbatim name = true → layout.IsText) :
    Keeps options (.elementOpen name given :: (events ++ [.elementClose name])) waiting
      (.ofText (decode waiting)
        (.wrap name (canonicalAttributes options.collapseEmptyAttributes name given)
          (layout.followedBy (decode behind)))) [] := by
  have letters : Element.isVerbatim name = true → (layout.followedBy (decode behind)).IsText :=
    fun isVerbatim => (textual isVerbatim).followedBy _
  constructor
  · exact ((kept.plain.followedBy _).wrap letters markup.named
      (isEncodedAttribute_canonicalAttributes attributeNames)).ofText _
  · intro writer inside same
    obtain ⟨written, pending, stack⟩ := steps_element kept none markup noVoid
      (inside.openElement options markup.noRawText given)
    refine ⟨?_, pending, stack⟩
    rw [written, inside.written_settle, same, Layout.text_ofText, Layout.text_wrap letters,
      List.append_assoc]
  · intro later
    rw [kept.contentFrom_element, Layout.content_ofText, Layout.content_wrap, List.append_assoc]
  · have found : preservedElements (.elementOpen name given :: (events ++ [.elementClose name])) =
        _ :=
      Event.preservedElements_element nested.balanced.walk_eq given []
    have inner := Event.preservedElements_append nested.balanced.walk_eq [.elementClose name]
    rw [found, inner, Layout.nodes_ofText, Layout.nodes_wrap letters, Layout.nodes_followedBy]
    apply List.rel_append
    · split
      · next keeps =>
          have node := nodeOf_element kept none markup noVoid nested keeps attributeNames textual
          exact .cons node .nil
      · exact .nil
    · rw [show preservedElements [.elementClose name] = [] from rfl, List.append_nil]
      exact kept.found
  · exact (Layout.ComesFrom.wrap letters kept.comesFrom_followedBy List.mem_cons_self).of_startTags
      (Layout.startTags_ofText _ _)

end

end Keeps

/-- Inside an element that keeps its text a layout is written of every complete stream. -/
theorem exists_keeps {options : Options} (none : options.compressor = none) {events : List Event}
    (nested : Nested events) (waiting : Text) :
    ∃ layout behind, Keeps options events waiting layout behind := by
  induction nested generalizing waiting with
  | nil => exact ⟨_, _, .nil options waiting⟩
  | characters text _ ih =>
      obtain ⟨layout, behind, keeps⟩ := ih (waiting ++ text)
      exact ⟨_, _, (Keeps.characters options waiting text).append rfl keeps⟩
  | cdata text _ ih =>
      obtain ⟨layout, behind, keeps⟩ := ih (waiting ++ text)
      exact ⟨_, _, (Keeps.cdata options waiting text).append rfl keeps⟩
  | comment dropped _ ih =>
      obtain ⟨layout, behind, keeps⟩ := ih []
      exact ⟨_, _, (Keeps.comment options waiting dropped).append rfl keeps⟩
  | void named isVoid attributeNames _ ih =>
      obtain ⟨layout, behind, keeps⟩ := ih []
      have complete := (Nested.void named isVoid attributeNames .nil).balanced.walk_eq
      exact ⟨_, _, (Keeps.void none waiting named isVoid attributeNames).append complete keeps⟩
  | @verbatim name given body later markup isVerbatim attributeNames _ ih =>
      obtain ⟨layout, behind, keeps⟩ := ih []
      have complete := (Nested.verbatim body markup isVerbatim attributeNames
        .nil).balanced.walk_eq
      have whole := ((Keeps.body options body).element none markup
        (Token.isVoid_of_isVerbatim isVerbatim)
        waiting (nested_body body) attributeNames fun _ => ⟨[], rfl⟩).append complete keeps
      rw [List.cons_append, List.append_assoc] at whole
      exact ⟨_, _, whole⟩
  | @container name given inner later markup container attributeNames nestedInner _ ihInner ih =>
      obtain ⟨layoutInner, behindInner, kept⟩ := ihInner []
      obtain ⟨layout, behind, keeps⟩ := ih []
      have complete := (Nested.container markup container attributeNames nestedInner
        .nil).balanced.walk_eq
      have whole := (kept.element none markup container.noVoid waiting nestedInner attributeNames
        fun isVerbatim => by rw [container.noVerbatim] at isVerbatim; cases isVerbatim).append
          complete keeps
      rw [List.cons_append, List.append_assoc] at whole
      exact ⟨_, _, whole⟩

end HtmlMinifier.Canonical

/-
# Writing a stream in a body

Two writers take the same events, one with `html` and `body` around them and one without. Neither
element is seen by what is written inside: `body` is no flow content, so a blank right behind its
tag is dropped as it is behind the document type, and none of the two keeps white space, counts as
a head or drops text that stands directly in the body. So the writers write the same text, one of
them behind two more tags.
-/
import HtmlMinifier.Proofs.Canonical.Acceptance

namespace HtmlMinifier.Canonical

open Event (Balanced)

/-- The elements of a body, innermost first. -/
def bodyStack : List Text := ["body", "html"].map String.toList

/-- The start tags of these elements. -/
def bodyStart : Text := "<html><body>".toList

/-- The end tags of these elements. -/
def bodyEnd : Text := "</body></html>".toList

/-! ## Places in a body -/

/-- Behind the start tag of the body instead of the document type, or behind the same. -/
inductive SameTail : Tail → Tail → Prop
  | same (tail : Tail) : SameTail tail tail
  | start : SameTail .doctype (.startTag "body".toList)

theorem SameTail.behind {tail inner : Tail} (same : SameTail tail inner) (run : Text) :
    SameTail (tail.behind run) (inner.behind run) := by
  rw [Tail.behind, Tail.behind]
  split
  · exact same
  · exact .same _

variable {ancestors : List Text} {tail inner : Tail}

/-- The innermost element is the same unless it is the body, which decides nothing. -/
theorem any_head?_append_bodyStack (decides : Text → Bool) (never : decides "body".toList = false)
    (ancestors : List Text) :
    (ancestors ++ bodyStack).head?.any decides = ancestors.head?.any decides := by
  cases ancestors with
  | nil =>
      change decides "body".toList = false
      exact never
  | cons current outer => rfl

theorem any_append_bodyStack (decides : Text → Bool) (never : bodyStack.any decides = false)
    (ancestors : List Text) : (ancestors ++ bodyStack).any decides = ancestors.any decides := by
  rw [List.any_append, never, Bool.or_false]

theorem inPreformatted_inBody (ancestors : List Text) (tail inner : Tail) :
    (Place.mk (ancestors ++ bodyStack) inner).inPreformatted =
      (Place.mk ancestors tail).inPreformatted :=
  any_append_bodyStack Element.isPreformatted (by decide) ancestors

theorem keepsLeadingSpace_inBody (same : SameTail tail inner) (ancestors : List Text) :
    (Place.mk (ancestors ++ bodyStack) inner).keepsLeadingSpace =
      (Place.mk ancestors tail).keepsLeadingSpace := by
  have flow : (Place.mk (ancestors ++ bodyStack) inner).inFlowContent =
      (Place.mk ancestors tail).inFlowContent := by
    rw [Place.inFlowContent, Place.inFlowContent, Place.inHead, Place.inHead]
    exact congrArg not (any_append_bodyStack _ (by decide) ancestors)
  have noFlow : Element.isFlow "body".toList = false := by decide
  cases same with
  | start => simp only [Place.keepsLeadingSpace, noFlow, Bool.false_and]
  | same =>
      cases tail with
      | startTag name | endTag name => simp only [Place.keepsLeadingSpace, flow]
      | doctype | text endsWithSpace | comment => rfl

/-- Text is written in a body as it is without one. -/
theorem normalize_inBody (same : SameTail tail inner) (ancestors : List Text) (text : Text) :
    (Place.mk (ancestors ++ bodyStack) inner).normalize text =
      (Place.mk ancestors tail).normalize text := by
  have raw : (Place.mk (ancestors ++ bodyStack) inner).inRawText =
      (Place.mk ancestors tail).inRawText :=
    any_head?_append_bodyStack Element.isRawText (by decide) ancestors
  have skeleton : (Place.mk (ancestors ++ bodyStack) inner).inSkeleton =
      (Place.mk ancestors tail).inSkeleton :=
    any_head?_append_bodyStack Element.isSkeleton (by decide) ancestors
  rw [Place.normalize, Place.normalize, raw, skeleton, inPreformatted_inBody ancestors tail inner,
    keepsLeadingSpace_inBody same]

/-! ## Two writers -/

/-- A writer in a body, beside one without: the same text is written and waits. -/
structure InBody (writer inside : Writer) : Prop where
  written : ∃ text, writer.written = Element.doctype ++ text ∧
    inside.written = Element.doctype ++ (bodyStart ++ text)
  pending : inside.pending = writer.pending
  stack : inside.stack = writer.stack ++ bodyStack
  tail : SameTail writer.tail inside.tail

namespace InBody

variable {writer inside : Writer}

/-- Cutting blanks off the end never reaches the tags in front. -/
theorem trimEnd_written {text : Text} :
    Text.trimEnd (Element.doctype ++ text) = Element.doctype ++ Text.trimEnd text ∧
      Text.trimEnd (Element.doctype ++ (bodyStart ++ text)) =
        Element.doctype ++ (bodyStart ++ Text.trimEnd text) := by
  have solid : Text.trimEnd Element.doctype = Element.doctype := by decide
  have solidStart : Text.trimEnd (Element.doctype ++ bodyStart) = Element.doctype ++
      bodyStart := by
    decide
  rw [← List.append_assoc, Text.trimEnd_append, Text.trimEnd_append, solid, solidStart]
  split
  · next vanishes => rw [vanishes, List.append_nil, List.append_nil]; exact ⟨rfl, rfl⟩
  · rw [List.append_assoc]; exact ⟨rfl, rfl⟩

theorem flush (both : InBody writer inside) : InBody writer.flush inside.flush := by
  have normal : inside.place.normalize inside.pending = writer.place.normalize writer.pending := by
    rw [Writer.place, Writer.place, both.pending, both.stack]
    exact normalize_inBody both.tail writer.stack writer.pending
  obtain ⟨text, written, insideWritten⟩ := both.written
  refine ⟨⟨text ++ writer.place.normalize writer.pending, ?_, ?_⟩, ?_, ?_, ?_⟩
  · rw [Writer.written_flush, written, List.append_assoc]
  · rw [Writer.written_flush, insideWritten, normal, List.append_assoc, List.append_assoc]
  · rw [Writer.flush_pending, Writer.flush_pending]
  · rw [Writer.flush_stack, Writer.flush_stack, both.stack]
  · rw [Writer.flush_tail, Writer.flush_tail, normal]
    exact both.tail.behind _

theorem trimBefore (both : InBody writer inside) (name : Text) :
    InBody (writer.trimBefore name) (inside.trimBefore name) := by
  have cuts : inside.cutsBefore name = writer.cutsBefore name := by
    rw [Writer.cutsBefore, Writer.cutsBefore, Writer.place, Writer.place, both.stack,
      inPreformatted_inBody writer.stack writer.tail inside.tail]
  obtain ⟨text, written, insideWritten⟩ := both.written
  refine ⟨?_, ?_, ?_, ?_⟩
  · rw [Writer.written_trimBefore, Writer.written_trimBefore, cuts]
    split
    · refine ⟨Text.trimEnd text, ?_, ?_⟩
      · rw [written, trimEnd_written.1]
      · rw [insideWritten, trimEnd_written.2]
    · exact ⟨text, written, insideWritten⟩
  · rw [Writer.trimBefore_pending, Writer.trimBefore_pending, both.pending]
  · rw [Writer.trimBefore_stack, Writer.trimBefore_stack, both.stack]
  · rw [Writer.trimBefore_tail, Writer.trimBefore_tail]
    exact both.tail

theorem openElement (both : InBody writer inside) (options : Options) (name : Text)
    (attributes : List (Text × Text)) :
    InBody (writer.openElement options name attributes)
    (inside.openElement options name attributes) := by
  obtain ⟨text, written, insideWritten⟩ := (both.flush.trimBefore name).written
  refine ⟨⟨text ++ (Piece.startTag name
    (canonicalAttributes options.collapseEmptyAttributes name attributes)).render, ?_, ?_⟩,
      ?_, ?_, ?_⟩
  · rw [Writer.written_openElement, written, List.append_assoc]
  · rw [Writer.written_openElement, insideWritten]
    simp only [List.append_assoc]
  · rw [Writer.openElement_pending, Writer.openElement_pending]
  · rw [Writer.openElement_stack, Writer.openElement_stack, both.stack, List.cons_append]
  · exact .same _

theorem closeElement {options : Options} (none : options.compressor = none)
    (both : InBody writer inside) {current : Text} {outer : List Text}
    (around : writer.stack = current :: outer) (name : Text) :
    InBody (writer.closeElement options name) (inside.closeElement options name) := by
  obtain ⟨text, written, insideWritten⟩ := (both.flush.trimBefore name).written
  refine ⟨⟨text ++ if Element.isVoid name then [] else (Piece.endTag name).render, ?_, ?_⟩,
    ?_, ?_, ?_⟩
  · rw [Writer.written_closeElement, Writer.compressStyle_eq_self none, written, List.append_assoc]
  · rw [Writer.written_closeElement, Writer.compressStyle_eq_self none, insideWritten]
    simp only [List.append_assoc]
  · rw [Writer.closeElement_pending, Writer.closeElement_pending]
  · rw [Writer.closeElement_stack, Writer.closeElement_stack, both.stack, around]
    rfl
  · exact .same _

theorem comment (both : InBody writer inside) (body : Text) :
    InBody (writer.comment body) (inside.comment body) := by
  obtain ⟨text, written, insideWritten⟩ := both.flush.written
  refine ⟨⟨text ++ if isConditional body then (Piece.comment body).render else [], ?_, ?_⟩,
    ?_, ?_, ?_⟩
  · rw [Writer.written_comment, written, List.append_assoc]
  · rw [Writer.written_comment, insideWritten]
    simp only [List.append_assoc]
  · rw [Writer.comment_pending, Writer.comment_pending]
  · rw [Writer.comment_stack, Writer.comment_stack, both.stack]
  · simp only [Writer.comment]
    split
    · exact .same _
    · exact both.flush.tail

/-- The writers take a stream alike as long as it closes nothing but what it has opened. -/
theorem steps {options : Options} (none : options.compressor = none) {stack : List Text}
    {events : List Event} (balanced : Balanced stack events) {writer inside : Writer}
    (both : InBody writer inside) (same : writer.stack = stack.map Text.lower) :
    InBody (writer.steps options events) (inside.steps options events) := by
  induction balanced generalizing writer inside with
  | done => exact both
  | opened attributes named _ ih =>
      refine ih (both.openElement options _ attributes) ?_
      rw [Writer.step, Writer.openElement_stack, same, List.map_cons]
  | @closed stack name later _ ih =>
      refine ih (both.closeElement none same _) ?_
      rw [Writer.step, Writer.closeElement_stack, same, List.map_cons, List.tail_cons]
  | characters _ ih | cdata _ ih =>
      refine ih ⟨both.written, ?_, both.stack, both.tail⟩ same
      rw [Writer.step, Writer.step, Writer.characters, Writer.characters, both.pending]
  | comment _ ih =>
      refine ih (both.comment _) ?_
      rw [Writer.step, Writer.comment_stack, same]

end InBody

/-! ## The whole stream -/

/-- The events of a document with `html` and `body` around what comes after its start. -/
def inBody (events : List Event) : List Event :=
  .documentStart :: .elementOpen "html".toList [] :: .elementOpen "body".toList [] ::
    (events.tail ++ [.elementClose "body".toList, .elementClose "html".toList])

/-- The end tag of an inline element is written behind the waiting text. -/
theorem written_closeElement_inline {options : Options} (none : options.compressor = none)
    {name : Text} (inline : Element.isBlock name = false) (noVoid : Element.isVoid name = false)
    (writer : Writer) :
    (writer.closeElement options name).written =
      writer.flush.written ++ (Piece.endTag name).render := by
  rw [Writer.written_closeElement, Writer.compressStyle_eq_self none, Writer.written_trimBefore,
    Writer.cutsBefore, inline, noVoid, Bool.false_and, if_neg Bool.false_ne_true,
    if_neg Bool.false_ne_true]

/-- What is written of the end of a body. -/
theorem written_steps_bodyEnd {options : Options} (none : options.compressor = none)
    (writer : Writer) :
    (writer.steps options
        [.elementClose "body".toList, .elementClose "html".toList]).flush.written =
      writer.flush.written ++ bodyEnd := by
  have nothing : ∀ name (current : Writer),
      (current.closeElement options name).flush.written =
          (current.closeElement options name).written := by
    intro name current
    rw [Writer.written_flush, Writer.closeElement_pending, Place.normalize_nil, List.append_nil]
  change ((writer.closeElement options "body".toList).closeElement options
    "html".toList).flush.written = _
  rw [nothing, written_closeElement_inline none (by decide) (by decide), nothing,
    written_closeElement_inline none (by decide) (by decide), List.append_assoc]
  rfl

/-- A stream in a body is written as it is without one, between the tags of the body. -/
theorem exists_serialize_inBody {options : Options} (none : options.compressor = none)
    {events : List Event} (balanced : Balanced [] events) :
    ∃ text, (Writer.start.steps options events).flush.written = Element.doctype ++ text ∧
      serialize options (inBody (.documentStart :: events)) =
        .ok (Element.doctype ++ (bodyStart ++ (text ++ bodyEnd))) := by
  have html : "html".toList ≠ [] := by decide
  have body : "body".toList ≠ [] := by decide
  have around : Balanced [] (.elementOpen "html".toList [] :: .elementOpen "body".toList [] ::
      (events ++ [.elementClose "body".toList, .elementClose "html".toList])) :=
    .opened [] html (.opened [] body (balanced.append (.closed (.closed .done))))
  have start : InBody Writer.start
      (Writer.start.steps options
        [.elementOpen "html".toList [], .elementOpen "body".toList []]) :=
    ⟨⟨[], rfl, rfl⟩, rfl, rfl, .start⟩
  have final := (start.steps none balanced rfl).flush
  obtain ⟨text, written, insideWritten⟩ := final.written
  have whole : (Writer.start.steps options (.elementOpen "html".toList [] ::
      .elementOpen "body".toList [] ::
        (events ++ [.elementClose "body".toList, .elementClose "html".toList]))).flush.written =
      Element.doctype ++ (bodyStart ++ (text ++ bodyEnd)) := by
    rw [Writer.steps_cons, Writer.steps_cons, Writer.steps_append, written_steps_bodyEnd none]
    rw [Writer.steps_cons, Writer.steps_cons, Writer.steps_nil] at insideWritten
    rw [insideWritten]
    simp only [List.append_assoc]
  refine ⟨text, written, ?_⟩
  have trimmed : Text.trim (Element.doctype ++ (bodyStart ++ (text ++ bodyEnd))) =
      Element.doctype ++ (bodyStart ++ (text ++ bodyEnd)) := by
    rw [trim_of_doctype (List.prefix_append _ _), InBody.trimEnd_written.2, Text.trimEnd_append,
      if_neg (by decide), show Text.trimEnd bodyEnd = bodyEnd by decide]
  rw [inBody, List.tail_cons, serialize_of_balanced options around, whole, trimmed]

end HtmlMinifier.Canonical

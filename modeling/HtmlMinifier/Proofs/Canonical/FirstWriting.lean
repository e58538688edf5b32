/-
# What a writer writes is a document

While a writer takes a legible stream it shows a document: what is written so far is a list of laid
segments and the beginning of a run that fits, and the writer stands where that run ends. Every
event keeps this up, so what is written in the end is a document that says the same as the stream.
-/
import HtmlMinifier.Proofs.Canonical.Acceptance
import HtmlMinifier.Proofs.Canonical.Document

namespace HtmlMinifier.Canonical

open Event (IsContainer Legible impliedlyClosed)
open Token (IsTagName IsAttributeName AvoidsEndTag)

/-! ## What events say -/

/-- The events of a segment. -/
def Segment.events (segment : Segment) : List Event :=
  (if segment.run = [] then [] else [.characters segment.run]) ++ segment.mark.events

/-- Whether an event is a tag or a comment. -/
def isStructural : Event → Bool
  | .elementOpen _ _ => true
  | .elementClose _ => true
  | .comment _ => true
  | _ => false

/-- The tags and comments of segments. -/
def outline (segments : List Segment) : List Event :=
  (segments.flatMap Segment.events).filter isStructural

/-- The canonical form of a tag or a conditional comment. Other comments, and text, have none. -/
def canonicalEvent? : Event → Option Event
  | .elementOpen name attributes => some (.elementOpen name (canonicalForm name attributes))
  | .elementClose name => some (.elementClose name)
  | .comment body => if isConditional body then some (.comment body) else none
  | _ => none

theorem outline_concat (segments : List Segment) (segment : Segment) :
    outline (segments ++ [segment]) =
      outline segments ++ segment.mark.events.filter isStructural := by
  have noText : (if segment.run = [] then [] else [Event.characters segment.run]).filter
      isStructural =
      [] := by
    split <;> rfl
  rw [outline, List.flatMap_append, List.flatMap_singleton, List.filter_append, ← outline,
    Segment.events, List.filter_append, noText, List.nil_append]

/-- A mark that is written for events of a list. The body of a verbatim element is written as it is
normalized inside the element. -/
inductive Mark.ComesFrom (collapseEmpty : Bool) (events : List Event) : Mark → Prop
  | opening {name : Text} {given : List (Text × Text)}
      (member : .elementOpen name given ∈ events) :
      ComesFrom collapseEmpty events (.opening name (canonicalAttributes collapseEmpty name given))
  | void {name : Text} {given : List (Text × Text)} (member : .elementOpen name given ∈ events) :
      ComesFrom collapseEmpty events (.void name (canonicalAttributes collapseEmpty name given))
  | verbatim {name body : Text} {given : List (Text × Text)} (place : Place)
      (infixed : .elementOpen name given :: (if body = [] then [] else [.characters body]) <:+:
        events) :
      ComesFrom collapseEmpty events
        (.verbatim name (canonicalAttributes collapseEmpty name given)
          ((place.inside name).normalize body))
  | closing (name : Text) : ComesFrom collapseEmpty events (.closing name)
  | comment {body : Text} (member : .comment body ∈ events) :
      ComesFrom collapseEmpty events (.comment body)

/-- A mark that comes from the last of the events comes from all of them. -/
theorem Mark.ComesFrom.earlier {collapseEmpty : Bool} {later events : List Event} {mark : Mark}
    (origin : mark.ComesFrom collapseEmpty later) (inside : later <:+ events) :
    mark.ComesFrom collapseEmpty events := by
  cases origin with
  | opening member => exact .opening (inside.subset member)
  | void member => exact .void (inside.subset member)
  | verbatim place infixed => exact .verbatim place (infixed.trans inside.isInfix)
  | closing name => exact .closing name
  | comment member => exact .comment (inside.subset member)

/-! ## The invariant -/

/-- What is written so far: laid segments, and a run that may go on. -/
structure Shows (writer : Writer) (segments : List Segment) (run : Text) (place : Place) : Prop
    extends writer.Stands (Element.doctype ++ renderSegments segments) run place where
  laid : Laid Place.start segments place

variable {writer : Writer} {segments : List Segment} {run : Text} {place : Place}

theorem Shows.text (shows : Shows writer segments run place) :
    writer.written = documentText segments run := shows.written

/-- Waiting text goes on the run. -/
theorem Shows.flush (shows : Shows writer segments run place) :
    Shows writer.flush segments (run ++ writer.place.normalize writer.pending) place :=
  ⟨shows.toStands.flush, shows.laid⟩

/-- A run as it is left in front of a tag. -/
def settledRun (place : Place) (name run : Text) : Text :=
  if Element.isBlock name && !place.inPreformatted then Text.trimEnd run else run

/-- In front of a tag the run is settled, and it still fits. -/
theorem Shows.settle (shows : Shows writer segments run place) (name : Text) :
    (writer.trimBefore name).written = documentText segments (settledRun place name run) ∧
      place.Fits (settledRun place name run) ∧
      ((Element.isBlock name && !place.inPreformatted) = true →
        Text.endsBlank (settledRun place name run) = false) := by
  have same : writer.cutsBefore name = (Element.isBlock name && !place.inPreformatted) := by
    rw [Writer.cutsBefore, shows.place_eq]
    rfl
  rw [Writer.written_trimBefore, same, settledRun]
  cases cuts : Element.isBlock name && !place.inPreformatted with
  | true =>
      rw [Bool.and_eq_true, Bool.not_eq_true'] at cuts
      rw [if_pos rfl, if_pos rfl, shows.text, trimEnd_documentText]
      exact ⟨rfl, Place.fits_trimEnd cuts.2 shows.fits, fun _ => Text.endsBlank_trimEnd run⟩
  | false =>
      rw [if_neg Bool.false_ne_true, if_neg Bool.false_ne_true]
      exact ⟨shows.text, shows.fits, fun no => absurd no Bool.false_ne_true⟩

theorem documentText_concat (segments : List Segment) (segment : Segment) :
    documentText (segments ++ [segment]) [] =
      documentText segments segment.run ++ segment.mark.render := by
  simp only [documentText, renderSegments_concat, List.append_assoc, List.append_nil]

/-- Writing a mark behind a settled run leads to the place behind the mark. -/
theorem Shows.mark (shows : Shows writer segments run place) {segment : Segment}
    {next : Writer} (fits : place.Fits segment.run)
    (settled : segment.mark.cuts place = true → Text.endsBlank segment.run = false)
    (admitted : segment.mark.Admitted place)
    (written : next.written = documentText segments segment.run ++ segment.mark.render)
    (stack : next.stack = (place.after segment.mark).ancestors)
    (tail : next.tail = (place.after segment.mark).tail) :
    Shows next (segments ++ [segment]) [] (place.after segment.mark) where
  laid := shows.laid.concat fits settled admitted
  fits := Place.fits_nil _
  written := by
    rw [written, ← documentText_concat]
    rfl
  stack := stack
  tail := by rw [tail, Tail.behind_nil]

/-! ## One event -/

section
variable {options : Options}

/-- The run that stands in front of a tag once the waiting text is written and settled. -/
def runBefore (writer : Writer) (place : Place) (name run : Text) : Text :=
  settledRun place name (run ++ writer.place.normalize writer.pending)

/-- A start tag is written behind what it settles. -/
theorem Shows.written_openElement (shows : Shows writer segments run place)
    (name : Text) (given : List (Text × Text)) :
    (writer.openElement options name given).written =
      documentText segments (runBefore writer place name run) ++
        (Piece.startTag name
          (canonicalAttributes options.collapseEmptyAttributes name given)).render := by
  rw [Writer.written_openElement, (shows.flush.settle name).1, runBefore]

/-- A writer shows an element that stays open. -/
theorem Shows.opened (shows : Shows writer segments run place)
    {name : Text} (given : List (Text × Text)) (container : IsContainer name)
    (stands : impliedlyClosed name place.ancestors = [])
    (attributeNames : ∀ attr ∈ given, IsAttributeName attr.1) :
    Shows (writer.step options (.elementOpen name given))
      (segments ++ [⟨runBefore writer place name run,
        .opening name (canonicalAttributes options.collapseEmptyAttributes name given)⟩]) []
      ⟨name :: place.ancestors, .startTag name⟩ := by
  obtain ⟨_, fits, settled⟩ := shows.flush.settle name
  rw [Writer.step, container.named.lower]
  refine shows.mark fits settled
    (.opening container stands (isEncodedAttribute_canonicalAttributes attributeNames))
    (shows.written_openElement name given) ?_ (Writer.openElement_tail options name given writer)
  rw [Writer.openElement_stack, shows.stack]
  rfl

/-- A void element is closed without a trace. -/
theorem written_closeElement_void (none : options.compressor = none) {name : Text}
    (isVoid : Element.isVoid name = true) (given : List (Text × Text)) (writer : Writer) :
    ((writer.openElement options name given).closeElement options name).written =
      (writer.openElement options name given).written := by
  have ends : Text.trimEnd (writer.openElement options name given).written =
      (writer.openElement options name given).written := by
    rw [Writer.written_openElement]
    exact trimEnd_append_render _ (by simp) _
  rw [Writer.written_closeElement, Writer.compressStyle_eq_self none, if_pos isVoid,
    List.append_nil,
    Writer.written_trimBefore, Writer.written_flush, Writer.openElement_pending,
      Place.normalize_nil,
    List.append_nil, ends, ite_self]

/-- A writer shows a void element. -/
theorem Shows.void (none : options.compressor = none)
    (shows : Shows writer segments run place)
    {name : Text} (given : List (Text × Text)) (named : IsTagName name)
    (isVoid : Element.isVoid name = true) (stands : impliedlyClosed name place.ancestors = [])
    (attributeNames : ∀ attr ∈ given, IsAttributeName attr.1) :
    Shows
      (writer.steps options [.elementOpen name given, .elementClose name])
      (segments ++ [⟨runBefore writer place name run,
        .void name (canonicalAttributes options.collapseEmptyAttributes name given)⟩]) []
      ⟨place.ancestors, .endTag name⟩ := by
  obtain ⟨_, fits, settled⟩ := shows.flush.settle name
  simp only [Writer.steps_cons, Writer.steps_nil, Writer.step, named.lower]
  refine shows.mark fits settled
    (.void named isVoid stands (isEncodedAttribute_canonicalAttributes attributeNames)) ?_ ?_
    (Writer.closeElement_tail options name _)
  · rw [written_closeElement_void none isVoid, shows.written_openElement]
    rfl
  · rw [Writer.closeElement_stack, Writer.openElement_stack, List.tail_cons, shows.stack]
    rfl

/-- No verbatim element is a block. -/
theorem isBlock_of_isVerbatim {name : Text} (isVerbatim : Element.isVerbatim name = true) :
    Element.isBlock name = false := by
  simp only [Element.isVerbatim, Element.verbatimNames, List.contains_iff_mem, List.map_cons,
    List.map_nil, List.mem_cons, List.not_mem_nil, or_false] at isVerbatim
  rcases isVerbatim with rfl | rfl | rfl | rfl <;> decide

/-- Text waits whether or not there is any. -/
theorem steps_characters (body : Text) (writer : Writer) :
    writer.steps options (if body = [] then [] else [.characters body]) =
    writer.characters body := by
  split
  · next none =>
      rw [none, Writer.characters, List.append_nil]
      rfl
  · rfl

/-- What is written of the body of a verbatim element contains no end tag of it. -/
theorem avoidsEndTag_normalize {name body : Text} (avoids : AvoidsEndTag name body)
    (place : Place) :
    AvoidsEndTag name ((place.inside name).normalize body) := by
  cases raw : (place.inside name).inRawText with
  | true =>
      rw [Place.normalize, if_pos raw]
      exact avoids
  | false =>
      exact Token.avoidsEndTag_of_ne_bracket name ((Place.fits_normalize _ body).ne_bracket raw)

/-- A writer shows a verbatim element. -/
theorem Shows.verbatim (none : options.compressor = none)
    (shows : Shows writer segments run place)
    {name body : Text} (given : List (Text × Text)) (named : IsTagName name)
    (isVerbatim : Element.isVerbatim name = true)
    (stands : impliedlyClosed name place.ancestors = [])
    (attributeNames : ∀ attr ∈ given, IsAttributeName attr.1) (avoids : AvoidsEndTag name body) :
    Shows
      (writer.steps options (.elementOpen name given ::
        ((if body = [] then [] else [.characters body]) ++ [.elementClose name])))
      (segments ++ [⟨runBefore writer place name run,
        .verbatim name (canonicalAttributes options.collapseEmptyAttributes name given)
          ((place.inside name).normalize body)⟩]) []
      ⟨place.ancestors, .endTag name⟩ := by
  obtain ⟨_, fits, settled⟩ := shows.flush.settle name
  rw [Writer.steps_cons, Writer.steps_append, steps_characters, Writer.steps_cons,
    Writer.steps_nil]
  simp only [Writer.step, named.lower]
  have inside : ((writer.openElement options name given).characters body).place =
      place.inside name := by
    rw [Writer.place, Writer.characters_stack, Writer.openElement_stack, shows.stack]
    rfl
  have pending : ((writer.openElement options name given).characters body).pending = body := by
    rw [Writer.characters, Writer.openElement_pending, List.nil_append]
  refine shows.mark fits settled
    (.verbatim named isVerbatim stands (isEncodedAttribute_canonicalAttributes attributeNames)
      (avoidsEndTag_normalize avoids place) (Place.fits_normalize _ body)) ?_ ?_
    (Writer.closeElement_tail options name _)
  · have notVoid : Element.isVoid name = false := Token.isVoid_of_isVerbatim isVerbatim
    have keeps : ((writer.openElement options name given).characters body).flush.cutsBefore name =
        false := by
      rw [Writer.cutsBefore, isBlock_of_isVerbatim isVerbatim, Bool.false_and]
    rw [Writer.written_closeElement, Writer.compressStyle_eq_self none, Writer.written_trimBefore,
      keeps, Writer.written_flush, inside, pending, Writer.written_characters,
      shows.written_openElement, notVoid, if_neg Bool.false_ne_true, if_neg Bool.false_ne_true,
      Mark.render, List.append_assoc, List.append_assoc]
  · rw [Writer.closeElement_stack, Writer.characters_stack, Writer.openElement_stack,
      List.tail_cons,
      shows.stack]
    rfl

/-- A writer shows the end of an element. -/
theorem Shows.closed (none : options.compressor = none)
    (shows : Shows writer segments run place)
    {name : Text} (container : IsContainer name) (current : place.current? = some name) :
    Shows (writer.step options (.elementClose name))
      (segments ++ [⟨runBefore writer place name run, .closing name⟩]) []
      ⟨place.ancestors.tail, .endTag name⟩ := by
  obtain ⟨written, fits, settled⟩ := shows.flush.settle name
  rw [Writer.step, container.named.lower]
  refine shows.mark fits settled (.closing container current) ?_ ?_
    (Writer.closeElement_tail options name writer)
  · rw [Writer.written_closeElement, Writer.compressStyle_eq_self none, written, container.noVoid,
      if_neg Bool.false_ne_true]
    rfl
  · rw [Writer.closeElement_stack, shows.stack]
    rfl

/-- A writer shows a conditional comment. -/
theorem Shows.keptComment (options : Options)
    (shows : Shows writer segments run place) {body : Text}
    (avoids : Text.Avoids "-->".toList body) (conditional : isConditional body = true) :
    Shows (writer.step options (.comment body))
      (segments ++ [⟨run ++ writer.place.normalize writer.pending, .comment body⟩]) []
      ⟨place.ancestors, .comment⟩ := by
  refine shows.mark shows.flush.fits (fun no => absurd no Bool.false_ne_true)
    (.comment avoids conditional) ?_ ?_ ?_
  · rw [Writer.step, Writer.written_comment, if_pos conditional, shows.flush.written]
    rfl
  · rw [Writer.step, Writer.comment_stack, shows.stack]
    rfl
  · simp only [Writer.step, Writer.comment, if_pos conditional]
    rfl

/-- Behind a comment that is dropped the run goes on. -/
theorem Shows.droppedComment (options : Options)
    (shows : Shows writer segments run place) {body : Text}
    (dropped : isConditional body = false) :
    Shows (writer.step options (.comment body)) segments
      (run ++ writer.place.normalize writer.pending) place := by
  rw [Writer.step, writer.comment_of_dropped dropped]
  exact shows.flush

/-- Waiting text is not shown yet. -/
theorem Shows.characters (shows : Shows writer segments run place) (text : Text) :
    Shows (writer.characters text) segments run place :=
  ⟨⟨shows.written, shows.fits, shows.stack, shows.tail⟩, shows.laid⟩

end

/-! ## A whole stream -/

/-- The tags and comments of a segment with a given mark are those of the mark. -/
theorem outline_append_singleton (segments : List Segment) (run : Text) (mark : Mark) :
    outline (segments ++ [⟨run, mark⟩]) = outline segments ++ mark.events.filter isStructural :=
  outline_concat segments ⟨run, mark⟩

/-- Segments that are laid behind others, with marks that come from certain events. -/
def Adds (collapseEmpty : Bool) (events : List Event) (segments segments' : List Segment) : Prop :=
  ∀ segment ∈ segments', segment ∈ segments ∨ segment.mark.ComesFrom collapseEmpty events

/-- One more segment with such a mark may be laid first. -/
theorem Adds.cons {collapseEmpty : Bool} {later events : List Event}
    {segments segments' : List Segment} {segment : Segment}
    (adds : Adds collapseEmpty later (segments ++ [segment]) segments') (inside : later <:+ events)
    (origin : segment.mark.ComesFrom collapseEmpty events) :
    Adds collapseEmpty events segments segments' := by
  intro other member
  rcases adds other member with earlier | comes
  · rcases List.mem_append.1 earlier with first | last
    · exact .inl first
    · rw [List.mem_singleton.1 last]
      exact .inr origin
  · exact .inr (comes.earlier inside)

theorem Adds.later {collapseEmpty : Bool} {later events : List Event}
    {segments segments' : List Segment} (adds : Adds collapseEmpty later segments segments')
    (inside : later <:+ events) : Adds collapseEmpty events segments segments' :=
  fun segment member => (adds segment member).imp_right fun comes => comes.earlier inside

/-- A legible stream leads from one shown document to another that says as much more as the stream
does. -/
theorem exists_shows_steps {options : Options} (none : options.compressor = none)
    {stack : List Text} {events : List Event} (legible : Legible IsContainer stack events)
    {writer : Writer} {segments : List Segment} {run : Text} {place : Place}
    (shows : Shows writer segments run place) (same : place.ancestors = stack) :
    ∃ segments' run' place',
      Shows (writer.steps options events).flush segments' run' place' ∧
        place'.ancestors = [] ∧
        outline segments' = outline segments ++ events.filterMap canonicalEvent? ∧
        Adds options.collapseEmptyAttributes events segments segments' := by
  induction legible generalizing writer segments run place with
  | done =>
      exact ⟨segments, _, place, shows.flush, same, (List.append_nil _).symm, fun _ => .inl⟩
  | opened container fits attributeNames _ ih =>
      obtain ⟨segments', run', place', final, closed, outlined, adds⟩ :=
        ih (shows.opened _ container (by rw [same]; exact fits) attributeNames) (by rw [same])
      refine ⟨segments', run', place', final, closed, ?_,
        adds.cons (List.suffix_cons _ _) (.opening List.mem_cons_self)⟩
      rw [outlined, outline_append_singleton, Mark.events, readBack_canonicalAttributes,
        List.append_assoc]
      rfl
  | @void stack name given later named isVoid fits attributeNames _ ih =>
      obtain ⟨segments', run', place', final, closed, outlined, adds⟩ :=
        ih (shows.void none _ named isVoid (by rw [same]; exact fits) attributeNames) same
      refine ⟨segments', run', place', final, closed, ?_,
        adds.cons ((List.suffix_cons _ _).trans (List.suffix_cons _ _)) (.void List.mem_cons_self)⟩
      rw [outlined, outline_append_singleton, Mark.events, readBack_canonicalAttributes,
        List.append_assoc]
      rfl
  | @verbatim stack name given body later named isVerbatim fits attributeNames avoids _ ih =>
      have parts : Event.elementOpen name given ::
          ((if body = [] then [] else [.characters body]) ++ .elementClose name :: later) =
            (.elementOpen name given ::
              ((if body = [] then [] else [.characters body]) ++ [.elementClose name])) ++
                  later := by
        simp
      have origin : .elementOpen name given :: (if body = [] then [] else [.characters body]) <:+:
          Event.elementOpen name given ::
            ((if body = [] then [] else [.characters body]) ++ .elementClose name :: later) :=
        ⟨[], .elementClose name :: later, rfl⟩
      obtain ⟨segments', run', place', final, closed, outlined, adds⟩ :=
        ih (shows.verbatim none _ named isVerbatim (by rw [same]; exact fits) attributeNames
          avoids) same
      have whole := adds.cons ⟨_, parts.symm⟩ (.verbatim place origin)
      rw [parts, Writer.steps_append]
      rw [parts] at whole
      refine ⟨segments', run', place', final, closed, ?_, whole⟩
      have written : (Mark.verbatim name
          (canonicalAttributes options.collapseEmptyAttributes name given)
            ((place.inside name).normalize body)).events.filter isStructural =
          (Event.elementOpen name given :: ((if body = [] then [] else [.characters body]) ++
            [.elementClose name])).filterMap canonicalEvent? := by
        rw [Mark.events, readBack_canonicalAttributes]
        split <;> split <;> rfl
      rw [outlined, outline_append_singleton, written, List.filterMap_append, List.append_assoc]
  | @closed stack name later container _ ih =>
      obtain ⟨segments', run', place', final, closed, outlined, adds⟩ :=
        ih (shows.closed none container (by rw [Place.current?, same]; rfl)) (by rw [same]; rfl)
      refine ⟨segments', run', place', final, closed, ?_,
        adds.cons (List.suffix_cons _ _) (.closing name)⟩
      rw [outlined, outline_append_singleton, List.append_assoc]
      rfl
  | characters _ ih | cdata _ ih =>
      obtain ⟨segments', run', place', final, closed, outlined, adds⟩ :=
        ih (shows.characters _) same
      exact ⟨segments', run', place', final, closed, outlined, adds.later (List.suffix_cons _ _)⟩
  | @comment stack body later avoids _ ih =>
      cases conditional : isConditional body with
      | true =>
          obtain ⟨segments', run', place', final, closed, outlined, adds⟩ :=
            ih (shows.keptComment options avoids conditional) same
          refine ⟨segments', run', place', final, closed, ?_,
            adds.cons (List.suffix_cons _ _) (.comment List.mem_cons_self)⟩
          rw [outlined, outline_append_singleton, List.append_assoc, List.filterMap_cons,
            canonicalEvent?,
            if_pos conditional]
          rfl
      | false =>
          obtain ⟨segments', run', place', final, closed, outlined, adds⟩ :=
            ih (shows.droppedComment options conditional) same
          refine ⟨segments', run', place', final, closed, ?_, adds.later (List.suffix_cons _ _)⟩
          rw [outlined, List.filterMap_cons, canonicalEvent?, conditional,
            if_neg Bool.false_ne_true]

/-- At its start a writer shows the empty document. -/
theorem shows_start : Shows Writer.start [] [] Place.start :=
  ⟨⟨rfl, Place.fits_nil _, rfl, rfl⟩, .nil⟩

/-- What is written of a legible stream is a document that says the same. -/
theorem exists_laidOut_of_legible {options : Options} (none : options.compressor = none)
    {events : List Event} (legible : Legible IsContainer [] events) :
    ∃ segments run, IsLaidOut segments run ∧
      Text.trim (Writer.start.steps options events).flush.written = documentText segments run ∧
      outline segments = events.filterMap canonicalEvent? ∧
      ∀ segment ∈ segments, segment.mark.ComesFrom options.collapseEmptyAttributes events := by
  obtain ⟨segments, run, ⟨ancestors, tail⟩, shows, rfl, outlined, adds⟩ :=
    exists_shows_steps none legible shows_start rfl
  refine ⟨segments, Text.trimEnd run, ⟨⟨tail, shows.laid, Place.fits_trimEnd rfl shows.fits⟩,
    Text.endsBlank_trimEnd run⟩, ?_, outlined, fun segment member => ?_⟩
  · have begins : Element.doctype <+: documentText segments run := by
      rw [documentText, List.append_assoc]
      exact List.prefix_append _ _
    rw [shows.text, trim_of_doctype begins, trimEnd_documentText]
  · exact (adds segment member).resolve_left List.not_mem_nil

end HtmlMinifier.Canonical

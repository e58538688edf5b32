/-
# How far trimming reaches

A writer takes back what it has written in one place only: in front of the tag of a block, and at
the end of the document, it cuts off blanks. It looks at nothing but the end of the text and at the
elements that are open now, not at those that were open when the blanks were written. Still it
never reaches into text that keeps its white space, because such text is written inside an element
that is no void one, and the end tag of that element is written before anything is cut off outside
of it.
-/
import HtmlMinifier.Proofs.Canonical.Acceptance
import HtmlMinifier.Proofs.Canonical.Growth

namespace HtmlMinifier.Canonical

/-! ## Writers -/

namespace Writer

/-- The characters that are written so far, with their origins. -/
def traced (writer : Writer) : List (Char × Origin) := Canonical.traced writer.pieces

/-- The latest runs of text were written with a preformatted element around them exactly if there
is one around what is written next. -/
def RunsInPlace (writer : Writer) : Prop :=
  ∀ piece ∈ latestRuns writer.pieces, piece.origin = .run writer.place.inPreformatted

/-- Behind a tag or a comment every run of text is yet to be written. -/
theorem runsInPlace_of_markup {writer : Writer} {piece : Piece} {pieces : List Piece}
    (same : writer.pieces = piece :: pieces) (markup : piece.isRun = false) :
    writer.RunsInPlace := by
  intro other member
  rw [same, latestRuns_of_markup markup] at member
  cases member

/-- What is done to a writer while the open elements stay as they are. -/
structure Extends (writer next : Writer) : Prop where
  stack : next.stack = writer.stack
  grows : GrowsTo writer.place.inPreformatted writer.traced next.traced
  inPlace : next.RunsInPlace

theorem place_inPreformatted {writer next : Writer} (same : next.stack = writer.stack) :
    next.place.inPreformatted = writer.place.inPreformatted := by
  rw [Place.inPreformatted, Place.inPreformatted, place, place, same]

theorem Extends.trans {first second third : Writer} (before : first.Extends second)
    (behind : second.Extends third) : first.Extends third where
  stack := behind.stack.trans before.stack
  grows := by
    have grows := behind.grows
    rw [place_inPreformatted before.stack] at grows
    exact before.grows.trans grows
  inPlace := behind.inPlace

variable {writer : Writer}

theorem RunsInPlace.extends_flush (inPlace : writer.RunsInPlace) :
    writer.Extends writer.flush := by
  have kind : ∀ text verbatim, (Piece.run writer.place.inPreformatted text).origin =
      .run verbatim →
      verbatim = writer.place.inPreformatted := by
    intro text verbatim same
    exact (Origin.run.inj same).symm
  refine ⟨flush_stack writer, ?_, fun piece member => ?_⟩
  · simp only [flush]
    split
    · exact .refl _
    · split
      · exact .refl _
      · exact growsTo_cons (kind _) writer.pieces
  · rw [place_inPreformatted (flush_stack writer)]
    simp only [flush] at member
    split at member
    · exact inPlace piece member
    · split at member
      · exact inPlace piece member
      · rcases List.mem_cons.1 member with rfl | earlier
        · rfl
        · exact inPlace piece earlier

theorem RunsInPlace.extends_trimBefore (inPlace : writer.RunsInPlace) (name : Text) :
    writer.Extends (writer.trimBefore name) := by
  rw [trimBefore, ← cutsBefore]
  split
  · next cuts =>
      rw [cutsBefore, Bool.and_eq_true, Bool.not_eq_true'] at cuts
      refine ⟨rfl, growsTo_trimRuns _ fun piece member => ?_, fun piece member => ?_⟩
      · rw [inPlace piece member, cuts.2]
      · obtain ⟨before, inside, same⟩ := origin_of_mem_latestRuns_trimRuns member
        rw [← same]
        exact inPlace before inside
  · exact ⟨rfl, .refl _, inPlace⟩

/-- The waiting text is of no account for what is written. -/
theorem extends_compressStyle (options : Options) (name : Text) (inPlace : writer.RunsInPlace) :
    writer.Extends (writer.compressStyle options name) := by
  rw [compressStyle]
  split
  · split
    · exact ⟨rfl, .refl _, inPlace⟩
    · exact ⟨rfl, .refl _, inPlace⟩
  · exact ⟨rfl, .refl _, inPlace⟩

/-- A void element keeps no white space, so the elements around it decide. -/
theorem inPreformatted_of_isVoid {name : Text} (isVoid : Element.isVoid name = true)
    (outer : List Text) :
    (name :: outer).any Element.isPreformatted = outer.any Element.isPreformatted := by
  have table : ∀ name ∈ Element.voidNames, Element.isPreformatted name = false := by decide
  rw [List.any_cons, table name (List.contains_iff_mem.1 isVoid), Bool.false_or]

/-- Whatever event is taken, what is written grows, and its latest runs are in place. -/
theorem RunsInPlace.push {options : Options} {next : Writer} {event : Event}
    (inPlace : writer.RunsInPlace) (accepted : writer.push options event = .ok next) :
    GrowsTo writer.place.inPreformatted writer.traced next.traced ∧ next.RunsInPlace := by
  have kindless : ∀ {piece : Piece}, piece.isRun = false → ∀ verbatim, piece.origin =
      .run verbatim →
      verbatim = writer.place.inPreformatted := fun markup verbatim same =>
    absurd same (origin_of_markup markup verbatim)
  cases event with
  | documentStart => cases accepted
  | elementOpen name attributes =>
      rw [Writer.push] at accepted
      split at accepted
      · cases accepted
      · cases accepted
        have flushed := inPlace.extends_flush
        have ready := flushed.trans (flushed.inPlace.extends_trimBefore (Text.lower name))
        exact ⟨ready.grows.trans (growsTo_cons (kindless rfl) _), runsInPlace_of_markup rfl rfl⟩
  | elementClose name =>
      rw [Writer.push] at accepted
      split at accepted
      · cases accepted
      · next innermost outer isOpen =>
          split at accepted
          · next same =>
              cases accepted
              have compressed := extends_compressStyle options (Text.lower name) inPlace
              have flushed := compressed.trans compressed.inPlace.extends_flush
              have ready := flushed.trans (flushed.inPlace.extends_trimBefore (Text.lower name))
              rw [closeElement]
              cases isVoid : Element.isVoid (Text.lower name) with
              | true =>
                  refine ⟨ready.grows, fun piece member => ?_⟩
                  rw [ready.inPlace piece member]
                  have stack := ready.stack
                  rw [isOpen, same] at stack
                  show Origin.run (List.any _ Element.isPreformatted) =
                    .run (List.any (List.tail _) Element.isPreformatted)
                  rw [place, stack, List.tail_cons, inPreformatted_of_isVoid isVoid]
              | false =>
                  exact ⟨ready.grows.trans (growsTo_cons (kindless rfl) _),
                    runsInPlace_of_markup rfl rfl⟩
          · cases accepted
  | characters text | cdata text =>
      cases accepted
      exact ⟨.refl _, inPlace⟩
  | comment body =>
      cases accepted
      have flushed := inPlace.extends_flush
      rw [comment]
      split
      · exact ⟨flushed.grows.trans (growsTo_cons (kindless rfl) _), runsInPlace_of_markup rfl rfl⟩
      · exact ⟨flushed.grows, flushed.inPlace⟩

/-- A writer as it is once a document has been started. -/
structure InOrder (writer : Writer) : Prop where
  inPlace : writer.RunsInPlace
  begins : Piece.doctype.traced <+: writer.traced

theorem inOrder_start : start.InOrder := ⟨runsInPlace_of_markup rfl rfl, List.prefix_rfl⟩

theorem InOrder.push {options : Options} {next : Writer} {event : Event} (inOrder : writer.InOrder)
    (accepted : writer.push options event = .ok next) :
    GrowsTo writer.place.inPreformatted writer.traced next.traced ∧ next.InOrder := by
  obtain ⟨grows, inPlace⟩ := inOrder.inPlace.push accepted
  have bracket : Piece.doctype.traced = "<!doctype html".toList.map (·, Origin.markup) ++
      [('>', .markup)] :=
    rfl
  refine ⟨grows, inPlace, ?_⟩
  have begins := inOrder.begins
  rw [bracket] at begins ⊢
  exact grows.keeps (fun loose => nomatch loose.2) begins

/-- At the end no element is open, so that the document grows out of what is written as well. -/
theorem InOrder.finish {out : Text} (inOrder : writer.InOrder)
    (finished : writer.finish = .ok out) :
    ∃ last, GrowsTo writer.place.inPreformatted writer.traced last ∧ last.map Prod.fst = out := by
  have flushed := inOrder.inPlace.extends_flush
  rw [Writer.finish] at finished
  split at finished
  · next none =>
      cases finished
      have flowing : ∀ piece ∈ latestRuns writer.flush.pieces, piece.origin = .run false := by
        intro piece member
        rw [flushed.inPlace piece member, Place.inPreformatted, place, flushed.stack, none]
        rfl
      refine ⟨Canonical.traced (trimRuns writer.flush.pieces),
        flushed.grows.trans (growsTo_trimRuns _ flowing), ?_⟩
      have begins : Element.doctype <+: writer.flush.written := by
        rw [written_flush]
        refine List.IsPrefix.trans ?_ (List.prefix_append _ _)
        have characters := inOrder.begins.map Prod.fst
        rwa [traced, map_fst_traced] at characters
      rw [map_fst_traced, render_trimRuns, trim_of_doctype begins, written]
  · cases finished

end Writer

/-! ## Drafts -/

namespace Draft

/-- The text that is written so far. -/
def written : Draft → Text
  | some writer => writer.written
  | none => []

/-- The characters that are written so far, with their origins. -/
def traced : Draft → List (Char × Origin)
  | some writer => writer.traced
  | none => []

/-- Whether an element that keeps its white space is open. -/
def inPreformatted (draft : Draft) : Bool := draft.stack.any Element.isPreformatted

/-- Take events in order and pass over broken promises. -/
def attemptAll (options : Options) (draft : Draft) (events : List Event) : Draft :=
  events.foldl (attempt options) draft

@[simp]
theorem map_fst_traced (draft : Draft) : draft.traced.map Prod.fst = draft.written := by
  cases draft with
  | none => rfl
  | some writer => exact Canonical.map_fst_traced writer.pieces

/-- A draft as events leave it, whether they are taken or passed over. -/
def InOrder (draft : Draft) : Prop := ∀ writer, draft = some writer → writer.InOrder

variable (options : Options) {draft : Draft}

theorem inOrder_blank : blank.InOrder := by
  rintro writer ⟨⟩

/-- Whether it is taken or passed over, an event only makes the text grow. -/
theorem InOrder.attempt (inOrder : draft.InOrder) (event : Event) :
    GrowsTo draft.inPreformatted draft.traced (draft.attempt options event).traced ∧
      (draft.attempt options event).InOrder := by
  have passedOver : GrowsTo draft.inPreformatted draft.traced draft.traced ∧ draft.InOrder :=
    ⟨.refl _, inOrder⟩
  rw [Draft.attempt]
  split
  · next next accepted =>
      cases draft with
      | none =>
          rw [push] at accepted
          split at accepted
          · cases accepted
            refine ⟨growsTo_cons (fun verbatim same => absurd same (origin_of_markup rfl verbatim))
              [], ?_⟩
            rintro writer ⟨⟩
            exact Writer.inOrder_start
          · cases accepted
      | some writer =>
          rw [push] at accepted
          cases taken : writer.push options event with
          | error error =>
              rw [taken] at accepted
              cases accepted
          | ok after =>
              rw [taken] at accepted
              cases accepted
              obtain ⟨grows, still⟩ := (inOrder writer rfl).push taken
              refine ⟨grows, ?_⟩
              rintro other ⟨⟩
              exact still
  · exact passedOver

theorem InOrder.attemptAll (inOrder : draft.InOrder) (events : List Event) :
    (draft.attemptAll options events).InOrder := by
  induction events generalizing draft with
  | nil => exact inOrder
  | cons event later ih => exact ih (inOrder.attempt options event).2

/-- What ends with no loose character is there for good. -/
theorem InOrder.keeps (inOrder : draft.InOrder) {front : List (Char × Origin)}
    {last : Char × Origin}
    (firm : ¬ IsLoose last) (begins : front ++ [last] <+: draft.traced) (events : List Event) :
    front ++ [last] <+: (draft.attemptAll options events).traced := by
  induction events generalizing draft with
  | nil => exact begins
  | cons event later ih =>
      obtain ⟨grows, still⟩ := inOrder.attempt options event
      exact ih still (grows.keeps firm begins)

/-- The text that is left when blanks are cut off its end is there for good. -/
theorem InOrder.trimEnd_prefix (inOrder : draft.InOrder) {text : Text}
    (begins : Text.trimEnd text <+: draft.written) (events : List Event) :
    Text.trimEnd text <+: (draft.attemptAll options events).written := by
  induction events generalizing draft with
  | nil => exact begins
  | cons event later ih =>
      obtain ⟨grows, still⟩ := inOrder.attempt options event
      have kept := grows.trimEnd_prefix
      rw [map_fst_traced, map_fst_traced] at kept
      exact ih still ((Text.prefix_trimEnd (Text.endsBlank_trimEnd text) begins).trans kept)

theorem InOrder.finish {out : Text} (inOrder : draft.InOrder) (finished : draft.finish = .ok out) :
    ∃ last, GrowsTo draft.inPreformatted draft.traced last ∧ last.map Prod.fst = out := by
  cases draft with
  | none => cases finished
  | some writer => exact (inOrder writer rfl).finish finished

/-- Whatever events a draft was given and whether or not it took them, one more event only makes
its text grow, and so does the end of the document: loose characters may be cut off its end before
more is written, and the runs that are new are known by the elements that are open. So the text but
for the blanks at its end begins every later text and the finished document, and so does everything
up to the last character of a run that was written inside a preformatted element. -/
theorem trimming_confined (options : Options) (events : List Event) :
    let draft := blank.attemptAll options events
    draft.traced.map Prod.fst = draft.written ∧
      (∀ event, GrowsTo draft.inPreformatted draft.traced (draft.attempt options event).traced) ∧
      (∀ out, draft.finish = .ok out →
        ∃ last, GrowsTo draft.inPreformatted draft.traced last ∧ last.map Prod.fst = out) ∧
      ∀ later,
        let next := draft.attemptAll options later
        Text.trimEnd draft.written <+: next.written ∧
          (∀ out, next.finish = .ok out → Text.trimEnd draft.written <+: out) ∧
          ∀ front c, front ++ [(c, .run true)] <+: draft.traced →
            front ++ [(c, .run true)] <+: next.traced ∧
              ∀ out, next.finish = .ok out → front.map Prod.fst ++ [c] <+: out := by
  intro draft
  have inOrder : draft.InOrder := inOrder_blank.attemptAll options events
  refine ⟨map_fst_traced draft, fun event => (inOrder.attempt options event).1,
    fun out finished => inOrder.finish finished, fun later => ?_⟩
  intro next
  have inOrderNext : next.InOrder := inOrder.attemptAll options later
  have text : Text.trimEnd draft.written <+: next.written :=
    inOrder.trimEnd_prefix options (List.rdropWhile_prefix Text.isBlank _) later
  refine ⟨text, fun out finished => ?_, fun front c begins => ?_⟩
  · obtain ⟨last, grows, rfl⟩ := inOrderNext.finish finished
    have kept := grows.trimEnd_prefix
    rw [map_fst_traced] at kept
    exact (Text.prefix_trimEnd (Text.endsBlank_trimEnd _) text).trans kept
  · have firm : ¬ IsLoose (c, .run true) := fun loose => nomatch loose.2
    have stays := inOrder.keeps options firm begins later
    refine ⟨stays, fun out finished => ?_⟩
    obtain ⟨last, grows, rfl⟩ := inOrderNext.finish finished
    have characters := (grows.keeps firm stays).map Prod.fst
    rwa [List.map_append] at characters

/-- The blank in front of a paragraph is cut off, and the line end in front of it stays because it
was written inside a `pre`. -/
theorem trimming_confined_pre :
    let draft := blank.attemptAll {}
      [.documentStart, .elementOpen "pre".toList [], .characters "a\n".toList,
        .elementClose "pre".toList, .characters " b ".toList, .comment "c".toList]
    let next := draft.attemptAll {} [.elementOpen "p".toList [], .elementClose "p".toList]
    let out := "<!doctype html><pre>a\n</pre> b<p></p>".toList
    let front := "<!doctype html><pre>".toList.map (·, Origin.markup) ++ [('a', .run true)]
    (draft.written = "<!doctype html><pre>a\n</pre> b ".toList ∧ next.finish = .ok out ∧
        front ++ [('\n', .run true)] <+: draft.traced) ∧
      Text.trimEnd draft.written <+: out ∧ front ++ [('\n', .run true)] <+: next.traced ∧
      front.map Prod.fst ++ ['\n'] <+: out := by
  intro draft next out front
  have finished : next.finish = .ok out := by decide +kernel
  have begins : front ++ [('\n', .run true)] <+: draft.traced :=
    ⟨"</pre>".toList.map (·, .markup) ++ " b ".toList.map (·, .run false), by decide +kernel⟩
  obtain ⟨_, _, _, confined⟩ := trimming_confined {}
    [.documentStart, .elementOpen "pre".toList [], .characters "a\n".toList,
      .elementClose "pre".toList, .characters " b ".toList, .comment "c".toList]
  obtain ⟨_, text, characters⟩ := confined [.elementOpen "p".toList [], .elementClose "p".toList]
  obtain ⟨stays, inOut⟩ := characters front '\n' begins
  exact ⟨⟨by decide +kernel, finished, begins⟩, text out finished, stays, inOut out finished⟩

end Draft

end HtmlMinifier.Canonical

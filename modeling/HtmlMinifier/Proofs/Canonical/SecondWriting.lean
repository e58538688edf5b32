/-
# Documents are written again as they are

A writer that takes the events of a document shows the segments of the document one after the
other: each run fits where it waits, nothing is left to settle, and the attributes of every tag are
canonical.
-/
import HtmlMinifier.Proofs.Canonical.ReadBack

namespace HtmlMinifier.Canonical

variable {options : Options} {writer : Writer} {segments : List Segment} {place : Place}

/-- Nothing is left to settle in a run that waits alone and fits. -/
theorem runBefore_of_fits (shows : Shows writer segments [] place)
    (fits : place.Fits writer.pending) (name : Text)
    (settled : (Element.isBlock name && !place.inPreformatted) = true →
      Text.endsBlank writer.pending = false) : runBefore writer place name [] =
      writer.pending := by
  rw [runBefore, shows.place_eq, Place.behind_nil, fits, List.nil_append, settledRun]
  split
  · next cuts => exact Text.trimEnd_eq_self_iff.2 (settled cuts)
  · rfl

/-- Attributes that are read back have the names that were written. -/
theorem isAttributeName_of_mem_readBack {attributes : List (Text × Option Text)}
    (encoded : ∀ attr ∈ attributes, Token.IsEncodedAttribute attr) :
    ∀ attr ∈ readBack attributes, Token.IsAttributeName attr.1 := by
  intro attr member
  obtain ⟨written, inside, rfl⟩ := List.mem_map.1 member
  exact (encoded written inside).named

/-- A writer that takes the events of a laid mark behind a fitting run shows the two as a
segment. -/
theorem Shows.rewrite_mark (none : options.compressor = none)
    (shows : Shows writer segments [] place)
    (fits : place.Fits writer.pending) {mark : Mark}
    (settled : mark.cuts place = true → Text.endsBlank writer.pending = false)
    (admitted : mark.Admitted place) (isWritten : mark.IsWritten options.collapseEmptyAttributes) :
    Shows (writer.steps options mark.events)
        (segments ++ [⟨writer.pending, mark⟩]) [] (place.after mark) ∧
      (writer.steps options mark.events).pending = [] := by
  cases admitted with
  | @opening name attributes container stands encoded =>
      have tag := isWritten name attributes rfl
      have shown : Shows (writer.steps options (Mark.opening name attributes).events) _ _ _ :=
        shows.opened (readBack attributes) container stands (isAttributeName_of_mem_readBack
          encoded)
      rw [tag.canonical, runBefore_of_fits shows fits name settled] at shown
      exact ⟨shown, Writer.openElement_pending _ _ _ _⟩
  | @void name attributes named isVoid stands encoded =>
      have tag := isWritten name attributes rfl
      have shown := shows.void none (readBack attributes) named isVoid stands
        (isAttributeName_of_mem_readBack encoded)
      rw [tag.canonical, runBefore_of_fits shows fits name settled] at shown
      exact ⟨shown, Writer.closeElement_pending _ _ _⟩
  | @verbatim name attributes body named isVerbatim stands encoded avoids bodyFits =>
      have tag := isWritten name attributes rfl
      have shown := shows.verbatim none (readBack attributes) named isVerbatim stands
        (isAttributeName_of_mem_readBack encoded) avoids
      rw [tag.canonical, runBefore_of_fits shows fits name settled, bodyFits] at shown
      refine ⟨shown, ?_⟩
      rw [Mark.events, Writer.steps_cons, Writer.steps_append]
      exact Writer.closeElement_pending _ _ _
  | @closing name container current =>
      have shown := shows.closed none container current
      rw [runBefore_of_fits shows fits name settled] at shown
      exact ⟨shown, Writer.closeElement_pending _ _ _⟩
  | @comment body avoids conditional =>
      have shown := shows.keptComment options avoids conditional
      rw [shows.place_eq, Place.behind_nil, fits, List.nil_append] at shown
      exact ⟨shown, Writer.comment_pending _ _⟩

/-- A writer with nothing waiting that takes the events of laid segments shows them. -/
theorem Shows.rewrite (none : options.compressor = none)
    (shows : Shows writer segments [] place)
    (idle : writer.pending = []) {later : List Segment} {final : Place}
    (laid : Laid place later final)
    (isWritten : ∀ segment ∈ later, segment.mark.IsWritten options.collapseEmptyAttributes) :
    Shows (writer.steps options (later.flatMap Segment.events))
        (segments ++ later) [] final ∧
      (writer.steps options (later.flatMap Segment.events)).pending = [] := by
  induction laid generalizing writer segments with
  | nil =>
      rw [List.append_nil]
      exact ⟨shows, idle⟩
  | @cons place final segment later fits settled admitted _ ih =>
      have waits : (writer.characters segment.run).pending = segment.run := by
        rw [Writer.characters, idle, List.nil_append]
      have waiting := shows.characters segment.run
      rw [← waits] at fits settled
      obtain ⟨shown, again⟩ := waiting.rewrite_mark none fits settled admitted
        (isWritten segment List.mem_cons_self)
      rw [waits] at shown
      have whole := ih shown again fun other inside => isWritten other
        (List.mem_cons_of_mem segment inside)
      rw [List.append_assoc, List.singleton_append] at whole
      rw [List.flatMap_cons, Segment.events, List.append_assoc, Writer.steps_append,
        steps_characters,
        Writer.steps_append]
      exact whole

/-- The events of a document are written as the document. -/
theorem steps_documentEvents (none : options.compressor = none) {run : Text}
    (document : IsDocument options.collapseEmptyAttributes segments run) :
    Text.trim (Writer.start.steps options (documentEvents segments run)).flush.written =
      documentText segments run := by
  obtain ⟨tail, laid, fits⟩ := document.laid
  obtain ⟨shows, idle⟩ := shows_start.rewrite none rfl laid document.written
  have waits : ((Writer.start.steps options (segments.flatMap Segment.events)).characters
      run).pending =
      run := by
    rw [Writer.characters, idle, List.nil_append]
  have shown := (shows.characters run).flush
  rw [(shows.characters run).place_eq, waits, Place.behind_nil, fits, List.nil_append,
    List.nil_append] at shown
  have begins : Element.doctype <+: documentText segments run := by
    rw [documentText, List.append_assoc]
    exact List.prefix_append _ _
  rw [documentEvents, Writer.steps_append, steps_characters, shown.text, trim_of_doctype begins,
    trimEnd_documentText, Text.trimEnd_eq_self_iff.2 document.settled]

end HtmlMinifier.Canonical

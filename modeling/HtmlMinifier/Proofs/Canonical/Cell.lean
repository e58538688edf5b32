/-
# Documents as cells

Leaving out a tag brings together what stands before it and behind it, so for the last stage of
minifying it is the run behind a mark that belongs to it. A cell is a mark with the run behind it,
and a document is a first run and a list of cells.
-/
import HtmlMinifier.Proofs.Canonical.ReadBack

namespace HtmlMinifier.Canonical

open Token (IsTagName IsEncodedAttribute)

/-- A mark and the run of text behind it. -/
structure Cell where
  mark : Mark
  run : Text
  deriving DecidableEq, Repr

/-- The text of cells. -/
def renderCells (cells : List Cell) : Text :=
  cells.flatMap fun cell => cell.mark.render ++ cell.run

@[simp]
theorem renderCells_nil : renderCells [] = [] := rfl

@[simp]
theorem renderCells_cons (cell : Cell) (later : List Cell) :
    renderCells (cell :: later) = cell.mark.render ++ (cell.run ++ renderCells later) := by
  rw [renderCells, List.flatMap_cons, List.append_assoc, ← renderCells]

theorem renderCells_concat (earlier : List Cell) (cell : Cell) :
    renderCells (earlier ++ [cell]) = renderCells earlier ++ cell.mark.render ++ cell.run := by
  rw [renderCells, List.flatMap_append, List.flatMap_singleton, ← renderCells, List.append_assoc]

/-! ## Named marks -/

/-- A mark as a writer writes it. The body of a verbatim element and a comment may be any text. -/
inductive IsNamedMark : Mark → Prop
  | opening {name : Text} {attributes : List (Text × Option Text)} (named : IsTagName name)
      (noVerbatim : Element.isVerbatim name = false)
      (encoded : ∀ attr ∈ attributes, IsEncodedAttribute attr) :
      IsNamedMark (.opening name attributes)
  | void {name : Text} {attributes : List (Text × Option Text)} (named : IsTagName name)
      (isVoid : Element.isVoid name = true) (encoded : ∀ attr ∈ attributes,
        IsEncodedAttribute attr) :
      IsNamedMark (.void name attributes)
  | verbatim {name : Text} {attributes : List (Text × Option Text)} (body : Text)
      (named : IsTagName name) (isVerbatim : Element.isVerbatim name = true)
      (encoded : ∀ attr ∈ attributes, IsEncodedAttribute attr) :
      IsNamedMark (.verbatim name attributes body)
  | closing {name : Text} (named : IsTagName name) : IsNamedMark (.closing name)
  | comment (body : Text) : IsNamedMark (.comment body)

/-- What a writer writes at a place is named. -/
theorem Mark.Admitted.isNamed {place : Place} {mark : Mark} (admitted : mark.Admitted place) :
    IsNamedMark mark := by
  cases admitted with
  | opening container _ encoded => exact .opening container.named container.noVerbatim encoded
  | void named isVoid _ encoded => exact .void named isVoid encoded
  | verbatim named isVerbatim _ encoded _ _ => exact .verbatim _ named isVerbatim encoded
  | closing container _ => exact .closing container.named
  | comment _ _ => exact .comment _

/-- The start tag of a named mark has a name. -/
theorem IsNamedMark.isTagName {mark : Mark} (named : IsNamedMark mark) {name : Text}
    {attributes : List (Text × Option Text)}
    (same : mark.startTag? = some (name, attributes)) : IsTagName name := by
  cases named with
  | opening named | void named =>
      cases same
      exact named
  | verbatim body named =>
      cases same
      exact named
  | closing named | comment body => cases same

/-- A first run and cells as a writer writes them: the marks are named, and no run has a
bracket. -/
structure AreNamed (lead : Text) (cells : List Cell) : Prop where
  lead : ∀ c ∈ lead, c ≠ '<'
  marks : ∀ cell ∈ cells, IsNamedMark cell.mark
  runs : ∀ cell ∈ cells, ∀ c ∈ cell.run, c ≠ '<'

namespace AreNamed

variable {lead first run : Text} {cells : List Cell} {cell : Cell} {mark : Mark}

theorem nil (solid : ∀ c ∈ lead, c ≠ '<') : AreNamed lead [] :=
  ⟨solid, (fun _ none => nomatch none), (fun _ none => nomatch none)⟩

/-- Behind a cell its run is the first. -/
theorem tail (named : AreNamed lead (cell :: cells)) : AreNamed cell.run cells :=
  ⟨named.runs cell List.mem_cons_self,
    fun other inside => named.marks other (List.mem_cons_of_mem cell inside),
    fun other inside => named.runs other (List.mem_cons_of_mem cell inside)⟩

/-- A mark may stand in front of a run, behind another run. -/
theorem cons (named : AreNamed run cells) (isNamed : IsNamedMark mark)
    (solid : ∀ c ∈ first, c ≠ '<') :
    AreNamed first (⟨mark, run⟩ :: cells) where
  lead := solid
  marks := by
    rw [List.forall_mem_cons]
    exact ⟨isNamed, named.marks⟩
  runs := by
    rw [List.forall_mem_cons]
    exact ⟨named.lead, named.runs⟩

/-- The first run may go on from another one. -/
theorem append (named : AreNamed lead cells) (solid : ∀ c ∈ first, c ≠ '<') :
    AreNamed (first ++ lead) cells where
  lead := by
    intro c member
    rcases List.mem_append.1 member with front | back
    · exact solid c front
    · exact named.lead c back
  marks := named.marks
  runs := named.runs

end AreNamed

/-! ## Documents -/

/-- Laid segments are a run and cells that are named. -/
theorem exists_cells {place final : Place} {segments : List Segment}
    (laid : Laid place segments final)
    (contained : place.IsContained) {last : Text} (fits : final.Fits last) :
    ∃ lead cells, renderSegments segments ++ last = lead ++ renderCells cells ∧
    AreNamed lead cells ∧
      cells.map Cell.mark = segments.map Segment.mark := by
  induction laid with
  | nil =>
      refine ⟨last, [], ?_, .nil (fits.ne_bracket contained.markup), rfl⟩
      rw [renderSegments_nil, renderCells_nil, List.nil_append, List.append_nil]
  | @cons place final segment later runFits settled admitted laid ih =>
      obtain ⟨lead, cells, text, named, marks⟩ := ih (admitted.isContained contained) fits
      refine ⟨segment.run, ⟨segment.mark, lead⟩ :: cells, ?_,
        named.cons admitted.isNamed (runFits.ne_bracket contained.markup), ?_⟩
      · rw [renderSegments_cons, List.append_assoc, List.append_assoc, text, renderCells_cons]
      · rw [List.map_cons, List.map_cons, marks]

/-! ## Trimming -/

/-- A first run and cells without the blanks at the end of the last run. -/
def trimLast : Text → List Cell → Text × List Cell
  | lead, [] => (Text.trimEnd lead, [])
  | lead, cell :: cells =>
      let rest := trimLast cell.run cells
      (lead, ⟨cell.mark, rest.1⟩ :: rest.2)

/-- Behind a text that does not end with blanks, trimming shortens the last run. -/
theorem trimEnd_append_renderCells {front : Text} (trimmed : Text.trimEnd front = front)
    (lead : Text) (cells : List Cell) :
    Text.trimEnd (front ++ (lead ++ renderCells cells)) =
      front ++ ((trimLast lead cells).1 ++ renderCells (trimLast lead cells).2) := by
  induction cells generalizing front lead with
  | nil =>
      rw [renderCells_nil, List.append_nil, trimLast, renderCells_nil, List.append_nil,
        Text.trimEnd_append, trimmed]
      split
      · next vanishes => rw [vanishes, List.append_nil]
      · rfl
  | cons cell cells ih =>
      have further := ih (cell.mark.trimEnd_append_render (front ++ lead)) cell.run
      simp only [List.append_assoc] at further
      rw [renderCells_cons, further, trimLast, renderCells_cons]

theorem map_mark_trimLast (lead : Text) (cells : List Cell) :
    (trimLast lead cells).2.map Cell.mark = cells.map Cell.mark := by
  induction cells generalizing lead with
  | nil => rfl
  | cons cell cells ih => rw [trimLast, List.map_cons, ih, List.map_cons]

theorem areNamed_trimLast {lead : Text} {cells : List Cell} (named : AreNamed lead cells) :
    AreNamed (trimLast lead cells).1 (trimLast lead cells).2 := by
  induction cells generalizing lead with
  | nil =>
      refine .nil fun c inside => named.lead c ?_
      obtain ⟨blanks, parts, _⟩ := Text.exists_trimEnd_append lead
      rw [parts]
      exact List.mem_append_left _ inside
  | cons cell cells ih =>
      exact (ih named.tail).cons (named.marks cell List.mem_cons_self) named.lead

/-- Trimming shortens the last run. -/
theorem exists_cells_trimEnd {lead : Text} {cells : List Cell} (named : AreNamed lead cells) :
    ∃ lead' cells', Text.trimEnd (Element.doctype ++ (lead ++ renderCells cells)) =
        Element.doctype ++ (lead' ++ renderCells cells') ∧ AreNamed lead' cells' ∧
      cells'.map Cell.mark = cells.map Cell.mark :=
  ⟨_, _, trimEnd_append_renderCells rfl lead cells, areNamed_trimLast named,
    map_mark_trimLast lead cells⟩

end HtmlMinifier.Canonical

/-
# Cells that are laid and read

A document as a writer lays it can be cut into cells as well as into segments, and what is laid
cell by cell is a document again. Its tokens are those of its marks and of the runs behind them,
also when some cells are missing, because every mark is read by itself.
-/
import HtmlMinifier.Proofs.Canonical.Cell
import HtmlMinifier.Proofs.Event.Omission
import HtmlMinifier.Proofs.Event.Reading

namespace HtmlMinifier.Canonical

open Event (Explicit feed_of_stands tokenStrokes letterTokens tokensOf)
open Token (Opening tokenize_of_readConstruct)

/-! ## Laid cells -/

/-- A first run and cells as a writer lays them from a place on, up to where no element is open. -/
inductive LaidCells : Place → Text → List Cell → Prop
  | last {place : Place} {run : Text} (closed : place.ancestors = []) (fits : place.Fits run) :
      LaidCells place run []
  | cons {place : Place} {lead : Text} {cell : Cell} {later : List Cell} (fits : place.Fits lead)
      (settled : cell.mark.cuts place = true → Text.endsBlank lead = false)
      (admitted : cell.mark.Admitted place) :
      LaidCells (place.after cell.mark) cell.run later → LaidCells place lead (cell :: later)

/-- The run that a document ends with. -/
def lastRun (lead : Text) (cells : List Cell) : Text := (cells.getLast?.map Cell.run).getD lead

theorem lastRun_cons (lead : Text) (cell : Cell) (later : List Cell) :
    lastRun lead (cell :: later) = lastRun cell.run later := by
  cases later with
  | nil => rfl
  | cons other later =>
      rw [lastRun, lastRun, List.getLast?_cons_cons]
      cases last : (other :: later).getLast? with
      | none => exact absurd (List.getLast?_eq_none_iff.1 last) (List.cons_ne_nil other later)
      | some cell => rfl

/-- Laid segments are laid cells. -/
theorem Laid.exists_cells {place final : Place} {segments : List Segment}
    (laid : Laid place segments final) (closed : final.ancestors = []) {run : Text}
    (fits : final.Fits run) :
    ∃ lead cells, renderSegments segments ++ run = lead ++ renderCells cells ∧
      LaidCells place lead cells ∧ lastRun lead cells = run ∧
        cells.map Cell.mark = segments.map Segment.mark := by
  induction laid with
  | nil => exact ⟨run, [], by simp, .last closed fits, rfl, rfl⟩
  | @cons place final segment later runFits settled admitted _ ih =>
      obtain ⟨lead, cells, text, laidLater, last, marks⟩ := ih closed fits
      refine ⟨segment.run, ⟨segment.mark, lead⟩ :: cells, ?_, .cons runFits settled admitted
        laidLater, ?_, ?_⟩
      · rw [renderSegments_cons, List.append_assoc, List.append_assoc, text, renderCells_cons]
      · rw [lastRun_cons, last]
      · rw [List.map_cons, List.map_cons, marks]

/-- A document is laid cells. -/
theorem IsDocument.exists_cells {collapseEmpty : Bool} {segments : List Segment} {run : Text}
    (document : IsDocument collapseEmpty segments run) :
    ∃ lead cells, documentText segments run = Element.doctype ++ (lead ++ renderCells cells) ∧
      LaidCells Place.start lead cells ∧ lastRun lead cells = run ∧
      ∀ cell ∈ cells, ∃ segment ∈ segments, segment.mark = cell.mark := by
  obtain ⟨tail, laid, fits⟩ := document.laid
  obtain ⟨lead, cells, text, laidCells, last, marks⟩ := laid.exists_cells rfl fits
  refine ⟨lead, cells, ?_, laidCells, last, fun cell member => ?_⟩
  · rw [documentText, List.append_assoc, text]
  · have inMarks : cell.mark ∈ segments.map Segment.mark := by
      rw [← marks]
      exact List.mem_map_of_mem member
    exact List.mem_map.1 inMarks

/-- Laid cells are named. -/
theorem LaidCells.areNamed {place : Place} {lead : Text} {cells : List Cell}
    (laid : LaidCells place lead cells) (contained : place.IsContained) : AreNamed lead cells := by
  induction laid with
  | last closed fits => exact .nil (fits.ne_bracket contained.markup)
  | cons fits settled admitted _ ih =>
      exact (ih (admitted.isContained contained)).cons admitted.isNamed
        (fits.ne_bracket contained.markup)

/-- The end tags of laid cells are none of void elements. -/
theorem LaidCells.noVoid {place : Place} {lead : Text} {cells : List Cell}
    (laid : LaidCells place lead cells) :
    ∀ cell ∈ cells, ∀ name, cell.mark = .closing name → Element.isVoid name = false := by
  induction laid with
  | last closed fits => exact List.forall_mem_nil _
  | @cons place lead cell later fits settled admitted _ ih =>
      refine List.forall_mem_cons.2 ⟨fun name same => ?_, ih⟩
      rw [same] at admitted
      cases admitted with
      | closing container current => exact container.noVoid

/-! ## Tokens of cells -/

/-- A mark that is read as its tokens, whatever stands behind it. -/
def Mark.IsRead (mark : Mark) : Prop :=
  ∀ rest, Token.readConstruct (mark.render ++ rest) = (mark.tokens, rest)

/-- The tokens of a cell. -/
def Cell.tokens (cell : Cell) : List Token := cell.mark.tokens ++ runTokens cell.run

/-- The tokens of a cell with every character by itself, blanks left out. -/
def Cell.strokes (cell : Cell) : List Token :=
  cell.mark.tokens.flatMap tokenStrokes ++ letterTokens cell.run

/-- What begins with a mark that is read opens a construct. -/
theorem Mark.IsRead.opening_isSome {mark : Mark} (isRead : mark.IsRead) (rest : Text) :
    (Opening.of? (mark.render ++ rest)).isSome = true := by
  cases opens : Opening.of? (mark.render ++ rest) with
  | some opening => rfl
  | none =>
      exfalso
      have read := isRead rest
      rw [Token.readConstruct, opens] at read
      have tokens := congrArg Prod.fst read
      cases mark with
      | verbatim name attributes body => cases body <;> cases tokens
      | opening name attributes | void name attributes | closing name | comment body =>
          cases tokens

/-- Laid cells whose tags are written are read mark by mark. -/
theorem LaidCells.isRead {collapseEmpty : Bool} {place : Place} {lead : Text} {cells : List Cell}
    (laid : LaidCells place lead cells)
    (written : ∀ cell ∈ cells, cell.mark.IsWritten collapseEmpty) :
    ∀ cell ∈ cells, cell.mark.IsRead := by
  induction laid with
  | last closed fits => exact List.forall_mem_nil _
  | cons fits settled admitted _ ih =>
      rw [List.forall_mem_cons] at written ⊢
      exact ⟨readConstruct_render admitted written.1, ih written.2⟩

/-- Cells are read as their tokens. -/
theorem tokenize_cells {lead : Text} {cells : List Cell} (named : AreNamed lead cells)
    (isRead : ∀ cell ∈ cells, cell.mark.IsRead) :
    Token.tokenize (lead ++ renderCells cells) = runTokens lead ++ cells.flatMap Cell.tokens := by
  induction cells generalizing lead with
  | nil =>
      have whole := tokenize_run_append named.lead (.inl (rfl : ([] : Text) = []))
      rw [renderCells_nil, whole, Token.tokenize, List.flatMap_nil]
  | cons cell cells ih =>
      obtain ⟨first, others⟩ := List.forall_mem_cons.1 isRead
      have opens := first.opening_isSome (cell.run ++ renderCells cells)
      have read := tokenize_of_readConstruct
        (List.append_ne_nil_of_left_ne_nil cell.mark.render_ne_nil _)
        (first (cell.run ++ renderCells cells))
      rw [renderCells_cons, tokenize_run_append named.lead (.inr opens), read,
        ih named.tail others, List.flatMap_cons, Cell.tokens]
      simp only [List.append_assoc]

/-- The tokens of a mark that is admitted say themselves what they open and close. -/
theorem Mark.Admitted.explicit {place : Place} {mark : Mark} (admitted : mark.Admitted place)
    {later : List Token} (explicit : Explicit (place.after mark).ancestors later) :
    Explicit place.ancestors (mark.tokens ++ later) := by
  cases admitted with
  | @opening name attributes container stands _ =>
      have stays : Event.closedAtOnce name false place.ancestors = false := by
        rw [Event.closedAtOnce, container.noVoid]
        rfl
      refine ⟨stands, ?_⟩
      rw [feed_of_stands stands, stays, if_neg Bool.false_ne_true]
      exact explicit
  | @void name attributes named isVoid stands _ =>
      have closes : Event.closedAtOnce name true place.ancestors = true := by
        rw [Event.closedAtOnce, isVoid]
        rfl
      refine ⟨stands, ?_⟩
      rw [feed_of_stands stands, closes, if_pos rfl]
      exact explicit
  | @verbatim name attributes body named isVerbatim stands _ avoids fits =>
      have stays : Event.closedAtOnce name false place.ancestors = false := by
        rw [Event.closedAtOnce, Token.isVoid_of_isVerbatim isVerbatim]
        rfl
      have isText : ∀ token ∈ runTokens body, ∃ inside, token = .text inside := by
        intro token member
        rw [runTokens] at member
        split at member
        · cases member
        · exact ⟨body, List.mem_singleton.1 member⟩
      rw [Mark.tokens, List.cons_append, List.append_assoc]
      refine ⟨stands, ?_⟩
      rw [feed_of_stands stands, stays, if_neg Bool.false_ne_true]
      refine Event.explicit_texts_append isText ⟨rfl, ?_⟩
      rw [Event.feed, Event.closeTag_innermost]
      exact explicit
  | @closing name container current =>
      obtain ⟨outer, around⟩ := List.head?_eq_some_iff.1 current
      refine ⟨current, ?_⟩
      rw [Place.after, around] at explicit
      rw [around, Event.feed, Event.closeTag_innermost]
      exact explicit
  | comment avoids conditional => exact ⟨trivial, explicit⟩

/-- The tokens of laid cells say themselves what they open and close. -/
theorem LaidCells.explicit {place : Place} {lead : Text} {cells : List Cell}
    (laid : LaidCells place lead cells) :
    Explicit place.ancestors (cells.flatMap Cell.tokens) := by
  induction laid with
  | last closed fits => trivial
  | @cons place lead cell later fits settled admitted _ ih =>
      have isText : ∀ token ∈ runTokens cell.run, ∃ body, token = .text body := by
        intro token member
        rw [runTokens] at member
        split at member
        · cases member
        · exact ⟨cell.run, List.mem_singleton.1 member⟩
      rw [List.flatMap_cons, Cell.tokens, List.append_assoc]
      exact admitted.explicit (Event.explicit_texts_append isText ih)

/-- The strokes of a run are its letters. -/
theorem flatMap_tokenStrokes_runTokens (run : Text) :
    (runTokens run).flatMap tokenStrokes = letterTokens run := by
  by_cases none : run = []
  · rw [runTokens, if_pos none, none]
    rfl
  · rw [runTokens, if_neg none, List.flatMap_singleton, tokenStrokes]

theorem Cell.flatMap_tokenStrokes (cell : Cell) :
    cell.tokens.flatMap tokenStrokes = cell.strokes := by
  rw [Cell.tokens, List.flatMap_append, flatMap_tokenStrokes_runTokens, Cell.strokes]

/-- Cells behind the document type, blanks aside. -/
theorem tokensOf_cells {lead : Text} {cells : List Cell} (named : AreNamed lead cells)
    (isRead : ∀ cell ∈ cells, cell.mark.IsRead) :
    tokensOf (Element.doctype ++ (lead ++ renderCells cells)) =
      .doctype "doctype html".toList :: (letterTokens lead ++ cells.flatMap Cell.strokes) := by
  rw [tokensOf, tokenize_doctype, tokenize_cells named isRead, List.flatMap_cons,
    List.flatMap_append, flatMap_tokenStrokes_runTokens, List.flatMap_assoc]
  simp only [Cell.flatMap_tokenStrokes]
  rfl

/-- Blanks at the end of a document are not seen. -/
theorem strokes_trimLast (lead : Text) (cells : List Cell) :
    letterTokens (trimLast lead cells).1 ++ (trimLast lead cells).2.flatMap Cell.strokes =
      letterTokens lead ++ cells.flatMap Cell.strokes := by
  induction cells generalizing lead with
  | nil =>
      obtain ⟨blanks, parts, none⟩ := Text.exists_trimEnd_append lead
      have unseen : letterTokens blanks = [] := by
        rw [letterTokens, List.map_eq_nil_iff, Event.solid, List.filter_eq_nil_iff]
        intro c inside
        simp [none c inside]
      conv_rhs => rw [parts, Event.letterTokens_append, unseen, List.append_nil]
      rfl
  | cons cell cells ih =>
      rw [trimLast, List.flatMap_cons, Cell.strokes, List.append_assoc, ih, List.flatMap_cons,
        Cell.strokes, List.append_assoc]

end HtmlMinifier.Canonical

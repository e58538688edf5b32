/-
# What a writer has written

The pieces of a writer matter only through the text they make up. These lemmas say, for each thing
a writer does, what becomes of that text and of the three other parts of the writer. Every piece
but a run of text ends with a bracket, so cutting blanks off the pieces is cutting them off the
text.
-/
import HtmlMinifier.Canonical.Writer
import HtmlMinifier.Proofs.Text.Blanks

namespace HtmlMinifier.Canonical

@[simp]
theorem render_nil : render [] = [] := rfl

/-- The latest piece stands at the end of the text. -/
@[simp]
theorem render_cons (piece : Piece) (pieces : List Piece) :
    render (piece :: pieces) = render pieces ++ piece.render := by
  rw [render, render, List.reverse_cons, List.flatMap_append, List.flatMap_singleton]

/-- A piece that is no run of text ends with a bracket. -/
theorem trimEnd_append_render (piece : Piece) (noRun : ∀ verbatim text, piece ≠ .run verbatim text)
    (earlier : Text) : Text.trimEnd (earlier ++ piece.render) = earlier ++ piece.render := by
  have bracket : Text.isBlank '>' = false := rfl
  cases piece with
  | doctype =>
      rw [Text.trimEnd_append]
      rfl
  | startTag name attributes =>
      rw [Piece.render, ← List.append_assoc, Text.trimEnd_concat_of_not_blank bracket]
  | endTag name =>
      rw [Piece.render, ← List.append_assoc, Text.trimEnd_concat_of_not_blank bracket]
  | comment body =>
      rw [Piece.render, show "-->".toList = "--".toList ++ ['>'] from rfl, ← List.append_assoc,
        ← List.append_assoc, Text.trimEnd_concat_of_not_blank bracket]
  | run verbatim text => exact absurd rfl (noRun verbatim text)

/-- Cutting the blanks off the end of the pieces is cutting them off the end of the text. -/
@[simp]
theorem render_trimRuns (pieces : List Piece) :
    render (trimRuns pieces) = Text.trimEnd (render pieces) := by
  induction pieces with
  | nil => rfl
  | cons piece pieces ih =>
      cases piece with
      | run verbatim text =>
          rw [trimRuns, render_cons, Piece.render, Text.trimEnd_append]
          by_cases vanishes : Text.trimEnd text = []
          · rw [if_pos vanishes, if_pos vanishes, ih]
          · rw [if_neg vanishes, if_neg vanishes, render_cons, Piece.render]
      | doctype | startTag name attributes | endTag name | comment body =>
          rw [trimRuns, render_cons, trimEnd_append_render _ (by simp)]
          simp

/-- There is nothing to write for no text at all. -/
@[simp]
theorem Place.normalize_nil (place : Place) : place.normalize [] = [] := by
  have none : Reference.normalize [] = [] := by
    rw [Reference.normalize, Reference.decode]
    rfl
  simp only [Place.normalize, none, collapse, ite_self]

/-- What the document ends with once a run of text is written behind it. -/
def Tail.behind (tail : Tail) (run : Text) : Tail :=
  if run = [] then tail else .text (Text.endsBlank run)

@[simp]
theorem Tail.behind_nil (tail : Tail) : tail.behind [] = tail := rfl

theorem Tail.behind_append (tail : Tail) (first second : Text) :
    tail.behind (first ++ second) = (tail.behind first).behind second := by
  by_cases none : second = []
  · rw [none, List.append_nil, behind_nil]
  · have some : first ++ second ≠ [] := by simp [none]
    rw [behind, behind, if_neg none, if_neg some, Text.endsBlank_append none]

namespace Writer

/-! ## Waiting text -/

@[simp]
theorem flush_stack (writer : Writer) : writer.flush.stack = writer.stack := by
  simp only [flush]
  split
  · rfl
  · split <;> rfl

@[simp]
theorem flush_pending (writer : Writer) : writer.flush.pending = [] := by
  simp only [flush]
  split
  · assumption
  · split <;> rfl

@[simp]
theorem flush_tail (writer : Writer) :
    writer.flush.tail = writer.tail.behind (writer.place.normalize writer.pending) := by
  simp only [flush, Tail.behind]
  split
  · next none => rw [none, Place.normalize_nil, if_pos rfl]
  · split <;> rfl

@[simp]
theorem written_flush (writer : Writer) :
    writer.flush.written = writer.written ++ writer.place.normalize writer.pending := by
  simp only [flush]
  split
  · next none => rw [none, Place.normalize_nil, List.append_nil]
  · split
    · next vanishes => rw [vanishes, List.append_nil, written, written]
    · rw [written, render_cons, Piece.render, written]

/-! ## Blanks in front of a block -/

/-- Whether the blanks in front of the tag of `name` are cut off. -/
def cutsBefore (name : Text) (writer : Writer) : Bool :=
  Element.isBlock name && !writer.place.inPreformatted

@[simp]
theorem trimBefore_stack (name : Text) (writer : Writer) :
    (writer.trimBefore name).stack = writer.stack := by
  rw [trimBefore]
  split <;> rfl

@[simp]
theorem trimBefore_pending (name : Text) (writer : Writer) :
    (writer.trimBefore name).pending = writer.pending := by
  rw [trimBefore]
  split <;> rfl

@[simp]
theorem trimBefore_tail (name : Text) (writer : Writer) :
    (writer.trimBefore name).tail = writer.tail := by
  rw [trimBefore]
  split <;> rfl

@[simp]
theorem written_trimBefore (name : Text) (writer : Writer) :
    (writer.trimBefore name).written =
      if writer.cutsBefore name then Text.trimEnd writer.written else writer.written := by
  rw [trimBefore, ← cutsBefore]
  split
  · rw [written, render_trimRuns, written]
  · rfl

/-! ## Compressed style text -/

@[simp]
theorem compressStyle_stack (options : Options) (name : Text) (writer : Writer) :
    (writer.compressStyle options name).stack = writer.stack := by
  rw [compressStyle]
  split
  · split <;> rfl
  · rfl

@[simp]
theorem compressStyle_written (options : Options) (name : Text) (writer : Writer) :
    (writer.compressStyle options name).written = writer.written := by
  rw [compressStyle]
  split
  · split <;> rfl
  · rfl

/-- Without a compressor style text is text like any other. -/
theorem compressStyle_eq_self {options : Options} (none : options.compressor = none) (name : Text)
    (writer : Writer) : writer.compressStyle options name = writer := by
  rw [compressStyle, none]

/-! ## Events -/

section
variable (options : Options) (name : Text) (attributes : List (Text × Text)) (writer : Writer)

@[simp]
theorem openElement_stack :
    (writer.openElement options name attributes).stack = name :: writer.stack := by
  rw [openElement, trimBefore_stack, flush_stack]

@[simp]
theorem openElement_tail : (writer.openElement options name attributes).tail = .startTag name :=
  rfl

@[simp]
theorem openElement_pending : (writer.openElement options name attributes).pending = [] := by
  rw [openElement, trimBefore_pending, flush_pending]

theorem written_openElement :
    (writer.openElement options name attributes).written =
      (writer.flush.trimBefore name).written ++
        (Piece.startTag name
          (canonicalAttributes options.collapseEmptyAttributes name attributes)).render := by
  rw [written, openElement, render_cons, written]

@[simp]
theorem closeElement_stack : (writer.closeElement options name).stack = writer.stack.tail := by
  rw [closeElement, trimBefore_stack, flush_stack, compressStyle_stack]

@[simp]
theorem closeElement_tail : (writer.closeElement options name).tail = .endTag name := rfl

@[simp]
theorem closeElement_pending : (writer.closeElement options name).pending = [] := by
  rw [closeElement, trimBefore_pending, flush_pending]

theorem written_closeElement :
    (writer.closeElement options name).written =
      ((writer.compressStyle options name).flush.trimBefore name).written ++
        if Element.isVoid name then [] else (Piece.endTag name).render := by
  simp only [written, closeElement]
  split
  · rw [List.append_nil]
  · rw [render_cons]

@[simp]
theorem comment_stack (body : Text) : (writer.comment body).stack = writer.stack := by
  simp only [comment]
  split <;> exact flush_stack writer

@[simp]
theorem comment_pending (body : Text) : (writer.comment body).pending = [] := by
  simp only [comment]
  split <;> exact flush_pending writer

/-- A comment that is dropped only lets the waiting text be written. -/
theorem comment_of_dropped {body : Text} (dropped : isConditional body = false) :
    writer.comment body = writer.flush := by
  simp only [comment, dropped, if_neg Bool.false_ne_true]

theorem written_comment (body : Text) :
    (writer.comment body).written =
      writer.flush.written ++ if isConditional body then (Piece.comment body).render else [] := by
  simp only [comment]
  split
  · rw [written, render_cons, written]
  · rw [List.append_nil]

end

@[simp]
theorem characters_stack (text : Text) (writer : Writer) :
    (writer.characters text).stack = writer.stack := rfl

@[simp]
theorem written_characters (text : Text) (writer : Writer) :
    (writer.characters text).written = writer.written := rfl

end Writer

end HtmlMinifier.Canonical

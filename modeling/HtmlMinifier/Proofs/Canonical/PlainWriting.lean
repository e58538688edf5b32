/-
# Writing documents without raw text and comments

As long as no element with raw text is opened and no comment is kept, a writer writes plain pieces:
tags, and runs of text without brackets. No more is asked of the stream than that it is balanced,
so a self-closing tag or a value that ends with a slash may occur in it.
-/
import HtmlMinifier.Proofs.Canonical.PlainPiece

namespace HtmlMinifier.Canonical

open Event (Balanced OpenElements)
open Token (IsTagName IsAttributeName)

/-- An element whose text is markup. -/
structure IsMarkupName (name : Text) : Prop where
  named : IsTagName name
  noRawText : Element.isRawText name = false

/-- An event that opens no element with raw text and is no comment to be kept. -/
def IsPlainEvent : Event → Prop
  | .elementOpen name attributes =>
      IsMarkupName name ∧ ∀ attr ∈ attributes, IsAttributeName attr.1
  | .comment body => isConditional body = false
  | _ => True

/-- A writer of plain pieces, with these elements open. -/
structure Writer.IsPlain (writer : Writer) (stack : OpenElements) : Prop where
  pieces : ∀ piece ∈ writer.pieces, piece.IsPlain
  around : writer.stack = stack
  markup : ∀ name ∈ stack, IsMarkupName name

/-- Trimming shortens runs and leaves the other pieces alone. -/
theorem isPlain_of_mem_trimRuns {pieces : List Piece} (plain : ∀ piece ∈ pieces, piece.IsPlain) :
    ∀ piece ∈ trimRuns pieces, piece.IsPlain := by
  induction pieces with
  | nil => exact plain
  | cons first pieces ih =>
      have later : ∀ piece ∈ pieces, piece.IsPlain := fun piece member =>
        plain piece (List.mem_cons_of_mem first member)
      cases first with
      | doctype | startTag name attributes | endTag name | comment body => exact plain
      | run verbatim text =>
          rw [trimRuns]
          split
          · exact ih later
          · intro piece member
            rcases List.mem_cons.1 member with rfl | further
            · cases plain _ List.mem_cons_self with
              | run solid =>
                  obtain ⟨blanks, parts, _⟩ := Text.exists_trimEnd_append text
                  refine .run fun c inside => solid c ?_
                  rw [parts]
                  exact List.mem_append_left blanks inside
            · exact later piece further

namespace Writer.IsPlain

variable {writer : Writer} {stack : OpenElements}

/-- Waiting text is written without brackets. -/
theorem flush (plain : writer.IsPlain stack) : writer.flush.IsPlain stack where
  pieces := by
    have markup : writer.place.inRawText = false := by
      apply Place.inRawText_of_markup
      rw [Writer.place, plain.around]
      exact fun name member => (plain.markup name member).noRawText
    have solid := (Place.fits_normalize writer.place writer.pending).ne_bracket markup
    simp only [Writer.flush]
    split
    · exact plain.pieces
    · split
      · exact plain.pieces
      · intro piece member
        rcases List.mem_cons.1 member with rfl | earlier
        · exact .run solid
        · exact plain.pieces piece earlier
  around := by rw [flush_stack, plain.around]
  markup := plain.markup

theorem trimBefore (plain : writer.IsPlain stack) (name : Text) :
    (writer.trimBefore name).IsPlain stack where
  pieces := by
    rw [Writer.trimBefore]
    split
    · exact isPlain_of_mem_trimRuns plain.pieces
    · exact plain.pieces
  around := by rw [trimBefore_stack, plain.around]
  markup := plain.markup

theorem openElement (plain : writer.IsPlain stack) (options : Options) {name : Text}
    (markup : IsMarkupName name) {attributes : List (Text × Text)}
    (named : ∀ attr ∈ attributes, IsAttributeName attr.1) :
    (writer.openElement options name attributes).IsPlain (name :: stack) where
  pieces := by
    intro piece member
    rcases List.mem_cons.1 member with rfl | earlier
    · exact .startTag markup.named (isEncodedAttribute_canonicalAttributes named)
    · exact (plain.flush.trimBefore name).pieces piece earlier
  around := by rw [openElement_stack, plain.around]
  markup := by
    intro other member
    rcases List.mem_cons.1 member with rfl | outer
    · exact markup
    · exact plain.markup other outer

theorem closeElement {name : Text} (plain : writer.IsPlain (name :: stack)) (options : Options) :
    (writer.closeElement options name).IsPlain stack where
  pieces := by
    have markup := plain.markup name List.mem_cons_self
    have noStyle : name ≠ "style".toList := by
      rintro rfl
      exact absurd markup.noRawText (by decide)
    have unasked : writer.styleText? name = none := by
      rw [styleText?, decide_eq_false noStyle, Bool.false_and, if_neg Bool.false_ne_true]
    have same : writer.compressStyle options name = writer := by
      rw [compressStyle, unasked]
      cases options.compressor <;> rfl
    have ready := (plain.flush.trimBefore name).pieces
    simp only [Writer.closeElement, same]
    split
    · exact ready
    · intro piece member
      rcases List.mem_cons.1 member with rfl | earlier
      · exact .endTag markup.named
      · exact ready piece earlier
  around := by rw [closeElement_stack, plain.around, List.tail_cons]
  markup := fun other member => plain.markup other (List.mem_cons_of_mem name member)

/-- A balanced stream of plain events is written in plain pieces. -/
theorem steps (options : Options) {events : List Event} (balanced : Balanced stack events)
    (plainEvents : ∀ event ∈ events, IsPlainEvent event) (plain : writer.IsPlain stack) :
    (writer.steps options events).IsPlain [] := by
  induction balanced generalizing writer with
  | done => exact plain
  | @opened stack name attributes later named _ ih =>
      obtain ⟨markup, attributeNames⟩ := plainEvents _ List.mem_cons_self
      refine ih (fun event member => plainEvents event (List.mem_cons_of_mem _ member)) ?_
      rw [step, markup.named.lower]
      exact plain.openElement options markup attributeNames
  | @closed stack name later _ ih =>
      refine ih (fun event member => plainEvents event (List.mem_cons_of_mem _ member)) ?_
      rw [step, (plain.markup name List.mem_cons_self).named.lower]
      exact plain.closeElement options
  | characters _ ih | cdata _ ih =>
      exact ih (fun event member => plainEvents event (List.mem_cons_of_mem _ member))
        ⟨plain.pieces, plain.around, plain.markup⟩
  | @comment stack body later _ ih =>
      have dropped : isConditional body = false := plainEvents _ List.mem_cons_self
      refine ih (fun event member => plainEvents event (List.mem_cons_of_mem _ member)) ?_
      rw [step, comment_of_dropped writer dropped]
      exact plain.flush

end Writer.IsPlain

/-- The text of pieces that are listed latest first. -/
theorem render_eq_textOf (pieces : List Piece) : render pieces = textOf pieces.reverse := rfl

/-- A balanced stream of plain events is serialized as the text of plain pieces. -/
theorem exists_plain_of_balanced (options : Options) {events : List Event}
    (balanced : Balanced [] events) (plain : ∀ event ∈ events, IsPlainEvent event) :
    ∃ pieces, (∀ piece ∈ pieces, piece.IsPlain) ∧
      serialize options (.documentStart :: events) = .ok (textOf pieces) := by
  have start : Writer.start.IsPlain [] :=
    ⟨fun piece member => by rw [List.mem_singleton.1 member]; exact .doctype, rfl,
      fun _ member => nomatch member⟩
  have final := (start.steps options balanced plain).flush.pieces
  refine ⟨(trimRuns (Writer.start.steps options events).flush.pieces).reverse,
    fun piece member => isPlain_of_mem_trimRuns final piece (List.mem_reverse.1 member), ?_⟩
  have begins : Element.doctype <+: (Writer.start.steps options events).flush.written := by
    have solid : Text.endsBlank Element.doctype = false := by decide
    rw [Writer.written_flush]
    exact (Writer.prefix_written_steps options solid List.prefix_rfl events).trans
      (List.prefix_append _ _)
  rw [serialize_of_balanced options balanced, trim_of_doctype begins, Writer.written,
    ← render_trimRuns, render_eq_textOf]

end HtmlMinifier.Canonical

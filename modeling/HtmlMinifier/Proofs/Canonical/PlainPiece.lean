/-
# Plain pieces

A document without comments and raw text is written as start tags, end tags and runs of text, and
a bracket only stands where a tag begins.
-/
import HtmlMinifier.Proofs.Canonical.Characters

namespace HtmlMinifier.Canonical

open Token (IsTagName IsEncodedAttribute)

/-- The pieces of a document without comments and raw text. -/
inductive Piece.IsPlain : Piece → Prop
  | doctype : IsPlain .doctype
  | startTag {name : Text} {attributes : List (Text × Option Text)} (named : IsTagName name)
      (encoded : ∀ attr ∈ attributes, IsEncodedAttribute attr) :
        IsPlain (.startTag name attributes)
  | endTag {name : Text} (named : IsTagName name) : IsPlain (.endTag name)
  | run {verbatim : Bool} {text : Text} (solid : ∀ c ∈ text, c ≠ '<') :
    IsPlain (.run verbatim text)

/-- The text of pieces that are listed in their order. -/
def textOf (pieces : List Piece) : Text := pieces.flatMap Piece.render

@[simp]
theorem textOf_nil : textOf [] = [] := rfl

@[simp]
theorem textOf_cons (piece : Piece) (later : List Piece) :
    textOf (piece :: later) = piece.render ++ textOf later := List.flatMap_cons

/-- A piece that is no run begins with a bracket and has no further one. -/
theorem Piece.IsPlain.exists_render {piece : Piece} (plain : piece.IsPlain)
    (noRun : ∀ verbatim text, piece ≠ .run verbatim text) :
    ∃ inside, piece.render = '<' :: inside ∧ ∀ c ∈ inside, c ≠ '<' := by
  cases plain with
  | doctype => exact ⟨"!doctype html>".toList, rfl, by simp⟩
  | @startTag name attributes named encoded =>
      refine ⟨name ++ attributes.flatMap renderAttribute ++ ['>'], by simp [render], ?_⟩
      intro c inside
      rcases List.mem_append.1 inside with front | last
      · rcases List.mem_append.1 front with inName | inAttributes
        · exact Token.ne_of_isNameChar (named.chars c inName) (by decide)
        · obtain ⟨attr, member, within⟩ := List.mem_flatMap.1 inAttributes
          rw [Token.renderAttribute_eq_cons] at within
          rcases List.mem_cons.1 within with rfl | further
          · decide
          · exact (encoded attr member).ne_bracket c further
      · rw [List.mem_singleton.1 last]
        decide
  | @endTag name named =>
      refine ⟨'/' :: name ++ ['>'], by simp [render], ?_⟩
      intro c inside
      rcases List.mem_append.1 inside with front | last
      · rcases List.mem_cons.1 front with rfl | inName
        · decide
        · exact Token.ne_of_isNameChar (named.chars c inName) (by decide)
      · rw [List.mem_singleton.1 last]
        decide
  | run solid => exact absurd rfl (noRun _ _)

end HtmlMinifier.Canonical

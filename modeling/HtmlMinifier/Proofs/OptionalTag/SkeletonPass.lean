/-
# Passing over the tags of the skeleton

The rules for the skeleton ask for nothing around their tags and take no blank along. What they
leave of cells are the cells with other marks, and where a cell is missing, its run goes on from
the run in front of it.
-/
import HtmlMinifier.Proofs.Canonical.CellTokens
import HtmlMinifier.Proofs.OptionalTag.EndTag
import HtmlMinifier.Proofs.OptionalTag.Skeleton

namespace HtmlMinifier.OptionalTag

open Canonical (Mark Piece Cell IsNamedMark AreNamed renderCells renderCells_cons)
open Event (letterTokens tokenStrokes)

/-! ## Cells without some marks -/

/-- A first run and cells without some marks. -/
def dropMarks (out : Mark → Bool) : Text → List Cell → Text × List Cell
  | lead, [] => (lead, [])
  | lead, cell :: cells =>
      let rest := dropMarks out cell.run cells
      if out cell.mark then (lead ++ rest.1, rest.2) else (lead, ⟨cell.mark, rest.1⟩ :: rest.2)

section
variable {out out' : Mark → Bool} {lead run : Text} {mark : Mark} {cells : List Cell}

theorem dropMarks_cons_of_out (isOut : out mark = true) :
    dropMarks out lead (⟨mark, run⟩ :: cells) =
      (lead ++ (dropMarks out run cells).1, (dropMarks out run cells).2) := by
  rw [dropMarks, if_pos isOut]

theorem dropMarks_cons_of_stays (stays : out mark = false) :
    dropMarks out lead (⟨mark, run⟩ :: cells) =
      (lead, ⟨mark, (dropMarks out run cells).1⟩ :: (dropMarks out run cells).2) := by
  rw [dropMarks, if_neg (by rw [stays]; exact Bool.false_ne_true)]

/-- The first run may go on from another one. -/
theorem dropMarks_append (first : Text) :
    dropMarks out (first ++ lead) cells =
      (first ++ (dropMarks out lead cells).1, (dropMarks out lead cells).2) := by
  cases cells with
  | nil => rfl
  | cons cell cells =>
      obtain ⟨mark, run⟩ := cell
      cases isOut : out mark with
      | true => rw [dropMarks_cons_of_out isOut, dropMarks_cons_of_out isOut, List.append_assoc]
      | false => rw [dropMarks_cons_of_stays isOut, dropMarks_cons_of_stays isOut]

/-- Marks may be dropped one kind after the other. -/
theorem dropMarks_dropMarks (lead : Text) (cells : List Cell) :
    dropMarks out (dropMarks out' lead cells).1 (dropMarks out' lead cells).2 =
      dropMarks (fun mark => out' mark || out mark) lead cells := by
  induction cells generalizing lead with
  | nil => rfl
  | cons cell cells ih =>
      obtain ⟨mark, run⟩ := cell
      cases first : out' mark with
      | true =>
          rw [dropMarks_cons_of_out first, dropMarks_append, ih,
            dropMarks_cons_of_out (by rw [first, Bool.true_or])]
      | false =>
          rw [dropMarks_cons_of_stays first]
          cases second : out mark with
          | true =>
              rw [dropMarks_cons_of_out second, ih,
                dropMarks_cons_of_out (by rw [first, second, Bool.false_or])]
          | false =>
              rw [dropMarks_cons_of_stays second, ih,
                dropMarks_cons_of_stays (by rw [first, second, Bool.false_or])]

/-- The marks that are left are those that are not dropped. -/
theorem map_mark_dropMarks (lead : Text) (cells : List Cell) :
    (dropMarks out lead cells).2.map Cell.mark = (cells.map Cell.mark).filter fun mark =>
    !out mark := by
  induction cells generalizing lead with
  | nil => rfl
  | cons cell cells ih =>
      obtain ⟨mark, run⟩ := cell
      cases isOut : out mark with
      | true =>
          rw [dropMarks_cons_of_out isOut, ih, List.map_cons,
            List.filter_cons_of_neg (by simp [isOut])]
      | false =>
          rw [dropMarks_cons_of_stays isOut, List.map_cons, ih, List.map_cons,
            List.filter_cons_of_pos (by simp [isOut])]

theorem mem_of_mem_dropMarks {left : Cell} (member : left ∈ (dropMarks out lead cells).2) :
    ∃ cell ∈ cells, cell.mark = left.mark := by
  have inside : left.mark ∈ (cells.map Cell.mark).filter fun mark => !out mark := by
    rw [← map_mark_dropMarks lead cells]
    exact List.mem_map_of_mem member
  exact List.mem_map.1 (List.mem_filter.1 inside).1

/-- What is left is named. -/
theorem areNamed_dropMarks (named : AreNamed lead cells) :
    AreNamed (dropMarks out lead cells).1 (dropMarks out lead cells).2 := by
  induction cells generalizing lead with
  | nil => exact named
  | cons cell cells ih =>
      obtain ⟨mark, run⟩ := cell
      have later := ih named.tail
      cases isOut : out mark with
      | true =>
          rw [dropMarks_cons_of_out isOut]
          exact later.append named.lead
      | false =>
          rw [dropMarks_cons_of_stays isOut]
          exact later.cons (named.marks _ List.mem_cons_self) named.lead

end

/-! ## One pass -/

/-- Whether a rule names the tag of a mark. -/
def Rule.takesMark (rule : Rule) (mark : Mark) : Bool := (markTag? mark).any rule.tags.contains

/-- A tag as it is written is a piece that is no run. -/
theorem exists_piece_of_markTag? {mark : Mark} (named : IsNamedMark mark) {tag : Text}
    (same : markTag? mark = some tag) :
    ∃ piece : Piece, piece.IsPlain ∧ tag? piece = some tag ∧ mark.render = piece.render := by
  cases named with
  | @opening name attributes named =>
      cases attributes with
      | cons attr attributes => cases same
      | nil => exact ⟨.startTag name [], .startTag named (List.forall_mem_nil _), same, rfl⟩
  | @void name attributes named =>
      cases attributes with
      | cons attr attributes => cases same
      | nil => exact ⟨.startTag name [], .startTag named (List.forall_mem_nil _), same, rfl⟩
  | @closing name named => exact ⟨.endTag name, .endTag named, same, rfl⟩
  | verbatim body named | comment body => cases same

/-- A pass of a rule for the skeleton drops the marks that it names. -/
theorem passAfter_dropMarks {rule : Rule} (member : rule ∈ frameRules) {lead : Text}
    {cells : List Cell} (named : AreNamed lead cells)
    (still : ∀ cell ∈ cells, IsStill rule cell.mark)
    (before : Text) :
    rule.passAfter before (lead ++ renderCells cells) =
      (dropMarks rule.takesMark lead cells).1 ++
        renderCells (dropMarks rule.takesMark lead cells).2 := by
  have inRules := mem_rules_of_mem_frameRules member
  have unbarred : ∀ rule ∈ frameRules, rule.notFollowedBy = [] := by decide
  induction cells generalizing lead before with
  | nil =>
      rw [Rule.passAfter_append named.lead, Canonical.renderCells_nil, Rule.passAfter, dropMarks,
      Canonical.renderCells_nil]
  | cons cell cells ih =>
      obtain ⟨mark, run⟩ := cell
      obtain ⟨first, others⟩ := List.forall_mem_cons.1 still
      have isNamed := named.marks ⟨mark, run⟩ List.mem_cons_self
      rw [Rule.passAfter_append named.lead, renderCells_cons]
      cases takes : rule.takesMark mark with
      | true =>
          obtain ⟨tag, same, inTags⟩ := (Option.any_eq_true _ _).1 takes
          obtain ⟨piece, plain, isTag, render⟩ := exists_piece_of_markTag? isNamed same
          have behind : rule.behind (run ++ renderCells cells) =
              ([], run ++ renderCells cells) := by
            rw [Rule.behind, trailingBlank_of_mem_frameRules member, if_neg Bool.false_ne_true]
          rw [render, Rule.passAfter_tag inRules plain isTag (List.contains_iff_mem.1 inTags)
            ((isFree_of_mem_frameRules member).allows _ _), behind, ih named.tail others,
            dropMarks_cons_of_out takes, List.append_assoc]
      | false =>
          rw [Rule.passAfter_still inRules (unbarred rule member) isNamed first,
            ih named.tail others,
            dropMarks_cons_of_stays takes, renderCells_cons]
          intro tag same inTags
          rw [Rule.takesMark, same, Option.any_some, List.contains_iff_mem.2 inTags] at takes
          cases takes

/-- The passes of rules for the skeleton drop the marks that they name. -/
theorem applyAll_dropMarks {used : List Rule} (members : ∀ rule ∈ used, rule ∈ frameRules)
    {lead : Text} {cells : List Cell} (named : AreNamed lead cells)
    (still : ∀ rule ∈ frameRules, ∀ cell ∈ cells, IsStill rule cell.mark) :
    let left := dropMarks (fun mark => used.any fun rule => rule.takesMark mark) lead cells
    applyAll used (Element.doctype ++ (lead ++ renderCells cells)) =
      Element.doctype ++ (left.1 ++ renderCells left.2) := by
  induction used generalizing lead cells with
  | nil =>
      have none : dropMarks (fun _ => false) lead cells = (lead, cells) := by
        induction cells generalizing lead with
        | nil => rfl
        | cons cell cells ih => rw [dropMarks_cons_of_stays rfl, ih named.tail (fun rule member
            other inside => still rule member other (List.mem_cons_of_mem _ inside))]
      simp only [List.any_nil, none]
      rfl
  | cons rule used ih =>
      obtain ⟨member, members⟩ := List.forall_mem_cons.1 members
      have stillLeft : ∀ other ∈ frameRules, ∀ cell ∈ (dropMarks rule.takesMark lead cells).2,
          IsStill other cell.mark := by
        intro other listed cell inside
        obtain ⟨original, found, same⟩ := mem_of_mem_dropMarks inside
        rw [← same]
        exact still other listed original found
      rw [applyAll_cons, pass_doctype (mem_rules_of_mem_frameRules member),
        passAfter_dropMarks member named (still rule member),
        ih members (areNamed_dropMarks named) stillLeft, dropMarks_dropMarks]
      rfl

/-! ## The skeleton -/

/-- Whether a mark is a tag that the rules for the skeleton take out. -/
def isBareFrame : Mark → Bool
  | .opening name attributes => isFrame name && attributes.isEmpty
  | .void name attributes => isFrame name && attributes.isEmpty
  | .closing name => isFrame name
  | _ => false

/-- The tags that the rules for the skeleton name. -/
theorem exists_mem_tags_frameRules {tag : Text} :
    (∃ rule ∈ frameRules, tag ∈ rule.tags) ↔ ∃ name ∈ frameNames, tag = name ∨ tag = '/' ::
    name := by
  rw [← List.mem_flatMap, tags_frameRules, List.mem_flatMap]
  simp

/-- A start tag without attributes is one that the rules for the skeleton name if its element
belongs to the skeleton. -/
theorem exists_startTag_iff {name : Text} (named : Token.IsTagName name) :
    (∃ other ∈ frameNames, name = other ∨ name = '/' :: other) ↔ isFrame name = true := by
  rw [isFrame, List.contains_iff_mem]
  constructor
  · rintro ⟨other, member, rfl | rfl⟩
    · exact member
    · obtain ⟨c, later, same, alpha⟩ := named.letter
      obtain rfl := (List.cons.inj same).1
      exact absurd alpha (by decide)
  · exact fun member => ⟨name, member, .inl rfl⟩

theorem exists_endTag_iff (name : Text) :
    (∃ other ∈ frameNames, '/' :: name = other ∨ '/' :: name = '/' :: other) ↔
      isFrame name = true := by
  rw [isFrame, List.contains_iff_mem]
  constructor
  · rintro ⟨other, member, same | same⟩
    · exact absurd same (ne_slash_of_mem_frameNames other member name)
    · rwa [(List.cons.inj same).2]
  · exact fun member => ⟨name, member, .inr rfl⟩

/-- The rules for the skeleton name a mark exactly if it is a tag of the skeleton that they take
out. -/
theorem any_takesMark {mark : Mark} (named : IsNamedMark mark) :
    (frameRules.any fun rule => rule.takesMark mark) = isBareFrame mark := by
  have byTag : ∀ tag, markTag? mark = some tag →
      ((frameRules.any fun rule => rule.takesMark mark) = true ↔
        ∃ name ∈ frameNames, tag = name ∨ tag = '/' :: name) := by
    intro tag same
    rw [← exists_mem_tags_frameRules, List.any_eq_true]
    refine exists_congr fun rule => and_congr_right fun _ => ?_
    rw [Rule.takesMark, same, Option.any_some, List.contains_iff_mem]
  have none : markTag? mark = none → (frameRules.any fun rule => rule.takesMark mark) = false := by
    intro same
    rw [List.any_eq_false]
    intro rule _
    rw [Rule.takesMark, same]
    exact Bool.false_ne_true
  cases named with
  | @opening name attributes named | @void name attributes named =>
      cases attributes with
      | nil =>
          rw [Bool.eq_iff_iff, byTag name rfl, exists_startTag_iff named]
          simp [isBareFrame]
      | cons attr attributes =>
          rw [none rfl]
          simp [isBareFrame]
  | @closing name named =>
      rw [Bool.eq_iff_iff, byTag ('/' :: name) rfl, exists_endTag_iff]
      rfl
  | verbatim body named isVerbatim => exact none rfl
  | comment body => exact none rfl

theorem dropMarks_congr {out out' : Mark → Bool} {lead : Text} {cells : List Cell}
    (same : ∀ cell ∈ cells, out cell.mark = out' cell.mark) :
    dropMarks out lead cells = dropMarks out' lead cells := by
  induction cells generalizing lead with
  | nil => rfl
  | cons cell cells ih =>
      obtain ⟨first, others⟩ := List.forall_mem_cons.1 same
      rw [dropMarks, dropMarks, first, ih others]

/-- Of cells the rules for the skeleton leave those that are no bare tags of the skeleton. -/
theorem applyAll_frameRules {lead : Text} {cells : List Cell} (named : AreNamed lead cells)
    (still : ∀ rule ∈ frameRules, ∀ cell ∈ cells, IsStill rule cell.mark) :
    applyAll frameRules (Element.doctype ++ (lead ++ renderCells cells)) =
      Element.doctype ++ ((dropMarks isBareFrame lead cells).1 ++
        renderCells (dropMarks isBareFrame lead cells).2) := by
  have same : dropMarks (fun mark => frameRules.any fun rule => rule.takesMark mark) lead cells =
      dropMarks isBareFrame lead cells :=
    dropMarks_congr fun cell inside => any_takesMark (named.marks cell inside)
  rw [applyAll_dropMarks (fun _ member => member) named still, same]

theorem unframed_append (first second : List Token) :
    unframed (first ++ second) = unframed first ++ unframed second :=
  List.filter_append _ _

theorem unframed_letterTokens (run : Text) : unframed (letterTokens run) = letterTokens run := by
  rw [unframed, List.filter_eq_self]
  intro token member
  obtain ⟨c, _, rfl⟩ := List.mem_map.1 member
  rfl

/-- The tokens of a mark are one bare tag of the skeleton, or there is none among them. -/
theorem unframed_tokens {mark : Mark} (named : IsNamedMark mark) :
    unframed (mark.tokens.flatMap tokenStrokes) =
      if isBareFrame mark then [] else mark.tokens.flatMap tokenStrokes := by
  cases named with
  | @opening name attributes | @void name attributes =>
      cases bare : isFrame name && attributes.isEmpty <;>
        simp [unframed, Mark.tokens, tokenStrokes, isBareFrameTag, isBareFrame, bare]
  | @closing name =>
      cases frame : isFrame name <;>
        simp [unframed, Mark.tokens, tokenStrokes, isBareFrameTag, isBareFrame, frame]
  | comment body => rfl
  | @verbatim name attributes body named isVerbatim =>
      have outside : isFrame name = false := by
        have table : ∀ name ∈ frameNames, Element.isVerbatim name = false := by decide
        rw [isFrame, Bool.eq_false_iff]
        intro inside
        rw [table name (List.contains_iff_mem.1 inside)] at isVerbatim
        cases isVerbatim
      have parts : (Mark.verbatim name attributes body).tokens.flatMap tokenStrokes =
          [.startTag name attributes false] ++ (letterTokens body ++ [.endTag name]) := by
        rw [Mark.tokens, List.flatMap_cons, List.flatMap_append,
          Canonical.flatMap_tokenStrokes_runTokens]
        rfl
      have stays : isBareFrame (.verbatim name attributes body) = false := rfl
      rw [stays, if_neg Bool.false_ne_true, parts, unframed_append, unframed_append,
        unframed_letterTokens]
      simp [unframed, isBareFrameTag, outside]

/-- What is seen of the cells that are left are the tokens other than bare tags of the skeleton. -/
theorem unframed_strokes (lead : Text) {cells : List Cell}
    (named : ∀ cell ∈ cells, IsNamedMark cell.mark) :
    unframed (letterTokens lead ++ cells.flatMap Cell.strokes) =
      letterTokens (dropMarks isBareFrame lead cells).1 ++
        (dropMarks isBareFrame lead cells).2.flatMap Cell.strokes := by
  induction cells generalizing lead with
  | nil =>
      rw [List.flatMap_nil, List.append_nil, unframed_letterTokens, dropMarks, List.flatMap_nil,
        List.append_nil]
  | cons cell cells ih =>
      obtain ⟨mark, run⟩ := cell
      obtain ⟨first, others⟩ := List.forall_mem_cons.1 named
      rw [unframed_append, unframed_letterTokens, List.flatMap_cons, Cell.strokes,
        List.append_assoc, unframed_append, ih run others, unframed_tokens first]
      cases bare : isBareFrame mark with
      | true =>
          rw [if_pos rfl, dropMarks_cons_of_out bare, Event.letterTokens_append, List.nil_append,
            List.append_assoc]
      | false =>
          rw [if_neg Bool.false_ne_true, dropMarks_cons_of_stays bare, List.flatMap_cons,
            Cell.strokes]
          simp only [List.append_assoc]

end HtmlMinifier.OptionalTag

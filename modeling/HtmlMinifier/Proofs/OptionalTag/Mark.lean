/-
# Passing over the marks of a document

A pass meets the marks of a document one by one. A tag that its rule names may be taken out,
together with a blank behind it; every other mark stays, and of a body or a comment stays what the
rule would leave of it if it were all there is. So what all rules leave of a document is known up
to its runs of text: some tags are missing, and each body and each comment is what is left of it by
itself.
-/
import HtmlMinifier.Proofs.Canonical.Cell
import HtmlMinifier.Proofs.OptionalTag.Frame
import HtmlMinifier.Proofs.OptionalTag.Opaque

namespace HtmlMinifier.OptionalTag

open Canonical (Mark Piece Cell IsNamedMark AreNamed renderCells renderCells_cons)
open Token (IsTagName IsEncodedAttribute)

/-! ## One mark -/

/-- What rules leave of a mark that stays: of a body and of a comment, what they leave of it by
itself. -/
inductive Leaves (used : List Rule) : Mark → Mark → Prop
  | opening (name : Text) (attributes : List (Text × Option Text)) :
      Leaves used (.opening name attributes) (.opening name attributes)
  | void (name : Text) (attributes : List (Text × Option Text)) :
      Leaves used (.void name attributes) (.void name attributes)
  | closing (name : Text) : Leaves used (.closing name) (.closing name)
  | verbatim {name body kept : Text} (attributes : List (Text × Option Text))
      (fewer : kept.Sublist body)
      (alone : applyAll used (Mark.verbatim name [] body).render =
        (Mark.verbatim name [] kept).render) :
      Leaves used (.verbatim name attributes body) (.verbatim name attributes kept)
  | comment {body kept : Text} (fewer : kept.Sublist body)
      (alone : applyAll used (Mark.comment body).render = (Mark.comment kept).render) :
      Leaves used (.comment body) (.comment kept)

/-- A verbatim element is known by its body. -/
theorem verbatim_render_inj {name body body' : Text}
    (same : (Mark.verbatim name [] body).render = (Mark.verbatim name [] body').render) :
    body = body' :=
  List.append_cancel_right (List.append_cancel_left same)

/-- A comment is known by its body. -/
theorem comment_render_inj {body body' : Text}
    (same : (Mark.comment body).render = (Mark.comment body').render) : body = body' :=
  List.append_cancel_left (List.append_cancel_right same)

namespace Leaves

variable {used : List Rule} {mark left : Mark}

/-- No rules leave a mark as it is. -/
theorem refl (mark : Mark) : Leaves [] mark mark := by
  cases mark with
  | opening name attributes => exact .opening name attributes
  | void name attributes => exact .void name attributes
  | closing name => exact .closing name
  | verbatim name attributes body => exact .verbatim attributes (List.Sublist.refl body) rfl
  | comment body => exact .comment (List.Sublist.refl body) rfl

/-- Rules leave what the others leave of what the first leaves. -/
theorem trans {rule : Rule} {middle : Mark} (first : Leaves [rule] mark middle)
    (others : Leaves used middle left) : Leaves (rule :: used) mark left := by
  have both : ∀ text, applyAll (rule :: used) text = applyAll used (applyAll [rule] text) :=
    fun _ => rfl
  cases first with
  | opening name attributes => cases others; exact .opening name attributes
  | void name attributes => cases others; exact .void name attributes
  | closing name => cases others; exact .closing name
  | verbatim attributes fewer alone =>
      cases others with
      | verbatim _ fewer' alone' =>
          exact .verbatim attributes (fewer'.trans fewer) (by rw [both, alone, alone'])
  | comment fewer alone =>
      cases others with
      | comment fewer' alone' => exact .comment (fewer'.trans fewer) (by rw [both, alone, alone'])

theorem isNamed (leaves : Leaves used mark left) (named : IsNamedMark mark) :
    IsNamedMark left := by
  cases leaves with
  | opening name attributes | void name attributes | closing name => exact named
  | verbatim attributes fewer alone =>
      cases named with
      | verbatim _ named isVerbatim encoded => exact .verbatim _ named isVerbatim encoded
  | comment fewer alone => exact .comment _

/-- Of a comment a comment is left. -/
theorem ne_comment (leaves : Leaves used mark left) (noComment : ∀ body, left ≠ .comment body) :
    ∀ body, mark ≠ .comment body := by
  rintro body rfl
  cases leaves with
  | comment fewer alone => exact noComment _ rfl

end Leaves

/-- A pass goes over a start tag that its rule does not name. -/
theorem Rule.passAfter_startTag {rule : Rule} (member : rule ∈ rules) {name : Text}
    {attributes : List (Text × Option Text)} (named : IsTagName name)
    (encoded : ∀ attr ∈ attributes, IsEncodedAttribute attr)
    (other : name ∉ rule.tags) (reversedBefore later : Text) :
    rule.passAfter reversedBefore ((Piece.startTag name attributes).render ++ later) =
      (Piece.startTag name attributes).render ++
        rule.passAfter ((Piece.startTag name attributes).render.reverse ++ reversedBefore)
        later := by
  apply Rule.passAfter_piece (.startTag named encoded)
  intro taken rest found
  obtain ⟨tag, inTags, same, _⟩ := tag_of_match? member (.startTag named encoded) found (by simp)
  cases attributes with
  | cons attr attributes => cases same
  | nil =>
      cases same
      exact absurd inTags other

/-- A pass goes over an end tag that its rule does not name. -/
theorem Rule.passAfter_endTag {rule : Rule} (member : rule ∈ rules) {name : Text}
    (named : IsTagName name) (other : '/' :: name ∉ rule.tags) (reversedBefore later : Text) :
    rule.passAfter reversedBefore ((Piece.endTag name).render ++ later) =
      (Piece.endTag name).render ++
        rule.passAfter ((Piece.endTag name).render.reverse ++ reversedBefore) later := by
  apply Rule.passAfter_piece (.endTag named)
  intro taken rest found
  obtain ⟨tag, inTags, same, _⟩ := tag_of_match? member (.endTag named) found (by simp)
  cases same
  exact absurd inTags other

/-- No rule names the tags of a verbatim element. -/
theorem notMem_tags_of_isVerbatim {rule : Rule} (member : rule ∈ rules) {name : Text}
    (isVerbatim : Element.isVerbatim name = true) :
    name ∉ rule.tags ∧ '/' :: name ∉ rule.tags := by
  constructor
  · intro inTags
    rw [(isRuleTag_of_mem rule member name inTags).noVerbatim.1] at isVerbatim
    cases isVerbatim
  · intro inTags
    have noVerbatim := (isRuleTag_of_mem rule member _ inTags).noVerbatim.2
    rw [List.tail_cons, isVerbatim] at noVerbatim
    cases noVerbatim

/-- Behind a start tag stands no end tag. -/
theorem shields_startTag {name : Text} {attributes : List (Text × Option Text)}
    (named : IsTagName name) (encoded : ∀ attr ∈ attributes, IsEncodedAttribute attr)
    (before : Text) :
    Shields ((Piece.startTag name attributes).render.reverse ++ before) := by
  obtain ⟨inside, begins, solid⟩ :=
    (Piece.IsPlain.startTag named encoded).exists_render (by simp)
  obtain ⟨c, later, same, alpha⟩ := named.letter
  have head : ∃ rest, inside = c :: rest := by
    have parts := begins
    rw [Piece.render, same, List.cons_append, List.cons_append, List.cons_append] at parts
    exact ⟨_, (List.cons.inj parts).2.symm⟩
  obtain ⟨rest, rfl⟩ := head
  have noSlash : c ≠ '/' := by
    rintro rfl
    exact absurd alpha (by decide)
  rw [begins, List.reverse_cons, List.append_assoc, List.singleton_append]
  exact shields_of_ne_slash noSlash solid before

section
variable {rule : Rule} (member : rule ∈ rules) (unbarred : rule.notFollowedBy = [])
include member unbarred

/-- What a pass leaves of a verbatim element. -/
theorem Rule.exists_passAfter_verbatim {name : Text} {attributes : List (Text × Option Text)}
    (named : IsTagName name) (isVerbatim : Element.isVerbatim name = true)
    (encoded : ∀ attr ∈ attributes, IsEncodedAttribute attr) (body : Text) :
    ∃ kept, Leaves [rule] (.verbatim name attributes body) (.verbatim name attributes kept) ∧
      ∀ before later,
      rule.passAfter before ((Mark.verbatim name attributes body).render ++ later) =
        (Mark.verbatim name attributes kept).render ++
          rule.passAfter ((Mark.verbatim name attributes body).render.reverse ++ before)
          later := by
  obtain ⟨noStart, noEnd⟩ := notMem_tags_of_isVerbatim member isVerbatim
  have ends : (Piece.endTag name).render = '<' :: ('/' :: name ++ ['>']) := by simp [Piece.render]
  obtain ⟨kept, fewer, passes⟩ := Rule.exists_passAfter_opaque member unbarred (.inl rfl)
    ('/' :: name ++ ['>']) (by simp) body []
  have whole : ∀ attributes : List (Text × Option Text),
      (∀ attr ∈ attributes, IsEncodedAttribute attr) →
      ∀ before later, rule.passAfter before ((Mark.verbatim name attributes body).render ++
        later) =
        (Mark.verbatim name attributes kept).render ++
          rule.passAfter ((Mark.verbatim name attributes body).render.reverse ++ before)
              later := by
    intro attributes encoded before later
    have inside := passes _ (shields_startTag named encoded before) later
    rw [List.reverse_nil, List.nil_append, List.nil_append, ← List.cons_append, ← ends] at inside
    simp only [Mark.render, List.append_assoc, List.reverse_append]
    rw [Rule.passAfter_startTag member named encoded noStart, inside,
      Rule.passAfter_endTag member named noEnd]
  refine ⟨kept, .verbatim attributes fewer ?_, whole attributes encoded⟩
  have alone := whole [] (List.forall_mem_nil _) [] []
  rw [List.append_nil, Rule.passAfter, List.append_nil] at alone
  exact alone

/-- What a pass leaves of a comment. -/
theorem Rule.exists_passAfter_comment (body : Text) :
    ∃ kept, Leaves [rule] (.comment body) (.comment kept) ∧
      ∀ before later, rule.passAfter before ((Mark.comment body).render ++ later) =
        (Mark.comment kept).render ++
          rule.passAfter ((Mark.comment body).render.reverse ++ before) later := by
  obtain ⟨kept, fewer, passes⟩ := Rule.exists_passAfter_opaque member unbarred (.inr rfl)
    "->".toList (by decide) body []
  have whole : ∀ before later, rule.passAfter before ((Mark.comment body).render ++ later) =
      (Mark.comment kept).render ++
        rule.passAfter ((Mark.comment body).render.reverse ++ before) later := by
    intro before later
    have front : ∀ c ∈ "!--".toList, c ≠ '<' := by simp
    have back : ∀ c ∈ "-->".toList, c ≠ '<' := by simp
    have shields : Shields ("!--".toList.reverse ++ '<' :: before) :=
      shields_of_ne_slash (by decide) front before
    have inside := passes _ shields later
    rw [List.reverse_nil, List.nil_append, List.nil_append] at inside
    have parts : (Mark.comment body).render ++ later =
        '<' :: '!' :: ("--".toList ++ (body ++ '-' :: ("->".toList ++ later))) := by
      simp [Mark.render, Piece.render]
    have bang : '!' :: ("--".toList ++ (body ++ '-' :: ("->".toList ++ later))) =
        "!--".toList ++ (body ++ '-' :: ("->".toList ++ later)) := rfl
    have dash : '-' :: ("->".toList ++ later) = "-->".toList ++ later := rfl
    rw [parts, Rule.passAfter_cons (match?_mark member _), bang, Rule.passAfter_append front,
      inside, dash,
      Rule.passAfter_append back]
    simp [Mark.render, Piece.render]
  refine ⟨kept, .comment fewer ?_, whole⟩
  have alone := whole [] []
  rw [List.append_nil, Rule.passAfter, List.append_nil] at alone
  exact alone

omit unbarred in
/-- A pass takes out a tag, or goes over it. -/
theorem Rule.passAfter_tag_or_keep {piece : Piece} (plain : piece.IsPlain)
    (noRun : ∀ verbatim text, piece ≠ .run verbatim text) (before later : Text) :
    ((∃ tag, tag? piece = some tag) ∧ ∃ taken, rule.passAfter before (piece.render ++ later) =
        rule.passAfter taken (rule.behind later).2) ∨
      rule.passAfter before (piece.render ++ later) =
        piece.render ++ rule.passAfter (piece.render.reverse ++ before) later := by
  by_cases removes : ∃ taken rest, rule.match? (piece.render ++ later) = some (taken, rest) ∧
      rule.allows before rest = true
  · left
    obtain ⟨taken, rest, found, allowed⟩ := removes
    obtain ⟨tag, inTags, same, _⟩ := tag_of_match? member plain found noRun
    rw [match?_tag member plain same inTags] at found
    cases found
    exact ⟨⟨tag, same⟩, _, Rule.passAfter_tag member plain same inTags allowed⟩
  · right
    apply Rule.passAfter_piece plain
    intro taken rest found
    cases allowed : rule.allows before rest with
    | false => rfl
    | true => exact absurd ⟨taken, rest, found, allowed⟩ removes

/-- What a pass does at a mark: it takes out a tag with what it takes along, or leaves something of
the mark. -/
theorem Rule.passAfter_mark {mark : Mark} (named : IsNamedMark mark) (before later : Text) :
    ((∀ body, mark ≠ .comment body) ∧ ∃ taken, rule.passAfter before (mark.render ++ later) =
        rule.passAfter taken (rule.behind later).2) ∨
      ∃ left, Leaves [rule] mark left ∧ rule.passAfter before (mark.render ++ later) =
        left.render ++ rule.passAfter (mark.render.reverse ++ before) later := by
  cases named with
  | @opening name attributes named noVerbatim encoded =>
      exact (Rule.passAfter_tag_or_keep member (.startTag named encoded)
        (by simp) before later).imp
        (fun removed => ⟨by simp, removed.2⟩) fun keeps => ⟨_, .opening name attributes, keeps⟩
  | @void name attributes named isVoid encoded =>
      exact (Rule.passAfter_tag_or_keep member (.startTag named encoded)
        (by simp) before later).imp
        (fun removed => ⟨by simp, removed.2⟩) fun keeps => ⟨_, .void name attributes, keeps⟩
  | @closing name named =>
      exact (Rule.passAfter_tag_or_keep member (.endTag named) (by simp) before later).imp
        (fun removed => ⟨by simp, removed.2⟩) fun keeps => ⟨_, .closing name, keeps⟩
  | @verbatim name attributes body named isVerbatim encoded =>
      obtain ⟨kept, leaves, passes⟩ :=
        Rule.exists_passAfter_verbatim member unbarred named isVerbatim encoded body
      exact .inr ⟨_, leaves, passes before later⟩
  | comment body =>
      obtain ⟨kept, leaves, passes⟩ := Rule.exists_passAfter_comment member unbarred body
      exact .inr ⟨_, leaves, passes before later⟩

end

/-! ## All marks -/

/-- What rules leave of marks: some tags are taken out, and of the other marks something is
left. -/
inductive LeavesMarks (used : List Rule) : List Mark → List Mark → Prop
  | nil : LeavesMarks used [] []
  | out {mark : Mark} {marks left : List Mark} (noComment : ∀ body, mark ≠ .comment body) :
      LeavesMarks used marks left → LeavesMarks used (mark :: marks) left
  | stays {mark mark' : Mark} {marks left : List Mark} (leaves : Leaves used mark mark') :
      LeavesMarks used marks left → LeavesMarks used (mark :: marks) (mark' :: left)

namespace LeavesMarks

theorem refl (marks : List Mark) : LeavesMarks [] marks marks := by
  induction marks with
  | nil => exact .nil
  | cons mark marks ih => exact .stays (.refl mark) ih

theorem trans {rule : Rule} {used : List Rule} {marks middle left : List Mark}
    (first : LeavesMarks [rule] marks middle) (others : LeavesMarks used middle left) :
    LeavesMarks (rule :: used) marks left := by
  induction first generalizing left with
  | nil =>
      cases others
      exact .nil
  | out noComment _ ih => exact .out noComment (ih others)
  | stays leaves _ ih =>
      cases others with
      | out noComment others => exact .out (leaves.ne_comment noComment) (ih others)
      | stays further others => exact .stays (leaves.trans further) (ih others)

/-- What is left comes from a mark. -/
theorem exists_of_mem {used : List Rule} {marks left : List Mark}
    (leaves : LeavesMarks used marks left)
    {mark' : Mark} (member : mark' ∈ left) : ∃ mark ∈ marks, Leaves used mark mark' := by
  induction leaves with
  | nil => cases member
  | out _ _ ih =>
      obtain ⟨mark, inside, leaves⟩ := ih member
      exact ⟨mark, List.mem_cons_of_mem _ inside, leaves⟩
  | stays leaves _ ih =>
      rcases List.mem_cons.1 member with rfl | later
      · exact ⟨_, List.mem_cons_self, leaves⟩
      · obtain ⟨mark, inside, further⟩ := ih later
        exact ⟨mark, List.mem_cons_of_mem _ inside, further⟩

end LeavesMarks

/-- What a rule takes along from behind its tag belongs to the next run. -/
theorem exists_behind_run (rule : Rule) {run : Text} {cells : List Cell}
    (named : AreNamed run cells) :
    ∃ run', (rule.behind (run ++ renderCells cells)).2 = run' ++ renderCells cells ∧
      AreNamed run' cells := by
  rw [Rule.behind]
  split
  · cases run with
    | nil =>
        refine ⟨[], ?_, named⟩
        cases cells with
        | nil => rfl
        | cons cell cells =>
            have begins : ∃ rest, cell.mark.render = '<' :: rest := by
              cases cell.mark <;> exact ⟨_, rfl⟩
            obtain ⟨rest, same⟩ := begins
            rw [List.nil_append, renderCells_cons, same, List.cons_append]
            rfl
    | cons c run =>
        rw [List.cons_append, takeBlank]
        split
        · exact ⟨run, rfl, fun d inside => named.lead d (List.mem_cons_of_mem c inside),
            named.marks,
            named.runs⟩
        · exact ⟨c :: run, rfl, named⟩
  · exact ⟨run, rfl, named⟩

/-- One pass over cells. -/
theorem exists_leaves_passAfter {rule : Rule} (member : rule ∈ rules)
    (unbarred : rule.notFollowedBy = [])
    {lead : Text} {cells : List Cell} (named : AreNamed lead cells) (before : Text) :
    ∃ lead' cells', rule.passAfter before (lead ++ renderCells cells) = lead' ++
    renderCells cells' ∧
      AreNamed lead' cells' ∧
      LeavesMarks [rule] (cells.map Cell.mark) (cells'.map Cell.mark) := by
  induction cells generalizing lead before with
  | nil =>
      refine ⟨lead, [], ?_, named, .nil⟩
      rw [Rule.passAfter_append named.lead, Canonical.renderCells_nil, Rule.passAfter]
  | cons cell cells ih =>
      have later := named.tail
      rw [Rule.passAfter_append named.lead, renderCells_cons]
      rcases Rule.passAfter_mark member unbarred (named.marks cell List.mem_cons_self)
        (lead.reverse ++ before) (cell.run ++ renderCells cells) with
        ⟨noComment, taken, passes⟩ | ⟨left, leaves, passes⟩
      · obtain ⟨run, behind, runNamed⟩ := exists_behind_run rule later
        obtain ⟨run', cells', same, named', marks⟩ := ih runNamed taken
        exact ⟨lead ++ run', cells', by rw [passes, behind, same, List.append_assoc],
          named'.append named.lead, .out noComment marks⟩
      · obtain ⟨run', cells', same, named', marks⟩ := ih later _
        have leftNamed := leaves.isNamed (named.marks cell List.mem_cons_self)
        exact ⟨lead, ⟨left, run'⟩ :: cells', by rw [passes, same, renderCells_cons],
          named'.cons leftNamed named.lead, .stays leaves marks⟩

/-- All passes over a document. -/
theorem exists_leaves_applyAll {used : List Rule}
    (unbarred : ∀ rule ∈ used, rule ∈ rules ∧ rule.notFollowedBy = []) {lead : Text}
    {cells : List Cell}
    (named : AreNamed lead cells) :
    ∃ lead' cells', applyAll used (Element.doctype ++ (lead ++ renderCells cells)) =
        Element.doctype ++ (lead' ++ renderCells cells') ∧ AreNamed lead' cells' ∧
      LeavesMarks used (cells.map Cell.mark) (cells'.map Cell.mark) := by
  induction used generalizing lead cells with
  | nil => exact ⟨lead, cells, rfl, named, .refl _⟩
  | cons rule used ih =>
      obtain ⟨member, plain⟩ := unbarred rule List.mem_cons_self
      obtain ⟨lead', cells', same, named', first⟩ :=
        exists_leaves_passAfter member plain named Element.doctype.reverse
      obtain ⟨lead'', cells'', others, named'', further⟩ :=
        ih (fun other inside => unbarred other (List.mem_cons_of_mem rule inside)) named'
      refine ⟨lead'', cells'', ?_, named'', first.trans further⟩
      rw [applyAll_cons, pass_doctype member, same, others]

/-- No rule that is used by default asks what does not follow its tag. -/
theorem unbarred_of_mem_activeRules :
    ∀ rule ∈ activeRules false, rule ∈ rules ∧ rule.notFollowedBy = [] := by
  have table : ∀ rule ∈ activeRules false, rule.notFollowedBy = [] := by decide
  exact fun rule member => ⟨(List.mem_filter.1 member).1, table rule member⟩

/-- What is left of a document when the optional tags are left out. -/
theorem exists_leaves_elide {lead : Text} {cells : List Cell} (named : AreNamed lead cells) :
    ∃ lead' cells', elide false (Element.doctype ++ (lead ++ renderCells cells)) =
        Element.doctype ++ (lead' ++ renderCells cells') ∧ AreNamed lead' cells' ∧
      LeavesMarks (activeRules false) (cells.map Cell.mark) (cells'.map Cell.mark) :=
  exists_leaves_applyAll unbarred_of_mem_activeRules named

end HtmlMinifier.OptionalTag

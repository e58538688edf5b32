/-
# Passing over end tags

A rule for end tags asks for what stands behind its tag, and never for text. So where it takes a
tag out, nothing but a blank stands between this tag and the next one, the blank goes with the tag,
and the cell of the tag is missing as a whole from the cells that are left. Which cells these are
is computed from the right, because a rule judges its tags by what the pass was given.
-/
import HtmlMinifier.Proofs.OptionalTag.FinalBlank
import HtmlMinifier.Proofs.OptionalTag.Mark

namespace HtmlMinifier.OptionalTag

open Canonical (Mark Piece Cell IsNamedMark AreNamed renderCells renderCells_cons)
open Token (IsTagName IsEncodedAttribute)

/-! ## Marks that stay -/

/-- The tag of a mark as rules have it. -/
def markTag? : Mark → Option Text
  | .opening name [] => some name
  | .void name [] => some name
  | .closing name => some ('/' :: name)
  | _ => none

/-- A mark of which a rule leaves all there is, apart from its own tag. -/
def IsStill (rule : Rule) (mark : Mark) : Prop := Leaves [rule] mark mark

/-- Whether nothing in a mark looks like a tag but its own tags. -/
def IsSolid : Mark → Prop
  | .verbatim _ _ body => ∀ c ∈ body, c ≠ '<'
  | .comment _ => False
  | _ => True

section
variable {rule : Rule} (member : rule ∈ rules) (unbarred : rule.notFollowedBy = [])
include member unbarred

/-- A pass goes over a mark that it is not allowed to take out. -/
theorem Rule.passAfter_still {mark : Mark} (named : IsNamedMark mark) (still : IsStill rule mark)
    {before later : Text} (keeps : ∀ tag, markTag? mark = some tag → tag ∈ rule.tags →
      rule.allows before (rule.behind later).2 = false) :
    rule.passAfter before (mark.render ++ later) =
      mark.render ++ rule.passAfter (mark.render.reverse ++ before) later := by
  have piece : ∀ {piece : Piece}, piece.IsPlain →
      (∀ verbatim text, piece ≠ .run verbatim text) →
      (∀ tag, tag? piece = some tag → tag ∈ rule.tags →
        rule.allows before (rule.behind later).2 = false) →
      rule.passAfter before (piece.render ++ later) =
        piece.render ++ rule.passAfter (piece.render.reverse ++ before) later := by
    intro piece plain noRun keeps
    apply Rule.passAfter_piece plain
    intro taken rest found
    obtain ⟨tag, inTags, same, _⟩ := tag_of_match? member plain found noRun
    rw [match?_tag member plain same inTags] at found
    cases found
    exact keeps tag same inTags
  cases named with
  | @opening name attributes named noVerbatim encoded =>
      refine piece (.startTag named encoded) (by simp) fun tag same => keeps tag ?_
      cases attributes with
      | nil => exact same
      | cons attr attributes => cases same
  | @void name attributes named isVoid encoded =>
      refine piece (.startTag named encoded) (by simp) fun tag same => keeps tag ?_
      cases attributes with
      | nil => exact same
      | cons attr attributes => cases same
  | @closing name named => exact piece (.endTag named) (by simp) fun tag same => keeps tag same
  | @verbatim name attributes body named isVerbatim encoded =>
      obtain ⟨kept, leaves, passes⟩ :=
        Rule.exists_passAfter_verbatim member unbarred named isVerbatim encoded body
      have same : kept = body := by
        cases leaves with
        | verbatim _ _ alone =>
            cases still with
            | verbatim _ _ alone' => exact verbatim_render_inj (alone.symm.trans alone')
      rw [passes, same]
  | comment body =>
      obtain ⟨kept, leaves, passes⟩ := Rule.exists_passAfter_comment member unbarred body
      have same : kept = body := by
        cases leaves with
        | comment _ alone =>
            cases still with
            | comment _ alone' => exact comment_render_inj (alone.symm.trans alone')
      rw [passes, same]

omit unbarred in
/-- A pass leaves all there is of a mark in which nothing looks like a tag. -/
theorem isStill_of_isSolid {mark : Mark} (named : IsNamedMark mark) (solid : IsSolid mark) :
    IsStill rule mark := by
  cases named with
  | opening => exact .opening _ _
  | void => exact .void _ _
  | closing => exact .closing _
  | comment body => exact solid.elim
  | @verbatim name attributes body named isVerbatim encoded =>
      refine .verbatim attributes (List.Sublist.refl body) ?_
      obtain ⟨noStart, noEnd⟩ := notMem_tags_of_isVerbatim member isVerbatim
      have ends : ∀ before, rule.passAfter before (Piece.endTag name).render =
          (Piece.endTag name).render := by
        intro before
        have alone := Rule.passAfter_endTag member named noEnd before []
        rwa [List.append_nil, Rule.passAfter, List.append_nil] at alone
      rw [applyAll, List.foldl_cons, List.foldl_nil, Rule.pass, Mark.render,
        Rule.passAfter_startTag member named (List.forall_mem_nil _) noStart,
        Rule.passAfter_append solid, ends]

end

/-! ## Rules for end tags -/

/-- Whether a rule is one for the end tag of an element. -/
def Rule.namesEnd (rule : Rule) (name : Text) : Bool := rule.tags.contains ('/' :: name)

/-- Whether what follows is among what a rule asks for. -/
def Rule.accepts (rule : Rule) (after : Text) : Bool :=
  rule.followedBy.any fun follow => follow.accepts after

/-- The rules for the content of a document that ask for nothing but what follows. -/
def endRules : List Rule :=
  contentRules.filter fun rule =>
    rule.precededBy = [] && rule.notPrecededBy = [] && rule.followedBy ≠ []

/-- They name end tags, and take a blank along. -/
theorem facts_of_mem_endRules : ∀ rule ∈ endRules, rule ∈ rules ∧ rule.precededBy = [] ∧
    rule.notPrecededBy = [] ∧ rule.notFollowedBy = [] ∧ rule.followedBy ≠ [] ∧
      rule.trailingBlank = true ∧ ∀ tag ∈ rule.tags, tag.head? = some '/' := by
  decide

/-- Text is never accepted. -/
theorem accepts_of_ne_bracket {rule : Rule} (member : rule ∈ rules) {c : Char} (solid : c ≠ '<')
    (later : Text) : rule.accepts (c :: later) = false := by
  rw [Rule.accepts, List.any_eq_false]
  intro follow listed
  rw [accepts_text (isMarkup_of_mem_rules rule member follow listed) solid]
  exact Bool.false_ne_true

/-- What is accepted is decided by the head of what follows. -/
theorem Rule.accepts_congr {rule : Rule} (member : rule ∈ rules) {after after' : Text}
    (same : SameHead after after') : rule.accepts after = rule.accepts after' := by
  rw [Rule.accepts, Rule.accepts, Bool.eq_iff_iff, List.any_eq_true, List.any_eq_true]
  refine exists_congr fun follow => and_congr_right fun listed => ?_
  rw [OptionalTag.accepts_congr (isMarkup_of_mem_rules rule member follow listed) same]

/-- Of a start tag only the name counts. -/
theorem accepts_startTag {follow : Follow} (markup : follow.isMarkup = true)
    (solid : follow.isSolid = true) {name : Text} (named : IsTagName name) {d : Char}
    (ends : d = ' ' ∨ d = '>') (rest : Text) :
    follow.accepts ('<' :: (name ++ d :: rest)) = follow.accepts ('<' :: (name ++ ['>'])) := by
  have fixed : d.isLower = false ∧ d.toLower = d ∧ Token.isNameChar d = false := by
    rcases ends with rfl | rfl <;> decide
  obtain ⟨first, more, letter, alpha⟩ := named.letter
  have noSlash : first ≠ '/' := by
    rintro rfl
    exact absurd alpha (by decide)
  cases follow with
  | literal starts =>
      rw [Follow.isMarkup, List.all_eq_true] at markup
      rw [Follow.isSolid, List.all_eq_true] at solid
      rw [Follow.accepts, Follow.accepts, Bool.eq_iff_iff, List.any_eq_true, List.any_eq_true]
      refine exists_congr fun start => and_congr_right fun member => ?_
      have noClose : ∀ c ∈ start, c ≠ '>' := by
        simpa using (Bool.and_eq_true_iff.1 (markup start member)).2
      have noBlank : ∀ c ∈ start, Text.isBlank c = false := by simpa using solid start member
      have absent : ∀ c ∈ start, c ≠ d := by
        rintro c inside rfl
        rcases ends with rfl | rfl
        · exact absurd (noBlank _ inside) (by decide)
        · exact noClose _ inside rfl
      rw [← List.cons_append, ← List.cons_append, startsFolded_append_cons fixed.1 fixed.2.1
        absent,
        startsFolded_append_cons (by decide) (by decide) noClose]
  | startTag names =>
      have whole : ∀ e rest, Token.isNameChar e = false → tagName (name ++ e :: rest) = name := by
        intro e rest other
        rw [tagName, List.takeWhile_append_of_pos named.chars,
          List.takeWhile_cons_of_neg (by rw [other]; exact Bool.false_ne_true), List.append_nil]
      simp [Follow.accepts, whole d rest fixed.2.2, whole '>' [] (by decide)]
  | endTagExcept names =>
      rw [letter, List.cons_append, List.cons_append, Follow.accepts, Follow.accepts]
      · exact fun later same => noSlash (List.cons.inj (List.cons.inj same).2).1
      · exact fun later same => noSlash (List.cons.inj (List.cons.inj same).2).1
  | endOfText => rfl

/-- Whether the literals that may follow go on behind their bracket, and not as a comment. -/
def Follow.isTag : Follow → Bool
  | .literal starts => starts.all fun start => start ≠ ['<'] && start.all (· ≠ '!')
  | _ => true

/-- A rule that asks for something does not ask for a comment. -/
theorem accepts_comment : ∀ rule ∈ rules, ∀ follow ∈ rule.followedBy, ∀ rest,
    follow.accepts ('<' :: '!' :: rest) = false := by
  have table : ∀ rule ∈ rules, ∀ follow ∈ rule.followedBy, follow.isTag = true := by decide
  intro rule member follow listed rest
  have plain := table rule member follow listed
  have markup := isMarkup_of_mem_rules rule member follow listed
  cases follow with
  | literal starts =>
      rw [Follow.accepts, List.any_eq_false]
      intro start inside
      rw [Follow.isMarkup, List.all_eq_true] at markup
      obtain ⟨opens, _⟩ := Bool.and_eq_true_iff.1 (markup start inside)
      obtain ⟨more, rfl⟩ := List.head?_eq_some_iff.1 (of_decide_eq_true opens)
      obtain ⟨some, absent⟩ := Bool.and_eq_true_iff.1 (List.all_eq_true.1 plain _ inside)
      have noMark : ∀ c ∈ '<' :: more, c ≠ '!' := by simpa using absent
      have begins : ('<' :: '!' :: rest) = ['<'] ++ '!' :: rest := rfl
      rw [begins, startsFolded_append_cons (by decide) (by decide) noMark, Text.startsFolded,
        Text.dropFolded?_cons_cons, if_pos rfl]
      cases more with
      | nil => exact absurd rfl (of_decide_eq_true some)
      | cons c more => exact Bool.false_ne_true
  | startTag names => rfl
  | endTagExcept names => rfl
  | endOfText => rfl

section
variable {rule : Rule} (member : rule ∈ rules)
include member

theorem Rule.accepts_startTag {name : Text} (named : IsTagName name)
    (attributes : List (Text × Option Text)) (later : Text) :
    rule.accepts ((Piece.startTag name attributes).render ++ later) =
      rule.accepts ('<' :: (name ++ ['>'])) := by
  have parts : ∃ d rest, (Piece.startTag name attributes).render ++ later =
      '<' :: (name ++ d :: rest) ∧ (d = ' ' ∨ d = '>') := by
    cases attributes with
    | nil => exact ⟨'>', later, by simp [Piece.render], .inr rfl⟩
    | cons attr attributes =>
        refine ⟨' ', Token.attributeText attr ++ (attributes.flatMap Canonical.renderAttribute ++
          '>' :: later), ?_, .inl rfl⟩
        simp [Piece.render, Token.renderAttribute_eq_cons]
  obtain ⟨d, rest, same, ends⟩ := parts
  rw [same, Rule.accepts, Rule.accepts, Bool.eq_iff_iff, List.any_eq_true, List.any_eq_true]
  refine exists_congr fun follow => and_congr_right fun listed => ?_
  rw [OptionalTag.accepts_startTag (isMarkup_of_mem_rules rule member follow listed)
    (isSolid_of_mem_rules rule member follow listed) named ends rest]

theorem Rule.accepts_endTag (name later : Text) :
    rule.accepts ((Piece.endTag name).render ++ later) =
      rule.accepts ('<' :: ('/' :: name ++ ['>'])) := by
  refine Rule.accepts_congr member ?_
  have parts : (Piece.endTag name).render ++ later = '<' :: ('/' :: name ++ '>' :: later) := by
    simp [Piece.render]
  rw [parts]
  exact .tag ('/' :: name) later []

theorem Rule.accepts_comment (body later : Text) :
    rule.accepts ((Piece.comment body).render ++ later) = false := by
  rw [Rule.accepts, List.any_eq_false]
  intro follow listed
  have missing := OptionalTag.accepts_comment rule member follow listed
    ("--".toList ++ (body ++ ("-->".toList ++ later)))
  have parts : (Piece.comment body).render ++ later =
      '<' :: '!' :: ("--".toList ++ (body ++ ("-->".toList ++ later))) := by
    simp [Piece.render]
  rw [parts, missing]
  exact Bool.false_ne_true

end

/-- A rule for end tags allows what it accepts. -/
theorem allows_of_mem_endRules {rule : Rule} (member : rule ∈ endRules) (before after : Text) :
    rule.allows before after = rule.accepts after := by
  obtain ⟨_, preceded, notPreceded, unbarred, asks, _, _⟩ := facts_of_mem_endRules rule member
  rw [Rule.allows, preceded, notPreceded, unbarred, decide_eq_false asks, Rule.accepts]
  simp

/-! ## Cells that are left -/

/-- Whether a pass takes out a cell in front of others. -/
def Rule.drops (rule : Rule) (cell : Cell) (later : List Cell) : Bool :=
  match cell.mark with
  | .closing name =>
      rule.namesEnd name && rule.accepts (takeBlank (cell.run ++ renderCells later)).2
  | _ => false

/-- The cells that a pass leaves. -/
def Rule.thin (rule : Rule) : List Cell → List Cell
  | [] => []
  | cell :: later => if rule.drops cell later then rule.thin later else cell :: rule.thin later

/-- The cells that passes leave. -/
def thinAll (used : List Rule) (cells : List Cell) : List Cell :=
  used.foldl (fun current rule => rule.thin current) cells

theorem Rule.thin_sublist (rule : Rule) (cells : List Cell) : (rule.thin cells).Sublist cells := by
  induction cells with
  | nil => exact List.Sublist.refl []
  | cons cell later ih =>
      rw [Rule.thin]
      split
      · exact ih.cons cell
      · exact ih.cons_cons cell

theorem thinAll_sublist (used : List Rule) (cells : List Cell) :
    (thinAll used cells).Sublist cells := by
  induction used generalizing cells with
  | nil => exact List.Sublist.refl cells
  | cons rule used ih => exact (ih (rule.thin cells)).trans (rule.thin_sublist cells)

/-- Cells begin with a bracket if there are any. -/
theorem exists_cons_renderCells (cells : List Cell) :
    renderCells cells = [] ∨ ∃ rest, renderCells cells = '<' :: rest := by
  cases cells with
  | nil => exact .inl rfl
  | cons cell cells =>
      refine .inr ?_
      rw [renderCells_cons]
      cases cell.mark <;> exact ⟨_, rfl⟩

/-- No blank stands at the front of cells. -/
theorem takeBlank_renderCells (cells : List Cell) :
    takeBlank (renderCells cells) = ([], renderCells cells) := by
  rcases exists_cons_renderCells cells with none | ⟨rest, same⟩
  · rw [none]
    rfl
  · rw [same]
    rfl

/-- A cell that is taken out is an end tag with at most a blank behind it. -/
theorem exists_of_drops {rule : Rule} (member : rule ∈ rules) {cell : Cell} {later : List Cell}
    (solid : ∀ c ∈ cell.run, c ≠ '<') (drops : rule.drops cell later = true) :
    ∃ name, cell.mark = .closing name ∧ rule.namesEnd name = true ∧
      (cell.run = [] ∨ ∃ b, Text.isBlank b = true ∧ cell.run = [b]) ∧
        rule.accepts (renderCells later) = true := by
  rw [Rule.drops] at drops
  split at drops
  · next name same =>
      obtain ⟨names, accepted⟩ := Bool.and_eq_true_iff.1 drops
      refine ⟨name, same, names, ?_⟩
      cases run : cell.run with
      | nil =>
          rw [run, List.nil_append, takeBlank_renderCells] at accepted
          exact ⟨.inl rfl, accepted⟩
      | cons c text =>
          rw [run, List.cons_append, takeBlank] at accepted
          split at accepted
          · next blank =>
              cases text with
              | nil => exact ⟨.inr ⟨c, blank, rfl⟩, accepted⟩
              | cons d text =>
                  have bracket := solid d (by rw [run]; simp)
                  rw [List.cons_append, accepts_of_ne_bracket member bracket] at accepted
                  cases accepted
          · rw [accepts_of_ne_bracket member (solid c (by rw [run]; simp))] at accepted
            cases accepted
  · cases drops

/-- An end tag with at most a blank behind it is taken out if its rule accepts what follows. -/
theorem drops_closing (rule : Rule) (name : Text) {run : Text}
    (bare : run = [] ∨ ∃ b, Text.isBlank b = true ∧ run = [b]) (later : List Cell) :
    rule.drops ⟨.closing name, run⟩ later =
      (rule.namesEnd name && rule.accepts (renderCells later)) := by
  rcases bare with rfl | ⟨b, blank, rfl⟩
  · rw [Rule.drops, List.nil_append, takeBlank_renderCells]
  · rw [Rule.drops, List.singleton_append, takeBlank, if_pos blank]

/-! ## One pass -/

/-- A pass of a rule for end tags leaves the cells that it does not drop. -/
theorem passAfter_cells {rule : Rule} (member : rule ∈ endRules) {lead : Text} {cells : List Cell}
    (named : AreNamed lead cells) (still : ∀ cell ∈ cells, IsStill rule cell.mark)
    (before : Text) :
    rule.passAfter before (lead ++ renderCells cells) = lead ++ renderCells (rule.thin cells) := by
  obtain ⟨inRules, _, _, unbarred, _, blank, slash⟩ := facts_of_mem_endRules rule member
  induction cells generalizing lead before with
  | nil =>
      rw [Rule.passAfter_append named.lead, Canonical.renderCells_nil, Rule.passAfter, Rule.thin,
        Canonical.renderCells_nil]
  | cons cell cells ih =>
      obtain ⟨first, others⟩ := List.forall_mem_cons.1 still
      have isNamed := named.marks cell List.mem_cons_self
      have behind : ∀ later, (rule.behind later).2 = (takeBlank later).2 := by
        intro later
        rw [Rule.behind, if_pos blank]
      rw [Rule.passAfter_append named.lead, renderCells_cons, Rule.thin]
      cases drops : rule.drops cell cells with
      | true =>
          have solid := named.runs cell List.mem_cons_self
          obtain ⟨name, same, names, bare, accepted⟩ := exists_of_drops inRules solid drops
          have plain : (Piece.endTag name).IsPlain := by
            rw [same] at isNamed
            cases isNamed with
            | closing named => exact .endTag named
          have rest : (rule.behind (cell.run ++ renderCells cells)).2 = renderCells cells := by
            rw [behind]
            rcases bare with none | ⟨b, isBlank, one⟩
            · rw [none, List.nil_append, takeBlank_renderCells]
            · rw [one, List.singleton_append, takeBlank, if_pos isBlank]
          have allowed : rule.allows (lead.reverse ++ before)
              (rule.behind (cell.run ++ renderCells cells)).2 = true := by
            rw [rest, allows_of_mem_endRules member, accepted]
          have removed := Rule.passAfter_tag inRules plain rfl (List.contains_iff_mem.1 names)
            allowed
          have later : AreNamed [] cells :=
            ⟨List.forall_mem_nil _, named.tail.marks, named.tail.runs⟩
          have passes := ih later others
          simp only [List.nil_append] at passes
          rw [if_pos rfl, same, Mark.render, removed, rest, passes]
      | false =>
          have keeps : ∀ tag, markTag? cell.mark = some tag → tag ∈ rule.tags →
              rule.allows (lead.reverse ++ before)
                (rule.behind (cell.run ++ renderCells cells)).2 = false := by
            intro tag same inTags
            rw [allows_of_mem_endRules member, behind]
            have ends := slash tag inTags
            cases mark : cell.mark with
            | closing name =>
                rw [mark] at same
                cases same
                rw [Rule.drops, mark] at drops
                simpa [Rule.namesEnd, inTags] using drops
            | opening name attributes | void name attributes =>
                rw [mark] at same isNamed
                cases attributes with
                | cons attr attributes => cases same
                | nil =>
                    cases same
                    obtain ⟨c, later, rfl, alpha⟩ := (isNamed.isTagName rfl).letter
                    obtain rfl : c = '/' := Option.some.inj ends
                    exact absurd alpha (by decide)
            | verbatim name attributes body | comment body =>
                rw [mark] at same
                cases same
          rw [if_neg Bool.false_ne_true, Rule.passAfter_still inRules unbarred isNamed first keeps,
            ih named.tail others, renderCells_cons]

/-- A rule leaves cells as they are if it is allowed to take out none of their tags. -/
theorem passAfter_stays {rule : Rule} (member : rule ∈ rules) (unbarred : rule.notFollowedBy = [])
    {lead : Text} {cells : List Cell} (named : AreNamed lead cells)
    (still : ∀ cell ∈ cells, IsStill rule cell.mark) {before : Text}
    (keeps : ∀ earlier cell later, cells = earlier ++ cell :: later →
      ∀ tag, markTag? cell.mark = some tag → tag ∈ rule.tags →
        rule.allows ((lead ++ renderCells earlier).reverse ++ before)
          (rule.behind (cell.run ++ renderCells later)).2 = false) :
    rule.passAfter before (lead ++ renderCells cells) = lead ++ renderCells cells := by
  induction cells generalizing lead before with
  | nil =>
      rw [Rule.passAfter_append named.lead, Canonical.renderCells_nil, Rule.passAfter]
  | cons cell cells ih =>
      obtain ⟨first, others⟩ := List.forall_mem_cons.1 still
      have here : ∀ tag, markTag? cell.mark = some tag → tag ∈ rule.tags →
          rule.allows (lead.reverse ++ before)
            (rule.behind (cell.run ++ renderCells cells)).2 = false := by
        have first := keeps [] cell cells rfl
        rwa [Canonical.renderCells_nil, List.append_nil] at first
      have further := @ih cell.run named.tail others (cell.mark.render.reverse ++
        (lead.reverse ++ before)) fun earlier other later parts => by
          have last := keeps (cell :: earlier) other later (by rw [parts, List.cons_append])
          simpa only [renderCells_cons, List.reverse_append, List.append_assoc] using last
      rw [Rule.passAfter_append named.lead, renderCells_cons, Rule.passAfter_still member unbarred
        (named.marks cell List.mem_cons_self) first here, further]

end HtmlMinifier.OptionalTag

/-
# End tags that what follows supplies

The rules take out an end tag by what stands behind it at the moment, and what stands there may be
taken out later. In the end the end tag is missing in front of the first thing that stays, and this
has to supply it: a start tag has to imply it, and an end tag has to be another one. So for every
end tag of a document the question is which start tags it may come to stand in front of.
-/
import HtmlMinifier.Proofs.Canonical.CellTokens
import HtmlMinifier.Proofs.OptionalTag.ContentPass
import Mathlib.Data.List.Infix

namespace HtmlMinifier.OptionalTag

open Canonical (Mark Piece Cell IsNamedMark AreNamed renderCells renderCells_cons)
open Event (Omitted letterTokens)

/-! ## End tags in front -/

/-- The names of the end tags that tokens begin with. -/
def endNames : List Token → List Text
  | .endTag name :: later => name :: endNames later
  | _ => []

/-- The tokens behind the end tags that tokens begin with. -/
def behindEnds : List Token → List Token
  | .endTag _ :: later => behindEnds later
  | tokens => tokens

/-- The name of the start tag that tokens begin with. -/
def startName? : List Token → Option Text
  | .startTag name _ _ :: _ => some name
  | _ => none

/-! ## Where end tags are taken out -/

/-- Whether some rule takes out the end tag of an element. -/
def isOptionalEnd (name : Text) : Bool := contentRules.any fun rule => rule.namesEnd name

/-- Whether a rule takes out the end tag of an element in front of a tag, which is given without
its brackets. -/
def Rule.takesBefore (rule : Rule) (name tag : Text) : Bool :=
  rule.namesEnd name && rule.accepts ('<' :: (tag ++ ['>']))

/-- Whether the end tag of an element is taken out in front of a start tag. -/
def goesBeforeStart (name next : Text) : Bool :=
  contentRules.any fun rule => rule.takesBefore name next

/-- Whether the end tag of an element is taken out in front of another end tag that may be taken
out afterwards, or in the same pass. -/
def goesBeforeEnd (name other : Text) : Bool :=
  contentRules.tails.any fun
    | rule :: later =>
        rule.takesBefore name ('/' :: other) && (rule :: later).any fun rule => rule.namesEnd other
    | [] => false

/-- What has to hold of an end tag and of the tokens behind it. A start tag behind the end tags
that follow implies it, if it may come to stand in front of this start tag and these end tags are
implied as well. It is not repeated before all other end tags that may be taken out are over. And a
`tbody` without attributes begins directly behind that of a `thead`, or behind no part of a
table. -/
structure IsSupplied (name : Text) (later : List Token) : Prop where
  start : ∀ next ∈ startName? (behindEnds later),
    (∀ ended ∈ endNames later, ended ∈ Element.impliedEnds next) →
    (goesBeforeStart name next = true ∨ ∃ other ∈ endNames later,
      goesBeforeEnd name other = true) →
      name ∈ Element.impliedEnds next
  other : name ∉ (endNames later).takeWhile isOptionalEnd
  apart : name ∈ sectionNames →
    (behindEnds later).head? = some (.startTag "tbody".toList [] false) →
      name = "thead".toList ∧ endNames later = []

instance (name : Text) (later : List Token) : Decidable (IsSupplied name later) :=
  decidable_of_iff (_ ∧ _ ∧ _) ⟨fun ⟨start, other, apart⟩ => ⟨start, other, apart⟩,
    fun ⟨start, other, apart⟩ => ⟨start, other, apart⟩⟩

/-- Whether the end tag that tokens begin with, if they do, is supplied by what follows it. -/
def BeginsSupplied : List Token → Prop
  | .endTag name :: later => IsSupplied name later
  | _ => True

instance : DecidablePred BeginsSupplied := fun tokens => by
  unfold BeginsSupplied
  split <;> infer_instance

/-- Every end tag is supplied by what follows it. -/
def EndsSupplied (tokens : List Token) : Prop := ∀ later ∈ tokens.tails, BeginsSupplied later

instance : DecidablePred EndsSupplied := fun tokens =>
  inferInstanceAs (Decidable (∀ later ∈ tokens.tails, BeginsSupplied later))

theorem EndsSupplied.isSupplied {tokens : List Token} (supplied : EndsSupplied tokens)
    {name : Text} {later : List Token} (inside : .endTag name :: later <:+ tokens) :
    IsSupplied name later := by
  have begins := supplied _ ((List.mem_tails _ _).2 inside)
  rwa [BeginsSupplied] at begins

theorem EndsSupplied.suffix {tokens later : List Token} (supplied : EndsSupplied tokens)
    (inside : later <:+ tokens) : EndsSupplied later :=
  fun rest member =>
    supplied rest ((List.mem_tails _ _).2 (((List.mem_tails _ _).1 member).trans inside))

/-! ## Cells that consist of end tags -/

/-- The name of the end tag of a cell. -/
def endName? (cell : Cell) : Option Text :=
  match cell.mark with
  | .closing name => some name
  | _ => none

/-- An end tag is all there is to see of its cell. -/
theorem strokes_of_closing {name run : Text} (blank : ∀ c ∈ run, Text.isBlank c = true) :
    (Cell.mk (.closing name) run).strokes = [.endTag name] := by
  have none : Event.solid run = [] := by
    rw [Event.solid, List.filter_eq_nil_iff]
    intro c inside
    simp [blank c inside]
  rw [Cell.strokes, letterTokens, none]
  rfl

/-- An end tag that is all there is to see of its cell is seen in front of the other cells. -/
theorem endTag_suffix {name run : Text} (blank : ∀ c ∈ run, Text.isBlank c = true)
    (earlier later : List Cell) : .endTag name :: later.flatMap Cell.strokes <:+
      (earlier ++ ⟨.closing name, run⟩ :: later).flatMap Cell.strokes := by
  rw [List.flatMap_append, List.flatMap_cons, strokes_of_closing blank]
  exact List.suffix_append _ _

section
variable {between : List Cell} (ends : ∀ cell ∈ between, IsBareEnd cell) (later : List Cell)
include ends

/-- End tags are read in front of what follows them. -/
theorem strokes_append : (between ++ later).flatMap Cell.strokes =
    (between.filterMap endName?).map Token.endTag ++ later.flatMap Cell.strokes := by
  induction between with
  | nil => rfl
  | cons cell between ih =>
      obtain ⟨⟨name, same, blank⟩, others⟩ := List.forall_mem_cons.1 ends
      obtain ⟨mark, run⟩ := cell
      obtain rfl : mark = .closing name := same
      have first : endName? ⟨.closing name, run⟩ = some name := rfl
      rw [List.cons_append, List.flatMap_cons, strokes_of_closing blank, ih others,
        List.filterMap_cons_some first, List.map_cons]
      rfl

theorem endNames_strokes_append : endNames ((between ++ later).flatMap Cell.strokes) =
    between.filterMap endName? ++ endNames (later.flatMap Cell.strokes) := by
  rw [strokes_append ends]
  induction between.filterMap endName? with
  | nil => rfl
  | cons name names ih => rw [List.map_cons, List.cons_append, endNames, ih, List.cons_append]

theorem behindEnds_strokes_append : behindEnds ((between ++ later).flatMap Cell.strokes) =
    behindEnds (later.flatMap Cell.strokes) := by
  rw [strokes_append ends]
  induction between.filterMap endName? with
  | nil => rfl
  | cons name names ih => rw [List.map_cons, List.cons_append, behindEnds, ih]

end

/-- Parts of a table are apart if every end tag is supplied. -/
theorem EndsSupplied.sectionsApart {cells : List Cell}
    (supplied : EndsSupplied (cells.flatMap Cell.strokes)) : SectionsApart cells := by
  rintro earlier ⟨mark, run⟩ between ⟨nextMark, nextRun⟩ later name rfl same isSection blank ends
    opens
  obtain rfl : mark = .closing name := same
  obtain rfl : nextMark = .opening "tbody".toList [] := opens
  have apart := (supplied.isSupplied (endTag_suffix blank earlier _)).apart isSection
  rw [endNames_strokes_append ends, behindEnds_strokes_append ends] at apart
  obtain ⟨isThead, none⟩ := apart rfl
  have noNames := (List.append_eq_nil_iff.1 none).1
  refine ⟨isThead, ?_⟩
  cases between with
  | nil => rfl
  | cons other between =>
      obtain ⟨otherName, sameName, _⟩ := ends other List.mem_cons_self
      rw [List.filterMap_cons_some (b := otherName) (by rw [endName?, sameName])] at noNames
      cases noNames

/-! ## What is left behind end tags -/

/-- A cell is taken out by one of some rules, which is given what the rules before it have left of
the cells behind. -/
def Falls (used : List Rule) (cell : Cell) (later : List Cell) : Prop :=
  ∃ earlier rule remaining, used = earlier ++ rule :: remaining ∧
    rule.drops cell (thinAll earlier later) = true

/-- What falls by some rules falls by more rules. -/
theorem Falls.append {used : List Rule} {cell : Cell} {later : List Cell}
    (falls : Falls used cell later) (more : List Rule) : Falls (used ++ more) cell later := by
  obtain ⟨earlier, rule, remaining, rfl, drops⟩ := falls
  exact ⟨earlier, rule, remaining ++ more, by simp, drops⟩

theorem thinAll_nil (used : List Rule) : thinAll used [] = [] := by
  induction used with
  | nil => rfl
  | cons rule used ih => exact ih

/-- The rules leave a cell in front of what they leave of the others, or the cell falls. -/
theorem thinAll_cons (used : List Rule) (cell : Cell) (later : List Cell) :
    (Falls used cell later ∧ thinAll used (cell :: later) = thinAll used later) ∨
      (¬Falls used cell later ∧ thinAll used (cell :: later) = cell :: thinAll used later) := by
  induction used using List.reverseRecOn with
  | nil => exact .inr ⟨by rintro ⟨_, _, _, none, _⟩; simp at none, rfl⟩
  | append_singleton used rule ih =>
      have step : ∀ cells, thinAll (used ++ [rule]) cells = rule.thin (thinAll used cells) := by
        intro cells
        rw [thinAll, List.foldl_append]
        rfl
      rcases ih with ⟨falls, same⟩ | ⟨stays, same⟩
      · exact .inl ⟨falls.append [rule], by rw [step, step, same]⟩
      · rw [step, step, same, Rule.thin]
        cases drops : rule.drops cell (thinAll used later) with
        | true => exact .inl ⟨⟨used, rule, [], rfl, drops⟩, by rw [if_pos rfl]⟩
        | false =>
            refine .inr ⟨?_, by rw [if_neg Bool.false_ne_true]⟩
            rintro ⟨earlier, other, remaining, parts, otherDrops⟩
            rcases List.eq_nil_or_concat remaining with rfl | ⟨front, last, rfl⟩
            · obtain ⟨rfl, same⟩ := List.append_inj' parts rfl
              obtain rfl := (List.cons.inj same).1
              rw [drops] at otherDrops
              cases otherDrops
            · rw [List.concat_eq_append, ← List.cons_append, ← List.append_assoc] at parts
              obtain ⟨rfl, _⟩ := List.append_inj' parts rfl
              exact stays ⟨earlier, other, front, rfl, otherDrops⟩

/-- A cell stays, and those in front of it fall. -/
inductive Remains (used : List Rule) (kept : Cell) (later : List Cell) : List Cell → Prop
  | here (stays : ¬Falls used kept later) : Remains used kept later []
  | behind {cell : Cell} {between : List Cell}
      (falls : Falls used cell (between ++ kept :: later)) :
      Remains used kept later between → Remains used kept later (cell :: between)

/-- In front of a cell that stays, a part of the rules leaves this cell, or first one that falls by
the other rules. -/
theorem Remains.exists_head {used : List Rule} {kept : Cell} {later between : List Cell}
    (remains : Remains used kept later between) {earlier remaining : List Rule}
    (parts : used = earlier ++ remaining) :
    ∃ first others, thinAll earlier (between ++ kept :: later) = first :: others ∧
      (first = kept ∨ first ∈ between ∧ ∃ rule ∈ remaining, ∃ rest, rule.drops first rest =
      true) := by
  induction remains with
  | here stays =>
      rcases thinAll_cons earlier kept later with ⟨falls, _⟩ | ⟨_, same⟩
      · exact absurd (by rw [parts]; exact falls.append remaining) stays
      · exact ⟨kept, _, same, .inl rfl⟩
  | @behind cell between falls _ ih =>
      rcases thinAll_cons earlier cell (between ++ kept :: later) with ⟨_, same⟩ | ⟨stays, same⟩
      · obtain ⟨first, others, thinned, origin⟩ := ih
        refine ⟨first, others, same.trans thinned, origin.imp_right fun found => ?_⟩
        exact ⟨List.mem_cons_of_mem _ found.1, found.2⟩
      · refine ⟨cell, _, same, .inr ⟨List.mem_cons_self, ?_⟩⟩
        obtain ⟨front, rule, back, split, drops⟩ := falls
        refine ⟨rule, ?_, _, drops⟩
        rw [parts] at split
        rcases List.append_eq_append_iff.1 split with ⟨more, _, same⟩ | ⟨more, early, same⟩
        · rw [same]
          simp
        · cases more with
          | nil =>
              rw [List.nil_append] at same
              rw [← same]
              exact List.mem_cons_self
          | cons other more =>
              obtain ⟨rfl, _⟩ := List.cons.inj same
              exact absurd ⟨front, rule, more, early, drops⟩ stays

/-! ## What supplies an end tag -/

/-- A mark supplies the end of an element that is still open: its start tag implies the end, or it
is the end tag of another element. -/
inductive Supplies (name : Text) : Mark → Prop
  | start {mark : Mark} {next : Text} {attributes : List (Text × Option Text)}
      (opens : mark.startTag? = some (next, attributes))
      (implied : name ∈ Element.impliedEnds next) : Supplies name mark
  | closing {other : Text} (differs : name ≠ other) : Supplies name (.closing other)

/-- What a rule accepts begins with a start tag or an end tag, of which only the name counts. -/
theorem exists_of_accepts_render {rule : Rule} (member : rule ∈ rules) {mark : Mark}
    (named : IsNamedMark mark) {rest : Text}
    (accepted : rule.accepts (mark.render ++ rest) = true) :
    (∃ next attributes, mark.startTag? = some (next, attributes) ∧
        rule.accepts ('<' :: (next ++ ['>'])) = true) ∨
      ∃ other, mark = .closing other ∧ rule.accepts ('<' :: ('/' :: other ++ ['>'])) = true := by
  cases named with
  | opening named | void named =>
      rw [Mark.render, Rule.accepts_startTag member named] at accepted
      exact .inl ⟨_, _, rfl, accepted⟩
  | verbatim body named =>
      rw [Mark.render, List.append_assoc, Rule.accepts_startTag member named] at accepted
      exact .inl ⟨_, _, rfl, accepted⟩
  | closing named =>
      rw [Mark.render, Rule.accepts_endTag member] at accepted
      exact .inr ⟨_, rfl, accepted⟩
  | comment body =>
      rw [Mark.render, Rule.accepts_comment member] at accepted
      cases accepted

/-- What a rule for the content drops is an optional end tag, blanks aside. -/
theorem exists_of_drops_content {rule : Rule} (member : rule ∈ contentRules) {cell : Cell}
    {later : List Cell} (solid : ∀ c ∈ cell.run, c ≠ '<') (drops : rule.drops cell later = true) :
    ∃ name, cell.mark = .closing name ∧ (∀ c ∈ cell.run, Text.isBlank c = true) ∧
      rule.namesEnd name = true ∧ rule.accepts (renderCells later) = true := by
  obtain ⟨name, same, names, bare, accepted⟩ :=
    exists_of_drops (mem_rules_of_mem_contentRules member) solid drops
  refine ⟨name, same, ?_, names, accepted⟩
  rcases bare with none | ⟨b, blank, one⟩
  · simp [none]
  · simp [one, blank]

/-- A cell with an optional end tag that a mark supplies. -/
def IsSuppliedEnd (mark : Mark) (cell : Cell) : Prop :=
  ∃ name, cell.mark = .closing name ∧ (∀ c ∈ cell.run, Text.isBlank c = true) ∧
    isOptionalEnd name = true ∧ Supplies name mark

theorem IsSuppliedEnd.isBareEnd {mark : Mark} {cell : Cell} (supplied : IsSuppliedEnd mark cell) :
    IsBareEnd cell := by
  obtain ⟨name, same, blank, _⟩ := supplied
  exact ⟨name, same, blank⟩

/-- The name that the strokes of a start tag begin with. -/
theorem startName?_strokes {cell : Cell} {next : Text} {attributes : List (Text × Option Text)}
    (opens : cell.mark.startTag? = some (next, attributes)) (rest : List Token) :
    startName? (behindEnds (cell.strokes ++ rest)) = some next ∧
      endNames (cell.strokes ++ rest) = [] := by
  obtain ⟨mark, run⟩ := cell
  cases mark with
  | opening | void | verbatim =>
      cases opens
      exact ⟨rfl, rfl⟩
  | closing | comment => cases opens

section
variable {kept : Cell} {later between : List Cell} {name : Text}
  (ends : ∀ cell ∈ between, IsSuppliedEnd kept.mark cell)
  (here : IsSupplied name ((between ++ kept :: later).flatMap Cell.strokes))
include ends here

/-- An end tag is supplied by a start tag behind end tags that this start tag supplies. -/
theorem IsSupplied.mem_impliedEnds {next : Text} {attributes : List (Text × Option Text)}
    (opens : kept.mark.startTag? = some (next, attributes))
    (goes : goesBeforeStart name next = true ∨
      ∃ cell ∈ between, ∃ other, cell.mark = .closing other ∧ goesBeforeEnd name other = true) :
    name ∈ Element.impliedEnds next := by
  have bare : ∀ cell ∈ between, IsBareEnd cell := fun cell inside => (ends cell inside).isBareEnd
  obtain ⟨begins, none⟩ := startName?_strokes opens (later.flatMap Cell.strokes)
  have names : endNames ((between ++ kept :: later).flatMap Cell.strokes) =
      between.filterMap endName? := by
    rw [endNames_strokes_append bare, List.flatMap_cons, none, List.append_nil]
  refine here.start next ?_ ?_ ?_
  · rw [behindEnds_strokes_append bare, List.flatMap_cons, begins]
    rfl
  · intro ended member
    rw [names] at member
    obtain ⟨cell, inside, same⟩ := List.mem_filterMap.1 member
    obtain ⟨other, closes, _, _, supplies⟩ := ends cell inside
    rw [endName?, closes] at same
    obtain rfl := Option.some.inj same
    generalize kept.mark = mark at opens supplies
    cases supplies with
    | start opens' implied =>
        rw [opens] at opens'
        cases opens'
        exact implied
    | closing differs => cases opens
  · refine goes.imp_right ?_
    rintro ⟨cell, inside, other, closes, before⟩
    rw [names]
    exact ⟨other, List.mem_filterMap.2 ⟨cell, inside, by rw [endName?, closes]⟩, before⟩

/-- An optional end tag is not repeated behind other end tags that are supplied. -/
theorem IsSupplied.ne_of_closing (optional : isOptionalEnd name = true) {other : Text}
    (closes : kept.mark = .closing other) : name ≠ other := by
  rintro rfl
  apply here.other
  obtain ⟨mark, run⟩ := kept
  obtain rfl : mark = .closing name := closes
  have bare : ∀ cell ∈ between, IsBareEnd cell := fun cell inside => (ends cell inside).isBareEnd
  have optionals : ∀ ended ∈ between.filterMap endName?, isOptionalEnd ended = true := by
    intro ended member
    obtain ⟨cell, inside, same⟩ := List.mem_filterMap.1 member
    obtain ⟨other, closes, _, optional, _⟩ := ends cell inside
    rw [endName?, closes] at same
    obtain rfl := Option.some.inj same
    exact optional
  have begins : ∃ names, endNames ((Cell.mk (.closing name) run :: later).flatMap Cell.strokes) =
      name :: names := ⟨_, rfl⟩
  obtain ⟨names, begins⟩ := begins
  rw [endNames_strokes_append bare, begins, List.takeWhile_append_of_pos optionals,
    List.takeWhile_cons_of_pos optional]
  simp

/-- Where an end tag in between may fall behind it, the cell that stays supplies an end tag. -/
theorem IsSupplied.supplies (optional : isOptionalEnd name = true) {first : Cell}
    (falls : first ∈ between) {other : Text} (closes : first.mark = .closing other)
    (goes : goesBeforeEnd name other = true) : Supplies name kept.mark := by
  obtain ⟨_, _, _, _, supplies⟩ := ends first falls
  cases markIs : kept.mark with
  | comment body =>
      rw [markIs] at supplies
      cases supplies with
      | start opens implied => cases opens
  | closing last => exact .closing (here.ne_of_closing ends optional markIs)
  | opening | void | verbatim =>
      have opens := congrArg Mark.startTag? markIs
      rw [← markIs]
      exact .start opens
        (here.mem_impliedEnds ends opens (.inr ⟨first, falls, other, closes, goes⟩))

end

/-- A rule takes out an end tag in front of another one that this rule or a later one takes out. -/
theorem goesBeforeEnd_of_takesBefore {earlier remaining : List Rule} {rule later : Rule}
    (parts : contentRules = earlier ++ rule :: remaining) {name other : Text}
    (before : rule.takesBefore name ('/' :: other) = true) (inLater : later ∈ rule :: remaining)
    (names : later.namesEnd other = true) : goesBeforeEnd name other = true :=
  List.any_eq_true.2 ⟨rule :: remaining, (List.mem_tails _ _).2 ⟨earlier, parts.symm⟩,
    Bool.and_eq_true_iff.2 ⟨before, List.any_eq_true.2 ⟨later, inLater, names⟩⟩⟩

/-- The cell that stays supplies the end tags of the cells that fall in front of it. -/
theorem Remains.isSuppliedEnd {kept : Cell} {later between : List Cell}
    (remains : Remains contentRules kept later between)
    (named : ∀ cell ∈ between ++ kept :: later, IsNamedMark cell.mark)
    (solid : ∀ cell ∈ between ++ kept :: later, ∀ c ∈ cell.run, c ≠ '<')
    (supplied : EndsSupplied ((between ++ kept :: later).flatMap Cell.strokes)) :
    ∀ cell ∈ between, IsSuppliedEnd kept.mark cell := by
  induction remains with
  | here stays => exact List.forall_mem_nil _
  | @behind cell between falls remains ih =>
      obtain ⟨_, laterNamed⟩ := List.forall_mem_cons.1 named
      obtain ⟨firstSolid, laterSolid⟩ := List.forall_mem_cons.1 solid
      rw [List.cons_append, List.flatMap_cons] at supplied
      have others := ih laterNamed laterSolid (supplied.suffix (List.suffix_append _ _))
      refine List.forall_mem_cons.2 ⟨?_, others⟩
      obtain ⟨earlier, rule, remaining, parts, drops⟩ := falls
      have member : rule ∈ contentRules := by simp [parts]
      obtain ⟨name, same, blank, names, accepted⟩ :=
        exists_of_drops_content member firstSolid drops
      have optional : isOptionalEnd name = true := List.any_eq_true.2 ⟨rule, member, names⟩
      refine ⟨name, same, blank, optional, ?_⟩
      -- What has to hold of this end tag.
      obtain ⟨mark, run⟩ := cell
      obtain rfl : mark = .closing name := same
      rw [strokes_of_closing blank] at supplied
      have here := supplied.isSupplied (List.suffix_refl _)
      -- The rule accepts the cell that stays, or an end tag that falls by this rule or a later
      -- one.
      obtain ⟨first, _, thinned, origin⟩ := remains.exists_head parts
      have inside : first ∈ between ++ kept :: later := by
        rcases origin with rfl | ⟨inside, _⟩ <;> simp [*]
      rw [thinned, renderCells_cons] at accepted
      rcases exists_of_accepts_render (mem_rules_of_mem_contentRules member)
        (laterNamed first inside) accepted with ⟨next, attributes, opens, takes⟩ |
          ⟨other, closes, takes⟩
      · have before : rule.takesBefore name next = true := Bool.and_eq_true_iff.2 ⟨names, takes⟩
        rcases origin with rfl | ⟨falls, _⟩
        · exact .start opens (here.mem_impliedEnds others opens
            (.inl (List.any_eq_true.2 ⟨rule, member, before⟩)))
        · obtain ⟨other, closes, _⟩ := others first falls
          rw [closes] at opens
          cases opens
      · rcases origin with rfl | ⟨falls, later', inLater, rest, drops'⟩
        · rw [closes]
          exact .closing (here.ne_of_closing others optional closes)
        · have inContent : later' ∈ contentRules := by
            rw [parts]
            exact List.mem_append_right _ inLater
          obtain ⟨_, closes', _, names', _⟩ := exists_of_drops_content inContent
            (laterSolid first inside) drops'
          rw [closes] at closes'
          obtain rfl := Mark.closing.inj closes'
          have before : rule.takesBefore name ('/' :: other) = true :=
            Bool.and_eq_true_iff.2 ⟨names, takes⟩
          exact here.supplies others optional falls closes
            (goesBeforeEnd_of_takesBefore parts before inLater names')

/-! ## Tokens that are left -/

/-- The same tokens may stand in front. -/
theorem omitted_append (tokens : List Token) {all kept : List Token}
    (omitted : Omitted [] all kept) :
    Omitted [] (tokens ++ all) (tokens ++ kept) := by
  induction tokens with
  | nil => exact omitted
  | cons token tokens ih =>
      cases token with
      | startTag name attributes selfClosing => exact .opens (List.forall_mem_nil _) ih
      | endTag name => exact .closes List.not_mem_nil ih
      | doctype | comment | cdata | text => exact .shows rfl ih

/-- A cell that supplies all pending ends may stand in front. -/
theorem omitted_cell {pending : List Text} {cell : Cell}
    (supplies : ∀ name ∈ pending, Supplies name cell.mark) {all kept : List Token}
    (omitted : Omitted [] all kept) :
    Omitted pending (cell.strokes ++ all) (cell.strokes ++ kept) := by
  obtain ⟨mark, run⟩ := cell
  have start : ∀ {next : Text} {attributes : List (Text × Option Text)} (selfClosing : Bool)
      (tokens : List Token), mark.startTag? = some (next, attributes) →
      Omitted pending (.startTag next attributes selfClosing :: (tokens ++ all))
        (.startTag next attributes selfClosing :: (tokens ++ kept)) := by
    intro next attributes selfClosing tokens opens
    refine .opens (fun name member => ?_) (omitted_append tokens omitted)
    have supplied := supplies name member
    generalize mark = mark at opens supplied
    cases supplied with
    | start opens' implied =>
        rw [opens] at opens'
        cases opens'
        exact implied
    | closing differs => cases opens
  cases mark with
  | opening name attributes => exact start false _ rfl
  | void name attributes => exact start true _ rfl
  | verbatim name attributes body => exact start false _ rfl
  | closing other =>
      refine .closes (fun member => ?_) (omitted_append _ omitted)
      cases supplies other member with
      | start opens implied => cases opens
      | closing differs => exact differs rfl
  | comment body =>
      cases pending with
      | nil => exact omitted_append _ omitted
      | cons name pending =>
          cases supplies name List.mem_cons_self with
          | start opens implied => cases opens

/-- The rules for the content leave of cells what a reader reads as all of them, if every end tag
is supplied. -/
theorem omitted_thinAll {cells : List Cell} (named : ∀ cell ∈ cells, IsNamedMark cell.mark)
    (solid : ∀ cell ∈ cells, ∀ c ∈ cell.run, c ≠ '<')
    (supplied : EndsSupplied (cells.flatMap Cell.strokes)) {pending : List Text}
    (owed : ∀ kept between later, cells = between ++ kept :: later →
      Remains contentRules kept later between → ∀ name ∈ pending, Supplies name kept.mark) :
    Omitted pending (cells.flatMap Cell.strokes)
      ((thinAll contentRules cells).flatMap Cell.strokes) := by
  induction cells generalizing pending with
  | nil =>
      rw [thinAll_nil]
      exact .done pending
  | cons cell cells ih =>
      obtain ⟨_, laterNamed⟩ := List.forall_mem_cons.1 named
      obtain ⟨firstSolid, laterSolid⟩ := List.forall_mem_cons.1 solid
      have others := fun pending => @ih laterNamed laterSolid
        (supplied.suffix (List.suffix_append _ _)) pending
      rcases thinAll_cons contentRules cell cells with ⟨falls, same⟩ | ⟨stays, same⟩
      · obtain ⟨earlier, rule, remaining, parts, drops⟩ := id falls
        have member : rule ∈ contentRules := by simp [parts]
        obtain ⟨name, closes, blank, _⟩ := exists_of_drops_content member firstSolid drops
        obtain ⟨mark, run⟩ := cell
        obtain rfl : mark = .closing name := closes
        rw [same, List.flatMap_cons, strokes_of_closing blank, List.singleton_append]
        refine .out (others (pending ++ [name]) ?_)
        rintro kept between later rfl remains other inside
        have behind := Remains.behind falls remains
        rcases List.mem_append.1 inside with waiting | new
        · exact owed kept (_ :: between) later rfl behind other waiting
        · obtain rfl := List.mem_singleton.1 new
          obtain ⟨name, closes, _, _, supplies⟩ :=
            behind.isSuppliedEnd named solid supplied _ List.mem_cons_self
          obtain rfl := Mark.closing.inj closes
          exact supplies
      · rw [same, List.flatMap_cons, List.flatMap_cons]
        refine omitted_cell (owed cell [] cells rfl (.here stays)) (others [] ?_)
        exact fun _ _ _ _ _ => List.forall_mem_nil _

end HtmlMinifier.OptionalTag

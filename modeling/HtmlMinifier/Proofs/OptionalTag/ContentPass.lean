/-
# Passing over the content of a document

The rules behind those for the skeleton are used one after the other, each on what the others have
left. Almost all of them are for end tags. The exceptions find nothing to take out in a document
without column groups, apart from one: the start tag of `tbody` is taken out behind the end tag of
another part of the table. Behind that of `thead` it never is, because the rule before takes that
end tag out, and behind the others it must not stand.
-/
import HtmlMinifier.Proofs.OptionalTag.EndTag

namespace HtmlMinifier.OptionalTag

open Canonical (Mark Piece Cell IsNamedMark AreNamed renderCells renderCells_cons)

/-! ## What is left behind a cell -/

/-- A cell that consists of an end tag, blanks aside. -/
def IsBareEnd (cell : Cell) : Prop :=
  ∃ name, cell.mark = .closing name ∧ ∀ c ∈ cell.run, Text.isBlank c = true

section
variable {rule : Rule} {cells : List Cell}

/-- A cell that is left stood in front of what the others are left of. -/
theorem exists_of_thin_eq_append {earlier later : List Cell} {cell : Cell}
    (left : rule.thin cells = earlier ++ cell :: later) :
    ∃ earlier' later', cells = earlier' ++ cell :: later' ∧ rule.drops cell later' = false ∧
      rule.thin later' = later := by
  induction cells generalizing earlier with
  | nil => simp [Rule.thin] at left
  | cons first cells ih =>
      rw [Rule.thin] at left
      cases drops : rule.drops first cells with
      | true =>
          rw [drops, if_pos rfl] at left
          obtain ⟨earlier', later', parts, keeps, rest⟩ := ih left
          exact ⟨first :: earlier', later', by rw [parts, List.cons_append], keeps, rest⟩
      | false =>
          rw [drops, if_neg Bool.false_ne_true] at left
          cases earlier with
          | nil =>
              obtain ⟨rfl, rest⟩ := List.cons.inj left
              exact ⟨[], cells, rfl, drops, rest⟩
          | cons other earlier =>
              obtain ⟨rfl, rest⟩ := List.cons.inj left
              obtain ⟨earlier', later', parts, keeps, rest⟩ := ih rest
              exact ⟨first :: earlier', later', by rw [parts, List.cons_append], keeps, rest⟩

/-- Only end tags are missing in front of a cell that is left. -/
theorem exists_of_thin_eq_cons (member : rule ∈ rules)
    (solid : ∀ cell ∈ cells, ∀ c ∈ cell.run, c ≠ '<') {between later : List Cell} {next : Cell}
    (ends : ∀ cell ∈ between, IsBareEnd cell) (left : rule.thin cells = between ++ next :: later) :
    ∃ between' later', cells = between' ++ next :: later' ∧ (∀ cell ∈ between', IsBareEnd cell) ∧
      between.Sublist between' := by
  induction cells generalizing between with
  | nil => simp [Rule.thin] at left
  | cons first cells ih =>
      obtain ⟨firstSolid, others⟩ := List.forall_mem_cons.1 solid
      rw [Rule.thin] at left
      cases drops : rule.drops first cells with
      | true =>
          rw [drops, if_pos rfl] at left
          obtain ⟨name, same, _, bare, _⟩ := exists_of_drops member firstSolid drops
          have blank : ∀ c ∈ first.run, Text.isBlank c = true := by
            rcases bare with none | ⟨b, isBlank, one⟩
            · simp [none]
            · simp [one, isBlank]
          obtain ⟨between', later', parts, bareEnds, fewer⟩ := ih others ends left
          exact ⟨first :: between', later', by rw [parts, List.cons_append],
            List.forall_mem_cons.2 ⟨⟨name, same, blank⟩, bareEnds⟩, fewer.cons first⟩
      | false =>
          rw [drops, if_neg Bool.false_ne_true] at left
          cases between with
          | nil =>
              obtain ⟨rfl, rest⟩ := List.cons.inj left
              exact ⟨[], cells, rfl, List.forall_mem_nil _, List.Sublist.refl []⟩
          | cons other between =>
              obtain ⟨rfl, rest⟩ := List.cons.inj left
              obtain ⟨isEnd, ends⟩ := List.forall_mem_cons.1 ends
              obtain ⟨between', later', parts, bareEnds, fewer⟩ := ih others ends rest
              exact ⟨first :: between', later', by rw [parts, List.cons_append],
                List.forall_mem_cons.2 ⟨isEnd, bareEnds⟩, fewer.cons_cons first⟩

end

/-! ## Parts of a table -/

/-- The elements whose end tags allow the start tag of `tbody` to be left out. -/
def sectionNames : List Text := ["thead", "tbody", "tfoot"].map String.toList

/-- Whether a bare start tag of `tbody` stands behind no end of a part of a table, but directly
behind that of `thead`. -/
def SectionsApart (cells : List Cell) : Prop :=
  ∀ earlier cell between next later name,
    cells = earlier ++ cell :: (between ++ next :: later) →
    cell.mark = .closing name → name ∈ sectionNames → (∀ c ∈ cell.run, Text.isBlank c = true) →
    (∀ other ∈ between, IsBareEnd other) → next.mark = .opening "tbody".toList [] →
    name = "thead".toList ∧ between = []

/-- Parts of a table stay apart when end tags are left out. -/
theorem SectionsApart.thin {rule : Rule} (member : rule ∈ rules) {cells : List Cell}
    (solid : ∀ cell ∈ cells, ∀ c ∈ cell.run, c ≠ '<') (apart : SectionsApart cells) :
    SectionsApart (rule.thin cells) := by
  intro earlier cell between next later name left same isSection blank ends opens
  obtain ⟨earlier', later', rfl, _, rest⟩ := exists_of_thin_eq_append left
  have laterSolid : ∀ cell ∈ later', ∀ c ∈ cell.run, c ≠ '<' := fun other inside =>
    solid other (List.mem_append_right _ (List.mem_cons_of_mem _ inside))
  obtain ⟨between', later'', rfl, ends', fewer⟩ :=
    exists_of_thin_eq_cons member laterSolid ends rest
  obtain ⟨isThead, none⟩ := apart earlier' cell between' next later'' name rfl same isSection blank
    ends' opens
  rw [none] at fewer
  exact ⟨isThead, List.sublist_nil.1 fewer⟩

/-! ## In front of a tag -/

/-- No end tag that a rule looks for is found in text without a bracket. -/
theorem endsFolded_of_solid (literal : Text) {text : Text} (solid : ∀ c ∈ text, c ≠ '<') :
    endsFolded ('<' :: literal) text = false := by
  rw [Bool.eq_false_iff]
  intro found
  obtain ⟨c, member, same⟩ := exists_mem_of_startsFolded found '<' (by simp)
  exact solid c member ((Text.toLower_eq_iff (by decide) (by decide) c).1 same.symm)

section
variable {name : Text} (context : name ∈ contextNames)
include context

/-- Behind an end tag and a run stands the end tag that a rule looks for only if it is this one and
the run is empty. -/
theorem eq_of_endsFolded_endTag {other : Text} (named : Token.IsTagName other) {run before : Text}
    (solid : ∀ c ∈ run, c ≠ '<') (ends : endsFolded ('<' :: ('/' :: name ++ ['>']))
      (run.reverse ++ ((Piece.endTag other).render.reverse ++ before)) = true) :
    other = name ∧ run = [] := by
  have absent := ne_bracket_of_context context
  have table : ∀ name ∈ contextNames, Text.lower name = name ∧ ∀ c ∈ name, c ≠ '>' := by
    simp [contextNames, Text.lower]
  obtain ⟨lower, noClose⟩ := table name context
  have wholeSolid : ∀ c ∈ '/' :: other ++ '>' :: run, c ≠ '<' := by
    intro c member
    rcases List.mem_append.1 member with front | back
    · rcases List.mem_cons.1 front with rfl | inName
      · decide
      · exact Token.ne_of_isNameChar (named.chars c inName) (by decide)
    · rcases List.mem_cons.1 back with rfl | inRun
      · decide
      · exact solid c inRun
  have parts : run.reverse ++ ((Piece.endTag other).render.reverse ++ before) =
      ('/' :: other ++ '>' :: run).reverse ++ '<' :: before := by
    simp [Piece.render]
  rw [parts, endsFolded_iff absent wholeSolid] at ends
  have same : name ++ '>' :: [] = other ++ '>' :: Text.lower run := by
    simp only [Text.lower, List.map_cons, List.map_append, List.cons_append, List.map_nil] at ends
    rw [← Text.lower, ← Text.lower, ← Text.lower, lower, named.lower] at ends
    exact (List.cons.inj ends).2
  obtain ⟨rfl, _, none⟩ := (List.append_cons_inj_of_notMem (fun inside => noClose '>' inside rfl)
    List.not_mem_nil).1 same
  exact ⟨rfl, List.map_eq_nil_iff.1 none.symm⟩

/-- Behind a start tag and a run stands no end tag that a rule looks for. -/
theorem endsFolded_startTag {other : Text} {attributes : List (Text × Option Text)}
    (named : Token.IsTagName other) (encoded : ∀ attr ∈ attributes, Token.IsEncodedAttribute attr)
    {run before : Text} (solid : ∀ c ∈ run, c ≠ '<') :
    endsFolded ('<' :: ('/' :: name ++ ['>']))
      (run.reverse ++ ((Piece.startTag other attributes).render.reverse ++ before)) = false := by
  rw [shields_startTag named encoded before run name context]
  exact endsFolded_of_solid _ fun c member => solid c (List.mem_reverse.1 member)

/-- Behind a comment and a run stands no end tag that a rule looks for. -/
theorem endsFolded_comment (body : Text) {run before : Text} (solid : ∀ c ∈ run, c ≠ '<') :
    endsFolded ('<' :: ('/' :: name ++ ['>']))
      (run.reverse ++ ((Piece.comment body).render.reverse ++ before)) = false := by
  have table : ∀ name ∈ contextNames, ∀ c ∈ name, c ≠ '-' := by simp [contextNames]
  have noDash : ∀ c ∈ ('<' :: ('/' :: name ++ ['>'])).reverse, c ≠ '-' := by
    simpa [or_imp, forall_and] using table name context
  have parts : run.reverse ++ ((Piece.comment body).render.reverse ++ before) =
      (run.reverse ++ ['>']) ++ '-' :: ('-' :: (body.reverse ++ ("<!--".toList.reverse ++
        before))) := by
    simp [Piece.render]
  rw [parts, endsFolded, startsFolded_append_cons (by decide) (by decide) noDash,
    ← endsFolded]
  refine endsFolded_of_solid _ fun c member => ?_
  simp only [List.mem_append, List.mem_reverse, List.mem_cons, List.not_mem_nil,
    or_false] at member
  rcases member with inRun | rfl
  · exact solid c inRun
  · decide

/-- Behind a mark and a run stands the end tag that a rule looks for only if the mark is this end
tag and the run is empty. -/
theorem eq_closing_of_endsFolded {mark : Mark} (named : IsNamedMark mark) {run before : Text}
    (solid : ∀ c ∈ run, c ≠ '<') (ends : endsFolded ('<' :: ('/' :: name ++ ['>']))
      (run.reverse ++ (mark.render.reverse ++ before)) = true) :
    mark = .closing name ∧ run = [] := by
  cases named with
  | opening named _ encoded | void named _ encoded =>
      rw [Mark.render, endsFolded_startTag context named encoded solid] at ends
      cases ends
  | closing named =>
      obtain ⟨rfl, none⟩ := eq_of_endsFolded_endTag context named solid ends
      exact ⟨rfl, none⟩
  | comment body =>
      rw [Mark.render, endsFolded_comment context body solid] at ends
      cases ends
  | @verbatim other attributes body named isVerbatim encoded =>
      have noVerbatim : ∀ name ∈ contextNames, Element.isVerbatim name = false := by decide
      rw [Mark.render, List.reverse_append, List.reverse_append, List.append_assoc,
        List.append_assoc] at ends
      obtain ⟨rfl, _⟩ := eq_of_endsFolded_endTag context named solid ends
      rw [noVerbatim _ context] at isVerbatim
      cases isVerbatim

/-- Behind the document type and cells stands the end tag that a rule looks for only if it is the
last cell. -/
theorem exists_of_endsFolded_cells {lead : Text} {cells : List Cell} (named : AreNamed lead cells)
    (ends : endsFolded ('<' :: ('/' :: name ++ ['>']))
      ((lead ++ renderCells cells).reverse ++ Element.doctype.reverse) = true) :
    ∃ front, cells = front ++ [⟨.closing name, []⟩] := by
  rcases List.eq_nil_or_concat cells with rfl | ⟨front, ⟨mark, run⟩, rfl⟩
  · have shields : Shields Element.doctype.reverse :=
      @shields_of_ne_slash '!' (by decide) "doctype html>".toList (by simp) []
    rw [Canonical.renderCells_nil, List.append_nil, shields lead name context,
      endsFolded_of_solid _ fun c member => named.lead c (List.mem_reverse.1 member)] at ends
    cases ends
  · rw [List.concat_eq_append] at named ends
    have before : (lead ++ renderCells (front ++ [⟨mark, run⟩])).reverse ++
        Element.doctype.reverse =
        run.reverse ++ (mark.render.reverse ++ ((lead ++ renderCells front).reverse ++
          Element.doctype.reverse)) := by
      simp [Canonical.renderCells_concat]
    rw [before] at ends
    obtain ⟨rfl, rfl⟩ := eq_closing_of_endsFolded context (named.marks ⟨mark, run⟩ (by simp))
      (named.runs ⟨mark, run⟩ (by simp)) ends
    exact ⟨front, List.concat_eq_append⟩

end

/-! ## All passes -/

/-- The rule for the end tag of `thead`. -/
def theadEnd : Rule := Rule.before "thead-end" "/thead" [.starts ["<tbody", "<tfoot"]]

/-- The rule for the start tag of `tbody`. -/
def tbodyStart : Rule :=
  { Rule.before "tbody-start" "tbody" [.starts ["<tr"]] with
    precededBy := sectionNames.map fun name => '<' :: ('/' :: name ++ ['>']) }

/-- The one comes right before the other. -/
theorem contentRules_eq : contentRules =
    contentRules.take 12 ++ theadEnd :: tbodyStart :: contentRules.drop 14 := by
  decide

/-- The tags of column groups, and the end tags of void elements. -/
def idleTags : List Text :=
  "colgroup".toList :: "/colgroup".toList :: Element.voidNames.map fun name => '/' :: name

/-- A rule for the content is one for end tags, or it takes out nothing but these. -/
theorem mem_endRules_or_idle : ∀ rule ∈ contentRules,
    rule ∈ endRules ∨ rule = tbodyStart ∨ ∀ tag ∈ rule.tags, tag ∈ idleTags := by
  decide

/-- Cells in which the rules for the content find end tags of elements with content only. -/
structure ArePlain (lead : Text) (cells : List Cell) : Prop where
  named : AreNamed lead cells
  still : ∀ rule ∈ contentRules, ∀ cell ∈ cells, IsStill rule cell.mark
  busy : ∀ cell ∈ cells, ∀ tag, markTag? cell.mark = some tag → tag ∉ idleTags
  apart : SectionsApart cells

/-- A pass leaves plain cells. -/
theorem ArePlain.thin {lead : Text} {cells : List Cell} (plain : ArePlain lead cells) {rule : Rule}
    (member : rule ∈ rules) : ArePlain lead (rule.thin cells) where
  named :=
    have fewer := (rule.thin_sublist cells).subset
    ⟨plain.named.lead, fun cell inside => plain.named.marks cell (fewer inside),
      fun cell inside => plain.named.runs cell (fewer inside)⟩
  still := fun other listed cell inside =>
    plain.still other listed cell ((rule.thin_sublist cells).subset inside)
  busy := fun cell inside => plain.busy cell ((rule.thin_sublist cells).subset inside)
  apart := plain.apart.thin member plain.named.runs

/-- A rule that names no end tag drops no cell. -/
theorem Rule.thin_eq_self {rule : Rule} {cells : List Cell}
    (other : ∀ cell ∈ cells, ∀ name, cell.mark = .closing name → '/' :: name ∉ rule.tags) :
    rule.thin cells = cells := by
  induction cells with
  | nil => rfl
  | cons cell cells ih =>
      obtain ⟨first, others⟩ := List.forall_mem_cons.1 other
      have stays : rule.drops cell cells = false := by
        rw [Rule.drops]
        split
        · next name same =>
            rw [Bool.and_eq_false_iff]
            left
            rw [Rule.namesEnd, Bool.eq_false_iff]
            exact fun inside => first name same (List.contains_iff_mem.1 inside)
        · rfl
      rw [Rule.thin, stays, if_neg Bool.false_ne_true, ih others]

/-- A pass over plain cells leaves the cells that its rule does not drop. -/
theorem ArePlain.passAfter_eq {lead : Text} {cells : List Cell} (plain : ArePlain lead cells)
    {rule : Rule} (member : rule ∈ contentRules) (other : rule ≠ tbodyStart) (before : Text) :
    rule.passAfter before (lead ++ renderCells cells) = lead ++ renderCells (rule.thin cells) := by
  rcases mem_endRules_or_idle rule member with isEnd | isStart | idle
  · exact passAfter_cells isEnd plain.named (plain.still rule member) before
  · exact absurd isStart other
  · have none : rule.thin cells = cells := Rule.thin_eq_self fun cell inside name same inTags =>
      plain.busy cell inside ('/' :: name) (by rw [same]; rfl) (idle _ inTags)
    rw [none]
    refine passAfter_stays (mem_rules_of_mem_contentRules member)
      (plain_of_mem_contentRules rule member).2 plain.named (plain.still rule member) ?_
    intro earlier cell later parts tag same inTags
    have inside : cell ∈ cells := by simp [parts]
    exact absurd (idle tag inTags) (plain.busy cell inside tag same)

/-- A mark whose tag is the start tag of `tbody` opens a `tbody`. -/
theorem eq_opening_of_markTag? {mark : Mark} (named : IsNamedMark mark)
    (same : markTag? mark = some "tbody".toList) : mark = .opening "tbody".toList [] := by
  cases named with
  | @opening name attributes =>
      cases attributes with
      | nil => exact congrArg (fun name => Mark.opening name []) (Option.some.inj same)
      | cons attr attributes => cases same
  | @void name attributes named isVoid =>
      cases attributes with
      | nil =>
          obtain rfl : name = "tbody".toList := Option.some.inj same
          exact absurd isVoid (by decide)
      | cons attr attributes => cases same
  | closing named => cases same
  | verbatim body named | comment body => cases same

/-- In plain cells the end tag of a part of a table that stands right in front of a start tag of
`tbody` does not outlast the rule for the end tag of `thead`. -/
theorem ArePlain.ne_closing_of_thin {lead : Text} {cells : List Cell} (plain : ArePlain lead cells)
    {earlier later : List Cell} {name : Text} (isSection : name ∈ sectionNames) {next : Cell}
    (opens : next.mark = .opening "tbody".toList []) :
    theadEnd.thin cells ≠ earlier ++ ⟨.closing name, []⟩ :: next :: later := by
  intro left
  have member : theadEnd ∈ rules := by decide
  obtain ⟨earlier', later', rfl, keeps, rest⟩ := exists_of_thin_eq_append left
  have solid : ∀ cell ∈ later', ∀ c ∈ cell.run, c ≠ '<' := fun other inside =>
    plain.named.runs other (List.mem_append_right _ (List.mem_cons_of_mem _ inside))
  obtain ⟨between, later'', rfl, ends, _⟩ := exists_of_thin_eq_cons member solid
    (List.forall_mem_nil _) (show theadEnd.thin later' = [] ++ next :: later from rest)
  obtain ⟨rfl, rfl⟩ := plain.apart earlier' _ between next later'' name rfl rfl isSection
    (List.forall_mem_nil _) ends opens
  have drops : theadEnd.drops ⟨.closing "thead".toList, []⟩ (next :: later'') = true := by
    rw [drops_closing _ _ (.inl rfl), renderCells_cons, opens]
    rfl
  rw [List.nil_append, drops] at keeps
  cases keeps

/-- The rule for the start tag of `tbody` asks for the end of a part of a table in front. -/
theorem exists_of_allows_tbodyStart {before after : Text}
    (allowed : tbodyStart.allows before after = true) :
    ∃ name ∈ sectionNames, endsFolded ('<' :: ('/' :: name ++ ['>'])) before = true := by
  simp only [Rule.allows, Bool.and_eq_true] at allowed
  have found := allowed.1.1.1
  rw [Bool.or_eq_true, decide_eq_true_eq, List.any_eq_true] at found
  rcases found with none | ⟨literal, listed, ends⟩
  · cases none
  · obtain ⟨name, isSection, rfl⟩ := List.mem_map.1 listed
    exact ⟨name, isSection, ends⟩

/-- The rule for the start tag of `tbody` takes none out once that for the end tag of `thead` has
been used. -/
theorem ArePlain.passAfter_tbodyStart {lead : Text} {cells : List Cell}
    (plain : ArePlain lead cells) :
    tbodyStart.passAfter Element.doctype.reverse (lead ++ renderCells (theadEnd.thin cells)) =
      lead ++ renderCells (tbodyStart.thin (theadEnd.thin cells)) := by
  have member : tbodyStart ∈ contentRules := by decide
  have left : ArePlain lead (theadEnd.thin cells) := plain.thin (by decide)
  have none : tbodyStart.thin (theadEnd.thin cells) = theadEnd.thin cells :=
    Rule.thin_eq_self fun cell inside name same inTags => by
      cases List.mem_singleton.1 inTags
  rw [none]
  refine passAfter_stays (mem_rules_of_mem_contentRules member)
    (plain_of_mem_contentRules _ member).2 left.named (left.still _ member) ?_
  intro earlier next later parts tag same inTags
  obtain rfl := List.mem_singleton.1 inTags
  have opens := eq_opening_of_markTag? (left.named.marks next (by simp [parts])) same
  rw [Bool.eq_false_iff]
  intro allowed
  obtain ⟨name, isSection, ends⟩ := exists_of_allows_tbodyStart allowed
  have context : ∀ name ∈ sectionNames, name ∈ contextNames := by
    simp [sectionNames, contextNames]
  have before : AreNamed lead earlier :=
    ⟨left.named.lead, fun cell inside => left.named.marks cell (by simp [parts, inside]),
      fun cell inside => left.named.runs cell (by simp [parts, inside])⟩
  obtain ⟨front, rfl⟩ := exists_of_endsFolded_cells (context name isSection) before ends
  rw [List.append_assoc, List.singleton_append] at parts
  exact plain.ne_closing_of_thin isSection opens parts

/-- Rules for the content other than that for the start tag of `tbody` leave plain cells, those
that none of them drops. -/
theorem ArePlain.applyAll_eq {used : List Rule} (members : ∀ rule ∈ used, rule ∈ contentRules)
    (others : tbodyStart ∉ used) {lead : Text} {cells : List Cell} (plain : ArePlain lead cells) :
    applyAll used (Element.doctype ++ (lead ++ renderCells cells)) =
        Element.doctype ++ (lead ++ renderCells (thinAll used cells)) ∧
      ArePlain lead (thinAll used cells) := by
  induction used generalizing cells with
  | nil => exact ⟨rfl, plain⟩
  | cons rule used ih =>
      obtain ⟨member, members⟩ := List.forall_mem_cons.1 members
      have inRules := mem_rules_of_mem_contentRules member
      have other : rule ≠ tbodyStart := fun same => others (by rw [same]; exact List.mem_cons_self)
      obtain ⟨same, left⟩ := ih members (fun inside => others (List.mem_cons_of_mem _ inside))
        (plain.thin inRules)
      rw [applyAll_cons, pass_doctype inRules, plain.passAfter_eq member other]
      exact ⟨same, left⟩

/-- The rules for the content leave of plain cells those that none of them drops. -/
theorem ArePlain.applyAll_contentRules {lead : Text} {cells : List Cell}
    (plain : ArePlain lead cells) :
    applyAll contentRules (Element.doctype ++ (lead ++ renderCells cells)) =
      Element.doctype ++ (lead ++ renderCells (thinAll contentRules cells)) := by
  have front : ∀ rule ∈ contentRules.take 12, rule ∈ contentRules := fun rule =>
    List.mem_of_mem_take
  have back : ∀ rule ∈ contentRules.drop 14, rule ∈ contentRules :=
    fun rule => List.mem_of_mem_drop
  have endMember : theadEnd ∈ contentRules := by decide
  have startMember : tbodyStart ∈ contentRules := by decide
  obtain ⟨first, left⟩ := plain.applyAll_eq front (by decide)
  have ended := left.thin (mem_rules_of_mem_contentRules endMember)
  have started := ended.thin (mem_rules_of_mem_contentRules startMember)
  obtain ⟨last, _⟩ := started.applyAll_eq back (by decide)
  have text : ∀ front back text, applyAll (front ++ theadEnd :: tbodyStart :: back) text =
      applyAll back (tbodyStart.pass (theadEnd.pass (applyAll front text))) := by
    intro front back text
    rw [applyAll, List.foldl_append]
    rfl
  have kept : ∀ front back, thinAll (front ++ theadEnd :: tbodyStart :: back) cells =
      thinAll back (tbodyStart.thin (theadEnd.thin (thinAll front cells))) := by
    intro front back
    rw [thinAll, List.foldl_append]
    rfl
  rw [contentRules_eq, text, kept, first, pass_doctype (mem_rules_of_mem_contentRules endMember),
    left.passAfter_eq endMember (by decide),
      pass_doctype (mem_rules_of_mem_contentRules startMember),
    left.passAfter_tbodyStart, last]

end HtmlMinifier.OptionalTag

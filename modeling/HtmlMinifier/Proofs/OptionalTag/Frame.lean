/-
# Taking out the tags of the document skeleton

The first rules ask for nothing: they take out every tag of `html`, `head` and `body` that has no
attributes, wherever it stands. So a text is treated part by part, as long as no tag reaches from
one part into the next. Putting a document between the tags of `html` and `body` makes no
difference to what these rules leave.
-/
import HtmlMinifier.Proofs.OptionalTag.Separator

namespace HtmlMinifier.OptionalTag

open Canonical (Piece textOf)

/-! ## The rules in two parts -/

/-- The rules that take out a tag wherever it stands. -/
def frameRules : List Rule := (activeRules false).take 6

/-- The rules that look at what stands around a tag. -/
def contentRules : List Rule := (activeRules false).drop 6

theorem applyAll_cons (rule : Rule) (used : List Rule) (text : Text) :
    applyAll (rule :: used) text = applyAll used (rule.pass text) := rfl

/-- What every pass preserves between two texts holds between what all passes leave of them. -/
theorem applyAll_related {related : Text → Text → Prop} {used : List Rule}
    (each : ∀ rule ∈ used, ∀ text other, related text other → related (rule.pass text)
    (rule.pass other))
    {text other : Text} (first : related text other) :
    related (applyAll used text) (applyAll used other) := by
  induction used generalizing text other with
  | nil => exact first
  | cons rule used ih =>
      exact ih (fun later member => each later (List.mem_cons_of_mem rule member))
        (each rule List.mem_cons_self text other first)

/-- The rules for the document skeleton are used before the others. -/
theorem elide_eq (text : Text) :
    elide false text = applyAll contentRules (applyAll frameRules text) := by
  rw [elide, applyAll, applyAll, applyAll, ← List.foldl_append, frameRules, contentRules,
    List.take_append_drop]

theorem mem_rules_of_mem_frameRules {rule : Rule} (member : rule ∈ frameRules) : rule ∈ rules :=
  (List.mem_filter.1 ((List.take_sublist 6 _).subset member)).1

theorem mem_rules_of_mem_contentRules {rule : Rule} (member : rule ∈ contentRules) :
    rule ∈ rules :=
  (List.mem_filter.1 ((List.drop_sublist 6 _).subset member)).1

/-! ## One rule -/

/-- A start tag or an end tag as it is written. -/
inductive IsTag : Piece → Prop
  | startTag {name : Text} {attributes : List (Text × Option Text)} (named : Token.IsTagName name)
      (encoded : ∀ attr ∈ attributes, Token.IsEncodedAttribute attr) :
      IsTag (.startTag name attributes)
  | endTag {name : Text} (named : Token.IsTagName name) : IsTag (.endTag name)

theorem IsTag.plain {tag : Piece} (isTag : IsTag tag) : tag.IsPlain := by
  cases isTag with
  | startTag named encoded => exact .startTag named encoded
  | endTag named => exact .endTag named

theorem IsTag.noRun {tag : Piece} (isTag : IsTag tag) (verbatim : Bool) (text : Text) :
    tag ≠ .run verbatim text := by
  cases isTag <;> simp

/-- A tag begins with a bracket and has no further one. -/
theorem IsTag.exists_render {tag : Piece} (isTag : IsTag tag) :
    ∃ inside, tag.render = '<' :: inside ∧ ∀ c ∈ inside, c ≠ '<' :=
  isTag.plain.exists_render isTag.noRun

section
variable {rule : Rule} (member : rule ∈ frameRules)
include member

/-- A rule for the document skeleton is allowed its tag everywhere. -/
theorem isFree_of_mem_frameRules : rule.IsFree := by
  have unnamed : ∀ rule ∈ frameRules, rule.precededBy = [] ∧ rule.notPrecededBy = [] ∧
      rule.notFollowedBy = [] ∧ rule.followedBy = [] := by
    decide
  exact Rule.isFree_of_nil (mem_rules_of_mem_frameRules member) (unnamed rule member)

/-- Such a rule takes nothing along. -/
theorem trailingBlank_of_mem_frameRules : rule.trailingBlank = false := by
  have blanks : ∀ rule ∈ frameRules, rule.trailingBlank = false := by
    decide
  exact blanks rule member

omit member in
/-- A text without brackets is left alone. -/
theorem pass_of_solid {text : Text} (solid : ∀ c ∈ text, c ≠ '<') : rule.pass text = text :=
  Rule.passAfter_of_solid solid []

/-- Whether a rule takes out a tag wherever it stands. -/
def Rule.names (rule : Rule) (piece : Piece) : Bool := (tag? piece).any rule.tags.contains

/-- A written tag is taken out by the rule that names it, and every other rule leaves it alone. -/
theorem pass_tag {tag : Piece} (isTag : IsTag tag) (later : Text) :
    rule.pass (tag.render ++ later) = (if rule.names tag then [] else tag.render) ++
    rule.pass later := by
  have inRules := mem_rules_of_mem_frameRules member
  have free := isFree_of_mem_frameRules member
  rw [Rule.pass]
  cases named : rule.names tag with
  | true =>
      obtain ⟨word, same, inTags⟩ := (Option.any_eq_true _ _).1 named
      have leaves : rule.behind later = ([], later) := by
        rw [Rule.behind, trailingBlank_of_mem_frameRules member, if_neg Bool.false_ne_true]
      rw [Rule.passAfter_tag inRules isTag.plain same (List.contains_iff_mem.1 inTags)
          (free.allows _ _), leaves, free.passAfter_eq_pass]
      rfl
  | false =>
      rw [Rule.passAfter_piece isTag.plain, free.passAfter_eq_pass, if_neg Bool.false_ne_true]
      intro taken rest found
      exfalso
      obtain ⟨word, inTags, same, _⟩ := tag_of_match? inRules isTag.plain found isTag.noRun
      rw [Rule.names, same, Option.any_some, List.contains_iff_mem.2 inTags] at named
      cases named

/-- Written tags are treated one by one. -/
theorem pass_textOf_append {tags : List Piece} (plain : ∀ tag ∈ tags, IsTag tag) (later : Text) :
    rule.pass (textOf tags ++ later) =
      textOf (tags.filter fun tag => !rule.names tag) ++ rule.pass later := by
  induction tags with
  | nil => rfl
  | cons tag tags ih =>
      have first := plain tag List.mem_cons_self
      rw [Canonical.textOf_cons, List.append_assoc, pass_tag member first,
        ih fun other inside => plain other (List.mem_cons_of_mem tag inside)]
      cases named : rule.names tag with
      | true => rw [if_pos rfl, List.nil_append, List.filter_cons_of_neg (by simp [named])]
      | false =>
          rw [if_neg Bool.false_ne_true, List.filter_cons_of_pos (by simp [named]),
            Canonical.textOf_cons, List.append_assoc]

/-- A text between written tags is treated apart from them. -/
theorem pass_between {opens closes : List Piece} (plainOpens : ∀ tag ∈ opens, IsTag tag)
    (plainCloses : ∀ tag ∈ closes, IsTag tag) (text : Text) :
    rule.pass (Element.doctype ++ (textOf opens ++ (text ++ textOf closes))) =
      Element.doctype ++ (textOf (opens.filter fun tag => !rule.names tag) ++
        (rule.pass text ++ textOf (closes.filter fun tag => !rule.names tag))) := by
  have free := isFree_of_mem_frameRules member
  have behind : rule.pass (textOf closes) = textOf (closes.filter fun tag => !rule.names tag) := by
    have whole := pass_textOf_append member plainCloses []
    rw [List.append_nil] at whole
    rw [whole, Rule.pass, Rule.passAfter, List.append_nil]
  have split : rule.pass (text ++ textOf closes) = rule.pass text ++
      rule.pass (textOf closes) := by
    cases closes with
    | nil =>
        rw [Canonical.textOf_nil, Rule.pass, Rule.pass, Rule.pass, Rule.passAfter, List.append_nil,
          List.append_nil]
    | cons tag closes =>
        obtain ⟨inside, begins, _⟩ := (plainCloses tag List.mem_cons_self).exists_render
        rw [Canonical.textOf_cons, begins, List.cons_append]
        exact free.pass_append_separator bracket_mem_separators (.inr rfl) text _
  rw [pass_doctype free.inTable, free.passAfter_eq_pass, pass_textOf_append member plainOpens,
    split,
    behind]

end

/-! ## All rules -/

/-- Whether no rule for the skeleton names a tag. -/
def survives (used : List Rule) (tag : Piece) : Bool := used.all fun rule => !rule.names tag

/-- A text between written tags is treated apart from them. -/
theorem applyAll_between {used : List Rule} (inFrame : ∀ rule ∈ used, rule ∈ frameRules)
    {opens closes : List Piece} (plainOpens : ∀ tag ∈ opens, IsTag tag)
    (plainCloses : ∀ tag ∈ closes, IsTag tag) (text : Text) :
    applyAll used (Element.doctype ++ (textOf opens ++ (text ++ textOf closes))) =
      Element.doctype ++ (textOf (opens.filter (survives used)) ++
        (applyAll used text ++ textOf (closes.filter (survives used)))) := by
  induction used generalizing opens closes text with
  | nil =>
      have all : ∀ tags : List Piece, tags.filter (survives []) = tags := fun tags =>
        List.filter_eq_self.2 fun _ _ => rfl
      rw [all, all]
      rfl
  | cons rule used ih =>
      have member := inFrame rule List.mem_cons_self
      have fewer : ∀ tags : List Piece, (tags.filter fun tag => !rule.names tag).filter
          (survives used) = tags.filter (survives (rule :: used)) := by
        intro tags
        rw [List.filter_filter]
        exact List.filter_congr fun tag _ => by rw [survives, survives, List.all_cons,
          Bool.and_comm]
      have kept : ∀ tags : List Piece, (∀ tag ∈ tags, IsTag tag) →
          ∀ tag ∈ tags.filter fun tag => !rule.names tag, IsTag tag :=
        fun tags plain tag inside => plain tag (List.mem_of_mem_filter inside)
      rw [applyAll_cons, pass_between member plainOpens plainCloses,
        ih (fun other inside => inFrame other (List.mem_cons_of_mem rule inside))
          (kept opens plainOpens) (kept closes plainCloses), fewer, fewer, applyAll_cons]

/-- The document type is left alone. -/
theorem applyAll_doctype_append (text : Text) :
    applyAll frameRules (Element.doctype ++ text) = Element.doctype ++
    applyAll frameRules text := by
  have none : ∀ tag ∈ ([] : List Piece), IsTag tag := fun _ member => nomatch member
  have whole := applyAll_between (fun _ member => member) none none text
  simpa using whole

/-- The tags of `html` and `body` around a document are taken out. -/
theorem applyAll_wrapped (text : Text) :
    applyAll frameRules (Element.doctype ++ ("<html><body>".toList ++
        (text ++ "</body></html>".toList))) =
      applyAll frameRules (Element.doctype ++ text) := by
  have html : Token.IsTagName "html".toList :=
    ⟨⟨'h', "tml".toList, rfl, by decide⟩, List.all_eq_true.1 (by decide), by decide⟩
  have body : Token.IsTagName "body".toList :=
    ⟨⟨'b', "ody".toList, rfl, by decide⟩, List.all_eq_true.1 (by decide), by decide⟩
  have opens : ∀ tag ∈ [Piece.startTag "html".toList [], .startTag "body".toList []],
      IsTag tag := by
    simp only [List.forall_mem_cons]
    exact ⟨.startTag html (by simp), .startTag body (by simp), fun _ member => nomatch member⟩
  have closes : ∀ tag ∈ [Piece.endTag "body".toList, .endTag "html".toList], IsTag tag := by
    simp only [List.forall_mem_cons]
    exact ⟨.endTag body, .endTag html, fun _ member => nomatch member⟩
  have noOpens : [Piece.startTag "html".toList [], .startTag "body".toList []].filter
      (survives frameRules) = [] := by decide
  have noCloses : [Piece.endTag "body".toList, .endTag "html".toList].filter
      (survives frameRules) = [] := by decide
  have whole := applyAll_between (fun _ member => member) opens closes text
  rw [noOpens, noCloses, Canonical.textOf_nil, List.nil_append, List.append_nil] at whole
  rw [applyAll_doctype_append text]
  exact whole

/-! ## What a document ends with -/

/-- An end of a text that the rules for the skeleton leave alone, together with any run behind
it. -/
structure IsLasting (last : Text) : Prop where
  begins : ∃ d inside, last = d :: inside ∧ d ∈ separators
  closes : ∃ inside, last = inside ++ ['>']
  stays : ∀ rule ∈ frameRules, ∀ run : Text, (∀ c ∈ run, c ≠ '<') →
    rule.pass (last ++ run) = last ++ run

/-- The end of a comment is no part of a tag. -/
theorem isLasting_commentEnd : IsLasting "-->".toList := by
  refine ⟨⟨'-', "->".toList, rfl, dash_mem_separators⟩, ⟨"--".toList, rfl⟩,
    fun rule member run solid => ?_⟩
  apply pass_of_solid
  intro c inside
  rcases List.mem_append.1 inside with front | inRun
  · exact (by simp : ∀ c ∈ "-->".toList, c ≠ '<') c front
  · exact solid c inRun

/-- A tag that no rule for the skeleton names is left alone. -/
theorem IsTag.isLasting {tag : Piece} (isTag : IsTag tag)
    (stays : survives frameRules tag = true) :
    IsLasting tag.render := by
  obtain ⟨inside, begins, _⟩ := isTag.exists_render
  refine ⟨⟨'<', inside, begins, bracket_mem_separators⟩, ?_, fun rule member run solid => ?_⟩
  · cases isTag with
    | startTag named encoded | endTag named => exact ⟨_, rfl⟩
  · have named : rule.names tag = false := by simpa using List.all_eq_true.1 stays rule member
    rw [pass_tag member isTag, named, if_neg Bool.false_ne_true, pass_of_solid solid]

/-- The document type is left alone. -/
theorem isLasting_doctype : IsLasting Element.doctype := by
  refine ⟨⟨'<', "!doctype html>".toList, rfl, bracket_mem_separators⟩,
    ⟨"<!doctype html".toList, rfl⟩,
    fun rule member run solid => ?_⟩
  have free := isFree_of_mem_frameRules member
  rw [pass_doctype free.inTable, free.passAfter_eq_pass, pass_of_solid solid]

/-- The elements of the document skeleton. -/
def frameNames : List Text := ["html", "head", "body"].map String.toList

/-- The rules for the skeleton name the tags of its elements. -/
theorem tags_frameRules :
    frameRules.flatMap Rule.tags = frameNames.flatMap fun name => [name, '/' :: name] := by
  decide

/-- A tag that is not among those of the skeleton survives. -/
theorem survives_of_tag? {tag : Piece}
    (other : ∀ word, tag? tag = some word → ∀ name ∈ frameNames, word ≠ name ∧ word ≠
    '/' :: name) :
    survives frameRules tag = true := by
  rw [survives, List.all_eq_true]
  intro rule member
  cases named : rule.names tag with
  | false => rfl
  | true =>
      exfalso
      obtain ⟨word, same, inTags⟩ := (Option.any_eq_true _ _).1 named
      have inFrame : word ∈ frameRules.flatMap Rule.tags :=
        List.mem_flatMap.2 ⟨rule, member, List.contains_iff_mem.1 inTags⟩
      rw [tags_frameRules, List.mem_flatMap] at inFrame
      obtain ⟨name, isFrame, isWord⟩ := inFrame
      obtain ⟨noStart, noEnd⟩ := other word same name isFrame
      rcases List.mem_cons.1 isWord with start | rest
      · exact noStart start
      · exact noEnd (List.mem_singleton.1 rest)

/-- No name of the skeleton begins with a slash. -/
theorem ne_slash_of_mem_frameNames : ∀ name ∈ frameNames, ∀ other : Text, '/' :: other ≠ name := by
  intro name member other same
  rw [← same] at member
  exact absurd member (by simp [frameNames])

/-- The start tag of an element outside the skeleton is left alone. -/
theorem isLasting_startTag {name : Text} {attributes : List (Text × Option Text)}
    (named : Token.IsTagName name) (encoded : ∀ attr ∈ attributes, Token.IsEncodedAttribute attr)
    (noFrame : name ∉ frameNames) : IsLasting (Piece.startTag name attributes).render := by
  refine (IsTag.startTag named encoded).isLasting (survives_of_tag? fun word same other
    member => ?_)
  cases attributes with
  | cons attr attributes => cases same
  | nil =>
      cases same
      refine ⟨fun equal => noFrame (by rw [equal]; exact member), fun equal => ?_⟩
      obtain ⟨c, later, rfl, alpha⟩ := named.letter
      rw [(List.cons.inj equal).1] at alpha
      exact absurd alpha (by decide)

/-- The end tag of an element outside the skeleton is left alone. -/
theorem isLasting_endTag {name : Text} (named : Token.IsTagName name)
    (noFrame : name ∉ frameNames) :
    IsLasting (Piece.endTag name).render := by
  refine (IsTag.endTag named).isLasting (survives_of_tag? fun word same other member => ?_)
  cases same
  refine ⟨ne_slash_of_mem_frameNames other member name, fun equal => noFrame ?_⟩
  rw [(List.cons.inj equal).2]
  exact member

/-- The rules for the skeleton change nothing from the last mark of a text on. -/
theorem IsLasting.applyAll {last : Text} (lasting : IsLasting last) (front : Text) {run : Text}
    (solid : ∀ c ∈ run, c ≠ '<') :
    applyAll frameRules (front ++ (last ++ run)) = applyAll frameRules front ++ (last ++ run) := by
  obtain ⟨d, inside, begins, separates⟩ := lasting.begins
  have passes : ∀ used : List Rule, (∀ rule ∈ used, rule ∈ frameRules) → ∀ front : Text,
      OptionalTag.applyAll used (front ++ (last ++ run)) =
        OptionalTag.applyAll used front ++ (last ++ run) := by
    intro used
    induction used with
    | nil => exact fun _ _ => rfl
    | cons rule used ih =>
        intro inFrame front
        have member := inFrame rule List.mem_cons_self
        have apart := (isFree_of_mem_frameRules member).pass_append_separator separates
          (.inl (trailingBlank_of_mem_frameRules member)) front (inside ++ run)
        rw [← List.cons_append, ← begins, lasting.stays rule member run solid] at apart
        rw [applyAll_cons, applyAll_cons, apart,
          ih fun other later => inFrame other (List.mem_cons_of_mem rule later)]
  exact passes frameRules (fun _ member => member) front

end HtmlMinifier.OptionalTag

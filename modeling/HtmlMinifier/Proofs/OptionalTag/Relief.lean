/-
# What passes leave of elements that keep their text

Leaving out tags may take a blank from behind a tag, and inside an element that keeps its text this
blank is text. What a pass does between the tags of such an element is a matter of the element
alone: rules never name its tags, its start tag is no end tag that a rule may ask for, and its end
tag stops every look ahead. So what all passes leave of a document is known element by element:
some tags and some blanks are missing, and of every element stays what the passes leave of it by
itself.

Every blank that is missing is missing from the text, so counting blanks tells whether any text was
lost.
-/
import Mathlib.Data.List.Forall2
import HtmlMinifier.Proofs.Canonical.Layout
import HtmlMinifier.Proofs.OptionalTag.Mark

namespace HtmlMinifier.OptionalTag

open Canonical (Layout Piece)
open Event (preserves preservingNames)
open Token (IsTagName IsEncodedAttribute)

/-- What rules leave of a layout: tags without blanks in them and blank letters may be missing, and
of an element stays what the rules leave of it by itself. -/
inductive Relieved (used : List Rule) : Layout → Layout → Prop
  | nil : Relieved used .nil .nil
  | letter (c : Char) {later left : Layout} :
      Relieved used later left → Relieved used (.letter c later) (.letter c left)
  | blank {c : Char} {later left : Layout} (blank : Text.isBlank c = true) :
      Relieved used later left → Relieved used (.letter c later) left
  | tag (piece : Piece) {later left : Layout} :
      Relieved used later left → Relieved used (.tag piece later) (.tag piece left)
  | out {piece : Piece} {later left : Layout} (bare : ∀ c ∈ piece.render, Text.isBlank c = false) :
      Relieved used later left → Relieved used (.tag piece later) left
  | verbatim (name : Text) (attributes : List (Text × Option Text)) (body : Text)
      {later left : Layout} :
      Relieved used later left →
        Relieved used (.verbatim name attributes body later) (.verbatim name attributes body left)
  | element {name : Text} {attributes : List (Text × Option Text)} {inner kept later left : Layout}
      (alone : applyAll used (Element.doctype ++
        (Layout.element name attributes inner .nil).text) =
        Element.doctype ++ (Layout.element name attributes kept .nil).text) :
      Relieved used inner kept → Relieved used later left →
        Relieved used (.element name attributes inner later) (.element name attributes kept left)

namespace Relieved

variable {used : List Rule} {layout left : Layout}

/-- No rules leave a layout as it is. -/
theorem refl (layout : Layout) : Relieved [] layout layout := by
  induction layout with
  | nil => exact .nil
  | letter c later ih => exact .letter c ih
  | tag piece later ih => exact .tag piece ih
  | verbatim name attributes body later ih => exact .verbatim name attributes body ih
  | element name attributes inner later ihInner ih => exact .element rfl ihInner ih

/-- Rules leave what the others leave of what the first leaves. -/
theorem trans {rule : Rule} {middle : Layout} (first : Relieved [rule] layout middle)
    (others : Relieved used middle left) : Relieved (rule :: used) layout left := by
  induction first generalizing left with
  | nil =>
      cases others
      exact .nil
  | letter c _ ih =>
      cases others with
      | letter _ others => exact .letter c (ih others)
      | blank isBlank others => exact .blank isBlank (ih others)
  | blank isBlank _ ih => exact .blank isBlank (ih others)
  | tag piece _ ih =>
      cases others with
      | tag _ others => exact .tag piece (ih others)
      | out bare others => exact .out bare (ih others)
  | out bare _ ih => exact .out bare (ih others)
  | verbatim name attributes body _ ih =>
      cases others with
      | verbatim _ _ _ others => exact .verbatim name attributes body (ih others)
  | element alone _ _ ihInner ih =>
      cases others with
      | element further inner others =>
          refine .element ?_ (ihInner inner) (ih others)
          rw [applyAll_cons, ← further, ← alone]
          rfl

/-- Of letters letters are left. -/
theorem isText (relieved : Relieved used layout left) (letters : layout.IsText) : left.IsText := by
  obtain ⟨letters, rfl⟩ := letters
  induction letters generalizing left with
  | nil =>
      cases relieved
      exact ⟨[], rfl⟩
  | cons c letters ih =>
      cases relieved with
      | letter _ relieved =>
          obtain ⟨others, rfl⟩ := ih relieved
          exact ⟨c :: others, rfl⟩
      | blank _ relieved => exact ih relieved

theorem isPlain (relieved : Relieved used layout left) (plain : layout.IsPlain) :
    left.IsPlain := by
  induction relieved with
  | nil => exact .nil
  | letter c _ ih =>
      cases plain with
      | letter plain => exact .letter (ih plain)
  | blank _ _ ih =>
      cases plain with
      | letter plain => exact ih plain
  | tag piece _ ih =>
      cases plain with
      | tag ordinary plain => exact .tag ordinary (ih plain)
  | out _ _ ih =>
      cases plain with
      | tag _ plain => exact ih plain
  | verbatim name attributes body _ ih =>
      cases plain with
      | verbatim named isVerbatim ordinary encoded plain =>
          exact .verbatim named isVerbatim ordinary encoded (ih plain)
  | element _ inside _ ihInner ih =>
      cases plain with
      | element named keeps encoded text inner plain =>
          exact .element named keeps encoded (fun isVerbatim => inside.isText (text isVerbatim))
            (ihInner inner) (ih plain)

/-- No start tag is added. -/
theorem startTags_subset (relieved : Relieved used layout left) :
    left.startTags ⊆ layout.startTags := by
  induction relieved with
  | nil => exact List.Subset.refl []
  | letter _ _ ih | blank _ _ ih => exact ih
  | tag piece _ ih =>
      cases piece with
      | startTag name attributes => exact List.cons_subset_cons _ ih
      | doctype | endTag name | comment body | run isVerbatim text => exact ih
  | @out piece _ _ _ _ ih =>
      cases piece with
      | startTag name attributes => exact List.Subset.trans ih (List.subset_cons_self _ _)
      | doctype | endTag name | comment body | run isVerbatim text => exact ih
  | verbatim name attributes body _ ih => exact List.cons_subset_cons _ ih
  | element _ _ _ ihInner ih =>
      exact List.cons_subset_cons _ (List.append_subset.2 ⟨List.Subset.trans ihInner
        (List.subset_append_left _ _), List.Subset.trans ih (List.subset_append_right _ _)⟩)

/-! ## Lost blanks -/

theorem countP_of_bare {text : Text} (bare : ∀ c ∈ text, Text.isBlank c = false) :
    text.countP Text.isBlank = 0 :=
  List.countP_eq_zero.2 fun c inside => by rw [bare c inside]; exact Bool.false_ne_true

/-- As much text is missing as blanks are. -/
theorem length_content (relieved : Relieved used layout left) :
    layout.content.length + left.text.countP Text.isBlank =
      left.content.length + layout.text.countP Text.isBlank := by
  induction relieved with
  | nil => rfl
  | letter c _ ih =>
      simp only [Layout.content, Layout.text, List.length_cons, List.countP_append]
      omega
  | blank isBlank _ ih =>
      simp only [Layout.content, Layout.text, Reference.encodeChar_of_isBlank isBlank,
        List.length_cons,
        List.singleton_append, List.countP_cons_of_pos isBlank]
      omega
  | tag piece _ ih =>
      simp only [Layout.content, Layout.text, List.countP_append]
      omega
  | out bare _ ih =>
      simp only [Layout.content, Layout.text, List.countP_append, countP_of_bare bare]
      omega
  | verbatim name attributes body _ ih =>
      simp only [Layout.content, Layout.text, List.length_append, List.countP_append]
      omega
  | element _ _ _ ihInner ih =>
      simp only [Layout.content, Layout.text, List.length_append, List.countP_append]
      omega

theorem countP_le (relieved : Relieved used layout left) :
    left.text.countP Text.isBlank ≤ layout.text.countP Text.isBlank := by
  induction relieved with
  | nil => exact Nat.le_refl _
  | letter _ _ ih | tag _ _ ih | verbatim _ _ _ _ ih =>
      simp only [Layout.text, List.countP_append]
      omega
  | blank _ _ ih | out _ _ ih =>
      simp only [Layout.text, List.countP_append]
      omega
  | element _ _ _ ihInner ih =>
      simp only [Layout.text, List.countP_append]
      omega

/-- Where no blank is missing, no text is. -/
theorem content_eq (relieved : Relieved used layout left)
    (same : left.text.countP Text.isBlank = layout.text.countP Text.isBlank) :
    left.content = layout.content := by
  induction relieved with
  | nil => rfl
  | letter c _ ih =>
      simp only [Layout.text, List.countP_append, Nat.add_left_cancel_iff] at same
      exact congrArg (c :: ·) (ih same)
  | blank isBlank relieved =>
      have fewer := relieved.countP_le
      simp only [Layout.text, Reference.encodeChar_of_isBlank isBlank, List.singleton_append,
        List.countP_cons_of_pos isBlank] at same
      omega
  | tag piece _ ih =>
      simp only [Layout.text, List.countP_append, Nat.add_left_cancel_iff] at same
      exact ih same
  | out bare _ ih =>
      simp only [Layout.text, List.countP_append, countP_of_bare bare, Nat.zero_add] at same
      exact ih same
  | verbatim name attributes body _ ih =>
      simp only [Layout.text, List.countP_append, Nat.add_left_cancel_iff] at same
      exact congrArg (body ++ ·) (ih same)
  | element _ inside later ihInner ih =>
      have fewerInside := inside.countP_le
      have fewer := later.countP_le
      simp only [Layout.text, List.countP_append] at same
      rw [Layout.content, Layout.content, ihInner (by omega), ih (by omega)]

/-- Text is missing exactly where blanks are. -/
theorem content_eq_iff (relieved : Relieved used layout left) :
    left.content = layout.content ↔
      left.text.countP Text.isBlank = layout.text.countP Text.isBlank := by
  constructor
  · intro same
    have lengths := relieved.length_content
    rw [same] at lengths
    omega
  · exact relieved.content_eq

end Relieved

/-- What rules leave of an element by itself. It ends with the end tag. -/
structure RelievedAlone (used : List Rule) (node left : Layout) : Prop where
  alone : applyAll used (Element.doctype ++ node.text) = Element.doctype ++ left.text
  relieved : Relieved used node left
  closed : Text.trimEnd (Element.doctype ++ left.text) = Element.doctype ++ left.text

/-- Every element is relieved by itself. -/
theorem Relieved.nodes {used : List Rule} {layout left : Layout}
    (relieved : Relieved used layout left) :
    List.Forall₂ (RelievedAlone used) layout.nodes left.nodes := by
  induction relieved with
  | nil => exact .nil
  | letter _ _ ih | blank _ _ ih | tag _ _ ih | out _ _ ih | verbatim _ _ _ _ ih => exact ih
  | @element name attributes inner kept later left alone inside _ ihInner ih =>
      have closed := Canonical.trimEnd_append_render (.endTag name) (by simp)
        (Element.doctype ++ ((Piece.startTag name attributes).render ++ kept.text))
      simp only [List.append_assoc] at closed
      refine .cons ⟨alone, .element alone inside .nil, ?_⟩ (List.rel_append ihInner ih)
      rw [Layout.text, Layout.text, List.append_nil]
      exact closed

/-! ## One pass -/

/-- No rule names the tags of an element that keeps its text. -/
theorem notMem_tags_of_preserves {rule : Rule} (member : rule ∈ rules) {name : Text}
    (keeps : preserves name = true) : name ∉ rule.tags ∧ '/' :: name ∉ rule.tags := by
  have table : ∀ rule ∈ rules, ∀ name ∈ preservingNames,
      name ∉ rule.tags ∧ '/' :: name ∉ rule.tags := by decide
  exact table rule member name (List.contains_iff_mem.1 keeps)

theorem isPlain_of_isOrdinaryTag {piece : Piece} (ordinary : piece.IsOrdinaryTag) :
    piece.IsPlain := by
  cases ordinary with
  | startTag named _ _ encoded => exact .startTag named encoded
  | endTag named _ => exact .endTag named

/-- A tag that a rule may take out has no blank in it. -/
theorem bare_of_tag? {piece : Piece} (plain : piece.IsPlain) {tag : Text}
    (same : tag? piece = some tag) :
    ∀ c ∈ piece.render, Text.isBlank c = false := by
  intro c inside
  rw [render_of_tag? same] at inside
  rcases List.mem_cons.1 inside with rfl | further
  · decide
  · rcases List.mem_append.1 further with within | last
    · have isTag := (tagChar_of_mem_tag plain same c within).1
      rw [isTagChar, Bool.or_eq_true] at isTag
      rcases isTag with isName | isSlash
      · exact Token.isBlank_of_isNameChar isName
      · rw [of_decide_eq_true isSlash]
        decide
    · rw [List.mem_singleton.1 last]
      decide

theorem takeBlank_endTag (name : Text) :
    (takeBlank (Piece.endTag name).render).2 = (Piece.endTag name).render := rfl

/-- A rule takes nothing along from behind its tag where no blank stands. -/
theorem Rule.behind_of_takeBlank (rule : Rule) {text : Text} (solid : (takeBlank text).2 = text) :
    (rule.behind text).2 = text := by
  rw [Rule.behind]
  split
  · exact solid
  · rfl

theorem Rule.behind_bracket (rule : Rule) (text : Text) :
    (rule.behind ('<' :: text)).2 = '<' :: text :=
  rule.behind_of_takeBlank (by rw [takeBlank, if_neg (by decide)])

/-- What a rule takes along from letters is the first letter, if it is blank. -/
theorem Rule.behind_encodeChar (rule : Rule) (c : Char) (later : Text) :
    (rule.behind (Reference.encodeChar c ++ later)).2 = Reference.encodeChar c ++ later ∨
      Text.isBlank c = true ∧ (rule.behind (Reference.encodeChar c ++ later)).2 = later := by
  cases blank : Text.isBlank c with
  | true =>
      rw [Reference.encodeChar_of_isBlank blank, List.singleton_append, Rule.behind]
      split
      · rw [takeBlank, if_pos blank]
        exact .inr ⟨rfl, rfl⟩
      · exact .inl rfl
  | false =>
      left
      obtain ⟨some, solid⟩ := Reference.encodeChar_of_not_isBlank blank
      obtain ⟨d, more, written⟩ := List.exists_cons_of_ne_nil some
      apply rule.behind_of_takeBlank
      rw [written, List.cons_append, takeBlank, if_neg (by simp [solid d (by simp [written])])]

/-- Whether a pass over a text leaves something of a layout in front of what it leaves of the
rest. -/
def Rule.Relieves (rule : Rule) (layout : Layout) (before text rest : Text) : Prop :=
  ∃ left last, Relieved [rule] layout left ∧
    rule.passAfter before text = left.text ++ rule.passAfter last rest

/-- Nothing is taken along from a tag. -/
theorem Rule.Relieves.behind {rule : Rule} {layout : Layout} {before text rest : Text}
    (goes : rule.Relieves layout before text rest) (begins : ∃ inside, text = '<' :: inside) :
    rule.Relieves layout before text rest ∧ rule.Relieves layout before (rule.behind text).2
    rest := by
  obtain ⟨inside, rfl⟩ := begins
  rw [rule.behind_bracket]
  exact ⟨goes, goes⟩

section
variable {rule : Rule} (member : rule ∈ rules) (unbarred : rule.notFollowedBy = [])
include member unbarred

/-- What a pass leaves of an element that keeps its text does not depend on its surroundings. -/
theorem Rule.exists_passAfter_element {name : Text} {attributes : List (Text × Option Text)}
    (named : IsTagName name) (keeps : preserves name = true)
    (encoded : ∀ attr ∈ attributes, IsEncodedAttribute attr) {inner : Layout}
    (inside : ∀ before, rule.Relieves inner before (inner.text ++ (Piece.endTag name).render)
      (Piece.endTag name).render) :
    ∃ kept, Relieved [rule] inner kept ∧
      applyAll [rule] (Element.doctype ++ (Layout.element name attributes inner .nil).text) =
        Element.doctype ++ (Layout.element name attributes kept .nil).text ∧
      ∀ before later, ∃ last,
        rule.passAfter before ((Layout.element name attributes inner .nil).text ++ later) =
          (Layout.element name attributes kept .nil).text ++ rule.passAfter last later := by
  obtain ⟨noStart, noEnd⟩ := notMem_tags_of_preserves member keeps
  have ends : (Piece.endTag name).render = '<' :: ('/' :: name ++ ['>']) := by simp [Piece.render]
  obtain ⟨kept, fewer, passes⟩ := Rule.exists_passAfter_opaque member unbarred (.inl rfl)
    ('/' :: name ++ ['>']) (by simp) inner.text []
  have within : ∀ before later,
      rule.passAfter ((Piece.startTag name attributes).render.reverse ++ before)
      (inner.text ++ ((Piece.endTag name).render ++ later)) =
        kept ++ ((Piece.endTag name).render ++
          rule.passAfter ((Piece.endTag name).render.reverse ++
          (inner.text.reverse ++ ((Piece.startTag name attributes).render.reverse ++ before)))
              later) := by
    intro before later
    have here := passes _ (shields_startTag named encoded before) later
    rw [List.reverse_nil, List.nil_append, List.nil_append, ← List.cons_append, ← ends] at here
    rw [here, Rule.passAfter_endTag member named noEnd]
  -- The end tag stays, so what is left in front of it is what is left of the layout inside.
  obtain ⟨left, last, relieved, same⟩ := inside
    ((Piece.startTag name attributes).render.reverse ++ [])
  have alone := within [] []
  have stays := Rule.passAfter_endTag member named noEnd last []
  rw [Rule.passAfter, List.append_nil] at alone stays
  rw [List.append_nil, ← List.append_nil (Piece.render _).reverse, same, stays] at alone
  have text : left.text = kept := List.append_cancel_right alone
  subst text
  have whole : ∀ before later, ∃ last,
      rule.passAfter before ((Layout.element name attributes inner .nil).text ++ later) =
        (Layout.element name attributes left .nil).text ++ rule.passAfter last later := by
    intro before later
    refine ⟨(Piece.endTag name).render.reverse ++ (inner.text.reverse ++
      ((Piece.startTag name attributes).render.reverse ++ before)), ?_⟩
    simp only [Layout.text, List.append_assoc, List.nil_append]
    rw [Rule.passAfter_startTag member named encoded noStart, within]
  refine ⟨left, relieved, ?_, whole⟩
  obtain ⟨last, single⟩ := whole Element.doctype.reverse []
  rw [List.append_nil, Rule.passAfter, List.append_nil] at single
  rw [applyAll_cons, pass_doctype member, single]
  rfl

/-- One pass over a layout, and over what is left of it where the tag in front of it is taken
out. -/
theorem Rule.relieves_passAfter {layout : Layout} (plain : layout.IsPlain) {rest : Text}
    (solid : (takeBlank rest).2 = rest) (before : Text) :
    rule.Relieves layout before (layout.text ++ rest) rest ∧
      rule.Relieves layout before (rule.behind (layout.text ++ rest)).2 rest := by
  induction plain generalizing before rest with
  | nil =>
      have stays : rule.Relieves .nil before rest rest := ⟨.nil, before, .nil, rfl⟩
      refine ⟨stays, ?_⟩
      rw [Layout.text, List.nil_append, rule.behind_of_takeBlank solid]
      exact stays
  | @letter c later _ ih =>
      have stays : rule.Relieves (.letter c later) before
          ((Layout.letter c later).text ++ rest) rest := by
        obtain ⟨left, last, relieved, passes⟩ :=
          (ih solid ((Reference.encodeChar c).reverse ++ before)).1
        refine ⟨.letter c left, last, .letter c relieved, ?_⟩
        rw [Layout.text, Layout.text, List.append_assoc, List.append_assoc,
          Rule.passAfter_append fun d inside => Reference.ne_bracket_of_mem_encodeChar
            inside, passes]
      refine ⟨stays, ?_⟩
      rw [Layout.text, List.append_assoc] at stays ⊢
      rcases rule.behind_encodeChar c (later.text ++ rest) with same | ⟨blank, without⟩
      · rw [same]
        exact stays
      · rw [without]
        obtain ⟨left, last, relieved, passes⟩ := (ih solid before).1
        exact ⟨left, last, .blank blank relieved, passes⟩
  | @tag piece later ordinary _ ih =>
      have goes : rule.Relieves (.tag piece later) before ((Layout.tag piece later).text ++ rest)
          rest := by
        have plain := isPlain_of_isOrdinaryTag ordinary
        rw [Layout.text, List.append_assoc]
        rcases Rule.passAfter_tag_or_keep member plain ordinary.noRun before (later.text ++
          rest) with
          ⟨⟨tag, same⟩, taken, passes⟩ | passes
        · obtain ⟨left, last, relieved, further⟩ := (ih solid taken).2
          exact ⟨left, last, .out (bare_of_tag? plain same) relieved, by rw [passes, further]⟩
        · obtain ⟨left, last, relieved, further⟩ := (ih solid (piece.render.reverse ++ before)).1
          refine ⟨.tag piece left, last, .tag piece relieved, ?_⟩
          rw [passes, further, Layout.text, List.append_assoc]
      obtain ⟨inside, begins⟩ := ordinary.begins
      exact goes.behind ⟨_, by rw [Layout.text, begins, List.cons_append, List.cons_append]⟩
  | @verbatim name attributes body later named isVerbatim ordinary encoded _ ih =>
      have goes : rule.Relieves (.verbatim name attributes body later) before
          ((Layout.verbatim name attributes body later).text ++ rest) rest := by
        obtain ⟨noStart, noEnd⟩ := notMem_tags_of_isVerbatim member isVerbatim
        obtain ⟨left, last, relieved, passes⟩ := (ih solid _).1
        refine ⟨.verbatim name attributes body left, last,
          .verbatim name attributes body relieved, ?_⟩
        simp only [Layout.text, List.append_assoc]
        rw [Rule.passAfter_startTag member named encoded noStart,
          Rule.passAfter_append (Layout.ne_bracket_of_mem_encode body),
          Rule.passAfter_endTag member named noEnd, passes]
      exact goes.behind ⟨_, rfl⟩
  | @element name attributes inner later named keeps encoded textual _ _ ihInner ih =>
      have goes : rule.Relieves (.element name attributes inner later) before
          ((Layout.element name attributes inner later).text ++ rest) rest := by
        obtain ⟨kept, relieved, alone, passes⟩ :=
          Rule.exists_passAfter_element member unbarred named keeps
          encoded fun before => (ihInner (takeBlank_endTag name) before).1
        obtain ⟨last, within⟩ := passes before (later.text ++ rest)
        obtain ⟨left, last', others, further⟩ := (ih solid last).1
        refine ⟨.element name attributes kept left, last', .element alone relieved others, ?_⟩
        simp only [Layout.text, List.append_assoc, List.nil_append] at within ⊢
        rw [within, further]
      exact goes.behind ⟨_, rfl⟩

end

/-! ## All passes -/

/-- All passes over a document. -/
theorem exists_relieved_applyAll {used : List Rule}
    (unbarred : ∀ rule ∈ used, rule ∈ rules ∧ rule.notFollowedBy = []) {layout : Layout}
    (plain : layout.IsPlain) :
    ∃ left, applyAll used (Element.doctype ++ layout.text) = Element.doctype ++ left.text ∧
      Relieved used layout left := by
  induction used generalizing layout with
  | nil => exact ⟨layout, rfl, .refl layout⟩
  | cons rule used ih =>
      obtain ⟨member, plainly⟩ := unbarred rule List.mem_cons_self
      have solid : (takeBlank []).2 = [] := rfl
      obtain ⟨middle, last, first, passes⟩ :=
        (Rule.relieves_passAfter member plainly plain solid Element.doctype.reverse).1
      rw [Rule.passAfter, List.append_nil, List.append_nil] at passes
      obtain ⟨left, others, further⟩ :=
        ih (fun other inside => unbarred other (List.mem_cons_of_mem rule inside))
          (first.isPlain plain)
      exact ⟨left, by rw [applyAll_cons, pass_doctype member, passes, others], first.trans further⟩

/-- What is left of a document when the optional tags are left out. -/
theorem exists_relieved_elide {layout : Layout} (plain : layout.IsPlain) :
    ∃ left, elide false (Element.doctype ++ layout.text) = Element.doctype ++ left.text ∧
      Relieved (activeRules false) layout left :=
  exists_relieved_applyAll unbarred_of_mem_activeRules plain

end HtmlMinifier.OptionalTag

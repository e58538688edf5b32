/-
# Text that is shown as it is

The writer keeps the text of every `pre` and every `textarea`, and the reader finds it again. Only
the last stage may lose some of it: a rule takes a blank along with the tag in front of it, and
does not ask whether the blank is shown. What it does inside such an element is a matter of the
element alone. So the text comes through if and only if no blank is left out of any of these
elements minified by itself.

Where an end tag in such an element is ignored once its start tag has been left out, the end tag
may close something around the element, so elements like that are excepted. So are the tags that
are not read back as they are written: a verbatim element whose tag closes itself, and, where there
is foreign content, a value that ends with a slash.
-/
import HtmlMinifier.Proofs.Canonical.LayoutWriting
import HtmlMinifier.Proofs.Minifier.Elision
import HtmlMinifier.Proofs.OptionalTag.Relief

namespace HtmlMinifier.Minifier

open Canonical (Layout NodeOf)
open Event (preservedElements preservedTexts heedsAll)
open OptionalTag (RelievedAlone activeRules)

/-! ## An element by itself -/

/-- An element minified by itself, with the optional tags left out or kept. -/
def minifyAlone (elides : Bool) (element : List Event) : Except Canonical.StreamError Text :=
  (({} : Minifier).eliding elides).minifyEvents (.documentStart :: element)

/-- Whether no blank is left out when an element is minified by itself. -/
def LosesNoBlank (element : List Event) : Prop :=
  ∃ whole short, minifyAlone false element = .ok whole ∧ minifyAlone true element = .ok short ∧
    short.countP Text.isBlank = whole.countP Text.isBlank

/-- Whether no end tag is ignored when an element that is minified by itself is read again. -/
def IsHeeded (element : List Event) : Prop :=
  ∃ short, minifyAlone true element = .ok short ∧ heedsAll [] (Token.tokenize short) = true

/-- What is left of an element in a minified document. -/
structure Survives (element : List Event) (left : Layout) : Prop where
  plain : left.IsPlain
  short : minifyAlone true element = .ok (Element.doctype ++ left.text)
  kept : left.content = Event.content element ↔ LosesNoBlank element
  origin : left.ComesFrom ({} : Minifier).options element

/-- The last stage of minifying trims what the rules leave. -/
theorem map_finish_default {written left : Text}
    (elided : OptionalTag.elide false (Element.doctype ++ written) = Element.doctype ++ left) :
    Except.map (({} : Minifier).eliding true).finish
        (.ok (Element.doctype ++ written) : Except Canonical.StreamError Text) =
      .ok (Text.trimEnd (Element.doctype ++ left)) := by
  have elides : (({} : Minifier).eliding true).settings.elideOptionalTags = true := rfl
  have lenient : (({} : Minifier).eliding true).settings.strictBodyOmission = false := rfl
  rw [Except.map, finish, if_pos elides, lenient, elided,
    Canonical.trim_of_doctype (List.prefix_append _ _)]

/-- What is written of an element by itself, and what rules leave of it, tell what is left of
it. -/
theorem survives_of_node {element : List Event} {node left : Layout}
    (isNode : NodeOf ({} : Minifier).options element node)
    (relieved : RelievedAlone (activeRules false) node left) : Survives element left := by
  have serialized (elides : Bool) : Canonical.serialize (({} : Minifier).eliding elides).options
      (.documentStart :: element) = .ok (Element.doctype ++ node.text) := isNode.alone
  have whole : minifyAlone false element = .ok (Element.doctype ++ node.text) := by
    rw [minifyAlone, minifyEvents, serialized]
    rfl
  have short : minifyAlone true element = .ok (Element.doctype ++ left.text) := by
    rw [minifyAlone, minifyEvents, serialized, map_finish_default relieved.alone, relieved.closed]
  have blanks : ∀ layout : Layout, (Element.doctype ++ layout.text).countP Text.isBlank =
      Element.doctype.countP Text.isBlank + layout.text.countP Text.isBlank :=
    fun layout => List.countP_append
  refine ⟨relieved.relieved.isPlain isNode.plain, short, ?_, ?_⟩
  · rw [isNode.content, relieved.relieved.content_eq_iff]
    constructor
    · intro same
      exact ⟨_, _, whole, short, by rw [blanks, blanks, same]⟩
    · rintro ⟨whole', short', isWhole, isShort, same⟩
      rw [whole] at isWhole
      rw [short] at isShort
      cases isWhole
      cases isShort
      rw [blanks, blanks] at same
      exact Nat.add_left_cancel same
  · exact fun name attributes member =>
      isNode.origin name attributes (relieved.relieved.startTags_subset member)

/-- The elements of a document and what is left of them belong together one by one. -/
theorem forall₂_survives {elements : List (List Event)} {nodes lefts : List Layout}
    (written : List.Forall₂ (NodeOf ({} : Minifier).options) elements nodes)
    (relieved : List.Forall₂ (RelievedAlone (activeRules false)) nodes lefts) :
    List.Forall₂ Survives elements lefts := by
  induction written generalizing lefts with
  | nil =>
      cases relieved
      exact .nil
  | cons isNode _ ih =>
      cases relieved with
      | cons relieved others => exact .cons (survives_of_node isNode relieved) (ih others)

/-- What is left is left of an element. -/
theorem exists_survives_of_mem {elements : List (List Event)} {lefts : List Layout}
    (survive : List.Forall₂ Survives elements lefts) {left : Layout} (member : left ∈ lefts) :
    ∃ element ∈ elements, Survives element left := by
  induction survive with
  | nil => cases member
  | cons survives _ ih =>
      rcases List.mem_cons.1 member with rfl | further
      · exact ⟨_, List.mem_cons_self, survives⟩
      · obtain ⟨element, inside, others⟩ := ih further
        exact ⟨element, List.mem_cons_of_mem _ inside, others⟩

/-- The texts are those of the elements if and only if no element loses a blank. -/
theorem map_content_eq_iff {elements : List (List Event)} {lefts : List Layout}
    (survive : List.Forall₂ Survives elements lefts) :
    lefts.map Layout.content = elements.map Event.content ↔ ∀ element ∈ elements,
    LosesNoBlank element := by
  induction survive with
  | nil => simp
  | cons survives _ ih =>
      rw [List.map_cons, List.map_cons, List.cons_eq_cons, survives.kept, ih, List.forall_mem_cons]

/-! ## What is left of a document -/

/-- Whether a document has no foreign content, or no value in an element that keeps its text ends
with a slash. -/
def HasNoSlash (events : List Event) : Prop :=
  (∀ name given, .elementOpen name given ∈ events → Element.isForeignRoot name = false) ∨
    ∀ element ∈ preservedElements events, ∀ name given, .elementOpen name given ∈ element →
      ∀ attr ∈ given, (Reference.normalizeAttribute attr.2).getLast? ≠ some '/'

/-- A tag whose values do not end with a slash does not close itself. -/
theorem selfClosing_tagRead {name : Text} {given : List (Text × Text)} (collapseEmpty : Bool)
    (legible : ∀ attr ∈ given, Event.IsLegibleAttribute attr) :
    (Canonical.tagRead (Canonical.canonicalAttributes collapseEmpty name given)).selfClosing =
    false := by
  have written := Canonical.isWrittenTag_canonicalAttributes collapseEmpty name legible
  rw [Canonical.tagRead, Token.readAttributes_tagTail written.safe]

/-- No tag in what is left of an element closes itself. -/
theorem Survives.closesOnlyVoid {element : List Event} {left : Layout}
    (survives : Survives element left)
    (legible : ∀ name given, .elementOpen name given ∈ element →
      ∀ attr ∈ given, Event.IsLegibleAttribute attr) : Event.ClosesOnlyVoid left.tokens := by
  intro name read member
  obtain ⟨attributes, inside, closes⟩ := Layout.exists_of_startTag_mem_tokens survives.plain member
  obtain ⟨given, opened, rfl⟩ := survives.origin name attributes inside
  rw [selfClosing_tagRead _ (legible name given opened), Bool.false_or] at closes
  exact closes.symm

/-- In a document without raw text, kept comments, and tags that are not read back as they are
written, whose elements are heeded by themselves, the texts of all `pre` and `textarea` come
through minifying if and only if none of these elements loses a blank by itself. -/
theorem preservedTexts_minify_iff {html : Text}
    (plainText : ∀ event ∈ Event.parse html, hidesMarkup event = false)
    (noSelfClosing : ∀ name attributes,
      .startTag name attributes true ∈ Token.tokenize html → Element.isVerbatim name = false)
    (noSlash : HasNoSlash (Event.parse html))
    (heeded : ∀ element ∈ preservedElements (Event.parse html), IsHeeded element) :
    ∃ out, HtmlMinifier.minify html = .ok out ∧
      (preservedTexts (Event.parse out) = preservedTexts (Event.parse html) ↔
        ∀ element ∈ preservedElements (Event.parse html), LosesNoBlank element) := by
  obtain ⟨events, parsed, legible⟩ := Event.legible_of_noSelfClosing noSelfClosing
  have plainEvents : ∀ event ∈ events, Canonical.IsPlainEvent event := fun event member =>
    isPlainEvent_of_plainText plainText event (by rw [parsed]; exact List.mem_cons_of_mem _ member)
  have none : ({} : Minifier).options.compressor = none := rfl
  obtain ⟨layout, plain, written, nodes, origin⟩ :=
    Canonical.exists_layout none (Canonical.nests_of_legible legible plainEvents)
  obtain ⟨left, elided, relieved⟩ := OptionalTag.exists_relieved_elide plain
  obtain ⟨trimmed, trimmedPlain, text, sameNodes, sameTags⟩ :=
    Layout.exists_trimEnd (relieved.isPlain plain)
  have survive := forall₂_survives nodes relieved.nodes
  rw [← sameNodes] at survive
  refine ⟨Element.doctype ++ trimmed.text, ?_, ?_⟩
  · have serialized : Canonical.serialize (({} : Minifier).eliding true).options
        (Event.parse html) =
        .ok (Element.doctype ++ layout.text) := by
      rw [parsed]
      exact written
    have minified : (({} : Minifier).eliding true).minify html =
        .ok (Element.doctype ++ trimmed.text) := by
      rw [minify, minifyEvents, serialized, map_finish_default elided, Layout.trimEnd_solid_append
        (by decide), text]
    exact minified
  · have isSealed : trimmed.IsSealed := by
      intro node member
      obtain ⟨element, inside, survives⟩ := exists_survives_of_mem survive member
      obtain ⟨short, minified, all⟩ := heeded element (by rw [parsed]; exact inside)
      rw [survives.short] at minified
      cases minified
      rwa [Layout.heedsAll_tokenize survives.plain] at all
    have plainly : trimmed.NodesOpenPlainly [] := by
      rcases noSlash with noRoot | noSlash
      · right
        refine ⟨List.forall_mem_nil _, fun name read selfClosing member => ?_⟩
        obtain ⟨attributes, inside, _⟩ := Layout.exists_of_startTag_mem_tokens trimmedPlain member
        rw [sameTags] at inside
        obtain ⟨given, opened, _⟩ := origin name attributes (relieved.startTags_subset inside)
        exact noRoot name given (by rw [parsed]; exact List.mem_cons_of_mem _ opened)
      · left
        intro node member
        obtain ⟨element, inside, survives⟩ := exists_survives_of_mem survive member
        have found : element ∈ preservedElements (Event.parse html) := by
          rw [parsed]
          exact inside
        refine survives.closesOnlyVoid fun name given opened attr isGiven => ⟨?_, ?_⟩
        · have among := (Event.infix_of_mem_preservedElements found).subset opened
          exact (Event.named_of_mem_parse among).2 attr isGiven
        · exact noSlash element found name given opened attr isGiven
    rw [Layout.preservedTexts_parse trimmedPlain isSealed plainly, parsed]
    exact map_content_eq_iff survive

/-- A list inside a `pre` loses an end tag with no blank behind it. -/
theorem preservedTexts_minify_list :
    let html := "<pre> <li>a</li><li> b</li>\n</pre><textarea> c </textarea>".toList
    ((∀ event ∈ Event.parse html, hidesMarkup event = false) ∧
        (∀ name attributes, .startTag name attributes true ∈ Token.tokenize html →
          Element.isVerbatim name = false) ∧
        HasNoSlash (Event.parse html) ∧
        ∀ element ∈ preservedElements (Event.parse html), IsHeeded element) ∧
      ∃ out, HtmlMinifier.minify html = .ok out ∧
        (preservedTexts (Event.parse out) = preservedTexts (Event.parse html) ↔
          ∀ element ∈ preservedElements (Event.parse html), LosesNoBlank element) := by
  intro html
  have tokens : Token.tokenize html =
      [.startTag "pre".toList [] false, .text " ".toList, .startTag "li".toList [] false,
        .text "a".toList, .endTag "li".toList, .startTag "li".toList [] false, .text " b".toList,
        .endTag "li".toList, .text "\n".toList, .endTag "pre".toList,
        .startTag "textarea".toList [] false, .text " c ".toList, .endTag "textarea".toList] := by
    decide +kernel
  have elements : preservedElements (Event.parse html) =
      [[.elementOpen "pre".toList [], .characters " ".toList, .elementOpen "li".toList [],
          .characters "a".toList, .elementClose "li".toList, .elementOpen "li".toList [],
          .characters " b".toList, .elementClose "li".toList, .characters "\n".toList,
          .elementClose "pre".toList],
        [.elementOpen "textarea".toList [], .characters " c ".toList,
          .elementClose "textarea".toList]] := by
    decide +kernel
  have plainText : ∀ event ∈ Event.parse html, hidesMarkup event = false := by decide +kernel
  have noSelfClosing : ∀ name attributes, .startTag name attributes true ∈ Token.tokenize html →
      Element.isVerbatim name = false := by
    intro name attributes member
    rw [tokens] at member
    simp at member
  have noSlash : HasNoSlash (Event.parse html) := by
    refine .inl fun name given member => ?_
    rcases List.mem_cons.1 member with same | later
    · cases same
    · obtain ⟨attributes, selfClosing, inside, _⟩ := Event.exists_startTag_of_mem later
      rw [tokens] at inside
      simp only [List.mem_cons, List.not_mem_nil, Token.startTag.injEq, reduceCtorEq, or_false,
        false_or] at inside
      rcases inside with ⟨rfl, _⟩ | ⟨rfl, _⟩ | ⟨rfl, _⟩ | ⟨rfl, _⟩ <;> decide
  have heeded : ∀ element ∈ preservedElements (Event.parse html), IsHeeded element := by
    rw [elements]
    refine List.forall_mem_cons.2 ⟨?_, List.forall_mem_cons.2 ⟨?_, List.forall_mem_nil _⟩⟩
    · exact ⟨"<!doctype html><pre> <li>a<li> b</li>\n</pre>".toList, by decide +kernel,
        by decide +kernel⟩
    · exact ⟨"<!doctype html><textarea> c </textarea>".toList, by decide +kernel,
        by decide +kernel⟩
  exact ⟨⟨plainText, noSelfClosing, noSlash, heeded⟩,
    preservedTexts_minify_iff plainText noSelfClosing noSlash heeded⟩

/-- Whether a text without raw text and kept comments is minified to one that shows other texts as
they are. -/
def LosesText (html out : String) : Prop :=
  (∀ event ∈ Event.parse html.toList, hidesMarkup event = false) ∧
    HtmlMinifier.minify html.toList = .ok out.toList ∧
      preservedTexts (Event.parse out.toList) ≠ preservedTexts (Event.parse html.toList)

/-- A blank is taken along with an end tag inside a `pre`. Where the start tag of a section inside
a `pre` is left out, its end tag closes the section around the `pre`. A tag that closes itself, or
is written as if it did, is read in another way. -/
theorem minify_loses_text :
    LosesText "<pre><li>a</li> <li>b</li></pre>" "<!doctype html><pre><li>a<li>b</li></pre>" ∧
      LosesText "<tbody><pre><tbody></tbody><tbody><tr></tbody>x</pre></tbody>"
        "<!doctype html><tbody><pre><tbody></tbody><tr></tbody>x</pre></tbody>" ∧
      LosesText "<textarea/><b>x</b></textarea>" "<!doctype html><textarea><b>x</b></textarea>" ∧
      LosesText "<svg><pre title='a/'>x</pre></svg>"
      "<!doctype html><svg><pre title=a/>x</pre></svg>" := by
  unfold LosesText
  decide +kernel

end HtmlMinifier.Minifier

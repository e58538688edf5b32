/-
# The canonical document is read back

Without the last stage, which leaves out optional tags, a minified document says the same as the
document it was made from: its tags and comments are those of the original in canonical form.
Minifying it again changes nothing. Two kinds of tags are excepted, because their written form is
read in another way: a verbatim element whose tag closes itself has no end tag in the original, and
a value that ends with a slash may be written right in front of the bracket that ends its tag.
-/
import HtmlMinifier.Minifier
import HtmlMinifier.Proofs.Canonical.SecondWriting
import Mathlib.Tactic.FinCases

namespace HtmlMinifier

open Canonical (IsLaidOut IsDocument documentText documentEvents canonicalEvent? isStructural
  outline)

namespace Canonical

/-- The tags and comments of a document are those of its segments. -/
theorem filter_documentEvents (segments : List Segment) (run : Text) :
    (documentEvents segments run).filter isStructural = outline segments := by
  have noText : (if run = [] then [] else [Event.characters run]).filter isStructural = [] := by
    split <;> rfl
  rw [documentEvents, List.filter_append, noText, List.append_nil, outline]

/-- The events of a document are balanced. -/
theorem IsDocument.balanced {collapseEmpty : Bool} {segments : List Segment} {run : Text}
    (document : IsDocument collapseEmpty segments run) :
    Event.Balanced [] (documentEvents segments run) := by
  obtain ⟨events, parsed, balanced⟩ := Event.balanced_parse (documentText segments run)
  rw [parse_documentText document] at parsed
  rw [(List.cons.inj parsed).2]
  exact balanced

/-- A document is serialized as it is. -/
theorem serialize_documentEvents {options : Options} (none : options.compressor = none)
    {segments : List Segment} {run : Text}
    (document : IsDocument options.collapseEmptyAttributes segments run) :
    serialize options (.documentStart :: documentEvents segments run) =
      .ok (documentText segments run) := by
  rw [serialize_of_balanced options document.balanced, steps_documentEvents none document]

end Canonical

/-- A text in which no verbatim element closes itself is serialized as a document that says the
same. -/
theorem Canonical.exists_laidOut {options : Canonical.Options} (none : options.compressor = none)
    {html : Text}
    (noSelfClosing : ∀ name attributes,
      .startTag name attributes true ∈ Token.tokenize html → Element.isVerbatim name = false) :
    ∃ segments run, IsLaidOut segments run ∧
      Canonical.serialize options (Event.parse html) = .ok (documentText segments run) ∧
      outline segments = (Event.parse html).filterMap canonicalEvent? ∧
      ∀ segment ∈ segments,
        segment.mark.ComesFrom options.collapseEmptyAttributes (Event.parse html) := by
  obtain ⟨events, parsed, legible⟩ := Event.legible_of_noSelfClosing noSelfClosing
  have balanced := legible.balanced fun name container => container.named.ne_nil
  obtain ⟨segments, run, laidOut, written, sense, origins⟩ :=
    exists_laidOut_of_legible none legible
  refine ⟨segments, run, laidOut, ?_, ?_, fun segment member => ?_⟩
  · rw [parsed, serialize_of_balanced options balanced, written]
  · rw [sense, parsed]
    rfl
  · rw [parsed]
    exact (origins segment member).earlier (List.suffix_cons _ events)

/-- The start tag of a mark that comes from legible tags is read back and written again as it
is. -/
theorem Canonical.Mark.ComesFrom.isWritten {collapseEmpty : Bool} {events : List Event}
    {mark : Mark}
    (origin : mark.ComesFrom collapseEmpty events)
    (legible : ∀ name given, .elementOpen name given ∈ events →
      ∀ attr ∈ given, Event.IsLegibleAttribute attr) : mark.IsWritten collapseEmpty := by
  intro name attributes same
  cases origin with
  | opening member | void member =>
      cases same
      exact isWrittenTag_canonicalAttributes collapseEmpty _ (legible _ _ member)
  | verbatim place infixed =>
      cases same
      exact isWrittenTag_canonicalAttributes collapseEmpty _
        (legible _ _ (infixed.subset List.mem_cons_self))
  | closing name | comment member => cases same

/-- Tags are legible if none of a verbatim element closes itself and no value ends with a slash. -/
theorem Event.hasLegibleTags {tokens : List Token}
    (noSelfClosing : ∀ name attributes,
      .startTag name attributes true ∈ tokens → Element.isVerbatim name = false)
    (noSlash : ∀ name attributes selfClosing, .startTag name attributes selfClosing ∈ tokens →
      ∀ given ∈ attributes, ∀ value, given.2 = some value →
        (Reference.normalizeAttribute value).getLast? ≠ some '/') :
    Event.HasLegibleTags tokens := by
  intro name attributes selfClosing member
  refine ⟨fun isVerbatim => ?_, noSlash name attributes selfClosing member⟩
  cases selfClosing with
  | false => rfl
  | true =>
      rw [noSelfClosing name attributes member] at isVerbatim
      exact isVerbatim.symm

/-- A text with legible tags is serialized as a document that says the same. -/
theorem Canonical.exists_document {options : Canonical.Options} (none : options.compressor = none)
    {html : Text} (tags : Event.HasLegibleTags (Token.tokenize html)) :
    ∃ segments run, IsDocument options.collapseEmptyAttributes segments run ∧
      Canonical.serialize options (Event.parse html) = .ok (documentText segments run) ∧
      outline segments = (Event.parse html).filterMap canonicalEvent? ∧
      ∀ segment ∈ segments,
        segment.mark.ComesFrom options.collapseEmptyAttributes (Event.parse html) := by
  obtain ⟨segments, run, laidOut, written, sense, origins⟩ :=
    exists_laidOut none fun name attributes
    member => by
      cases isVerbatim : Element.isVerbatim name with
      | false => rfl
      | true => exact (tags name attributes true member).noVerbatim isVerbatim
  refine ⟨segments, run, ⟨laidOut, fun segment member => ?_⟩, written, sense, origins⟩
  exact (origins segment member).isWritten fun name given =>
    Event.isLegibleAttribute_of_mem_parse tags

namespace Minifier

variable {minifier : Minifier}

/-- With the optional tags kept, minifying is serializing. -/
theorem minify_of_keeps (keeps : minifier.settings.elideOptionalTags = false) (html : Text) :
    minifier.minify html = Canonical.serialize minifier.options (Event.parse html) := by
  have same : minifier.finish = id := by
    funext written
    rw [finish, keeps]
    rfl
  rw [minify, minifyEvents, same]
  cases Canonical.serialize minifier.options (Event.parse html) <;> rfl

/-- With the optional tags kept, a minified document is read back as the canonical form of the
original, and minifying it again returns it. -/
theorem minify_canonical (keeps : minifier.settings.elideOptionalTags = false)
    (plain : minifier.compressor = none) {html : Text}
    (noSelfClosing : ∀ name attributes,
      .startTag name attributes true ∈ Token.tokenize html → Element.isVerbatim name = false)
    (noSlash : ∀ name attributes selfClosing,
      .startTag name attributes selfClosing ∈ Token.tokenize html →
        ∀ given ∈ attributes, ∀ value, given.2 = some value →
          (Reference.normalizeAttribute value).getLast? ≠ some '/') :
    ∃ out, minifier.minify html = .ok out ∧
      (Event.parse out).filter isStructural = (Event.parse html).filterMap canonicalEvent? ∧
      minifier.minify out = .ok out := by
  have tags := Event.hasLegibleTags noSelfClosing noSlash
  have none : minifier.options.compressor = none := plain
  obtain ⟨segments, run, document, written, sense, _⟩ := Canonical.exists_document none tags
  refine ⟨documentText segments run, ?_, ?_, ?_⟩
  · rw [minify_of_keeps keeps, written]
  · rw [Canonical.parse_documentText document, ← sense]
    exact Canonical.filter_documentEvents segments run
  · rw [minify_of_keeps keeps, Canonical.parse_documentText document,
      Canonical.serialize_documentEvents none document]

/-- A document with a boolean attribute, a value that needs no quotes, a dropped comment and a
foreign element that closes itself. -/
theorem minify_canonical_form :
    let minifier : Minifier := { settings := { elideOptionalTags := false } }
    let html := "<P Title='a' hidden=x><svg><path d=1 /></svg>b<!-- c --> <br>".toList
    (minifier.settings.elideOptionalTags = false ∧ minifier.compressor = none ∧
      (∀ name attributes,
        .startTag name attributes true ∈ Token.tokenize html → Element.isVerbatim name = false) ∧
      ∀ name attributes selfClosing,
        .startTag name attributes selfClosing ∈ Token.tokenize html →
          ∀ given ∈ attributes, ∀ value, given.2 = some value →
            (Reference.normalizeAttribute value).getLast? ≠ some '/') ∧
      ∃ out, minifier.minify html = .ok out ∧
        (Event.parse out).filter isStructural = (Event.parse html).filterMap canonicalEvent? ∧
        minifier.minify out = .ok out := by
  intro minifier html
  have tokens : Token.tokenize html =
      [.startTag "p".toList [("title".toList, some "a".toList), ("hidden".toList, some "x".toList)]
        false,
        .startTag "svg".toList [] false, .startTag "path".toList [("d".toList, some "1".toList)]
          true,
        .endTag "svg".toList, .text "b".toList, .comment " c ".toList, .text " ".toList,
        .startTag "br".toList [] true] := by
    decide +kernel
  have noSelfClosing : ∀ name attributes,
      .startTag name attributes true ∈ Token.tokenize html → Element.isVerbatim name = false := by
    intro name attributes member
    rw [tokens] at member
    simp only [List.mem_cons, List.not_mem_nil, Token.startTag.injEq, reduceCtorEq, or_false,
      false_or, and_false, and_true] at member
    rcases member with ⟨rfl, _⟩ | ⟨rfl, _⟩ <;> decide
  have noSlash : ∀ name attributes selfClosing,
      .startTag name attributes selfClosing ∈ Token.tokenize html →
        ∀ given ∈ attributes, ∀ value, given.2 = some value →
          (Reference.normalizeAttribute value).getLast? ≠ some '/' := by
    intro name attributes selfClosing member given inside value same
    rw [tokens] at member
    have each : ∀ found ∈ [some "a".toList, some "x".toList, some "1".toList],
        (found.map fun value => (Reference.normalizeAttribute value).getLast?) ≠
            some (some '/') := by
      decide +kernel
    have found : given.2 ∈ [some "a".toList, some "x".toList, some "1".toList] := by
      simp only [List.mem_cons, List.not_mem_nil, Token.startTag.injEq, reduceCtorEq, or_false,
        false_or] at member
      rcases member with ⟨_, rfl, _⟩ | ⟨_, rfl, _⟩ | ⟨_, rfl, _⟩ | ⟨_, rfl, _⟩
      · fin_cases inside <;> simp
      · cases inside
      · fin_cases inside; simp
      · cases inside
    rw [same] at found
    have last := each _ found
    rwa [Option.map_some, Ne, Option.some.injEq] at last
  exact ⟨⟨rfl, rfl, noSelfClosing, noSlash⟩, minify_canonical rfl rfl noSelfClosing noSlash⟩

end Minifier

end HtmlMinifier

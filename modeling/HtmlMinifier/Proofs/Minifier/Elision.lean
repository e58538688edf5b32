/-
# Leaving out tags and the tree

The last stage of minifying leaves out tags that a reader is expected to supply again. The rules
look at the text right behind a tag, and the reader looks at the innermost element. The two views
differ where an end tag was the only thing to close an element inside another one that the next tag
closes. They agree on a document in which every end tag is supplied by what follows it.

Where they do not, the short form is not minified to itself either: a reader of it does not get
back the whole document, and what it makes of the tags that are left may be left out in turn.
-/
import HtmlMinifier.Proofs.Canonical.PlainWriting
import HtmlMinifier.Proofs.Minifier.RoundTrip
import HtmlMinifier.Proofs.OptionalTag.Restoration
import HtmlMinifier.Proofs.OptionalTag.VoidEnd

namespace HtmlMinifier.Minifier

open Canonical (Cell LaidCells Mark Place)
open Event (isImplicit reading tokensOf)

/-- The same minifier with the optional tags kept or left out. -/
def eliding (minifier : Minifier) (elides : Bool) : Minifier :=
  { minifier with settings := { minifier.settings with elideOptionalTags := elides } }

/-- Whether an event puts text into a document that is written as it is: an element with raw text,
or a comment that is kept. -/
def hidesMarkup : Event → Bool
  | .elementOpen name _ => Element.isRawText name
  | .comment body => Canonical.isConditional body
  | _ => false

/-- Without raw text and kept comments, a document is read as plain events. -/
theorem isPlainEvent_of_plainText {html : Text}
    (plainText : ∀ event ∈ Event.parse html, hidesMarkup event = false) :
    ∀ event ∈ Event.parse html, Canonical.IsPlainEvent event := by
  intro event inside
  cases event with
  | elementOpen name attributes =>
      obtain ⟨named, attributeNames⟩ := Event.named_of_mem_parse inside
      exact ⟨⟨named, plainText _ inside⟩, attributeNames⟩
  | comment body => exact plainText _ inside
  | documentStart | elementClose name | characters text | cdata text => trivial

/-- A mark that is written for events without raw text and kept comments has nothing in it that
looks like a tag. -/
theorem isSolid_of_comesFrom {collapseEmpty : Bool} {html : Text}
    (plainText : ∀ event ∈ Event.parse html, hidesMarkup event = false) {mark : Mark}
    (origin : mark.ComesFrom collapseEmpty (Event.parse html)) {place : Place}
    (admitted : mark.Admitted place) : OptionalTag.IsSolid mark := by
  cases origin with
  | opening | void | closing => trivial
  | comment member =>
      cases admitted with
      | comment avoids conditional =>
          have dropped : Canonical.isConditional _ = false := plainText _ member
          rw [conditional] at dropped
          cases dropped
  | verbatim inside infixed =>
      cases admitted with
      | verbatim named isVerbatim stands encoded avoids fits =>
          exact fits.ne_bracket (plainText _ (infixed.subset List.mem_cons_self))

/-- In laid cells that are written for such events nothing looks like a tag. -/
theorem isSolid_of_laid {collapseEmpty : Bool} {html : Text}
    (plainText : ∀ event ∈ Event.parse html, hidesMarkup event = false) {place : Place}
    {lead : Text} {cells : List Cell} (laid : LaidCells place lead cells)
    (origins : ∀ cell ∈ cells, cell.mark.ComesFrom collapseEmpty (Event.parse html)) :
    ∀ cell ∈ cells, OptionalTag.IsSolid cell.mark := by
  induction laid with
  | last closed fits => exact List.forall_mem_nil _
  | cons fits settled admitted _ ih =>
      rw [List.forall_mem_cons] at origins ⊢
      exact ⟨isSolid_of_comesFrom plainText origins.1 admitted, ih origins.2⟩

/-- The short form of a document is what the rules leave of the whole document, trimmed at its
end. -/
theorem minify_of_whole {minifier : Minifier} {html whole : Text}
    (written : (minifier.eliding false).minify html = .ok whole) :
    (minifier.eliding true).minify html =
      .ok (Text.trimEnd (OptionalTag.elide minifier.settings.strictBodyOmission whole)) := by
  obtain ⟨events, parsed, balanced⟩ := Event.balanced_parse html
  obtain ⟨out, serialized, begins, _⟩ := Canonical.doctype_prefix_serialize minifier.options
    balanced
  rw [minify_of_keeps rfl, parsed] at written
  have same : whole = out := Except.ok.inj (written.symm.trans serialized)
  subst same
  have elides : (minifier.eliding true).settings.elideOptionalTags = true := rfl
  rw [minify, minifyEvents, parsed, show (minifier.eliding true).options =
    minifier.options from rfl,
    serialized, Except.map, finish, if_pos elides,
    ← Canonical.trim_of_doctype (OptionalTag.doctype_prefix_elide _ begins)]
  rfl

/-- A document without raw text and kept comments, and without tags that are not read back as they
are written, keeps its elements and its words in their places when its optional tags are left out,
if what it is read from with the optional tags kept can be restored. -/
theorem reading_minify {minifier : Minifier}
    (lenient : minifier.settings.strictBodyOmission = false)
    (uncompressed : minifier.compressor = none) {html whole : Text}
    (plainText : ∀ event ∈ Event.parse html, hidesMarkup event = false)
    (tags : Event.HasLegibleTags (Token.tokenize html))
    (written : (minifier.eliding false).minify html = .ok whole)
    (restorable : OptionalTag.IsRestorable (tokensOf whole)) :
    ∃ short, (minifier.eliding true).minify html = .ok short ∧
      reading isImplicit (Event.parse whole) = reading isImplicit (Event.parse short) := by
  have none : minifier.options.compressor = none := uncompressed
  obtain ⟨segments, run, document, serialized, _, origins⟩ :=
    Canonical.exists_document none tags
  have same : whole = Canonical.documentText segments run := by
    rw [minify_of_keeps rfl] at written
    exact Except.ok.inj (written.symm.trans serialized)
  obtain ⟨lead, cells, text, laid, _, marks⟩ := document.exists_cells
  rw [same, text] at restorable
  refine ⟨_, minify_of_whole written, ?_⟩
  have comesFrom : ∀ cell ∈ cells,
      cell.mark.ComesFrom minifier.options.collapseEmptyAttributes (Event.parse html) := by
    intro cell inside
    obtain ⟨segment, among, sameMark⟩ := marks cell inside
    rw [← sameMark]
    exact origins segment among
  have isWritten : ∀ cell ∈ cells,
      cell.mark.IsWritten minifier.options.collapseEmptyAttributes := by
    intro cell inside
    obtain ⟨segment, among, sameMark⟩ := marks cell inside
    rw [← sameMark]
    exact document.written segment among
  rw [lenient, same, text]
  exact OptionalTag.reading_elide laid (isSolid_of_laid plainText laid comesFrom) restorable
    isWritten

/-- A document with a body, a paragraph in an item of a list, and a table with two cells. -/
theorem reading_minify_parts :
    let minifier : Minifier := {}
    let html := ("<body><ul><li><p>a</p></li> <li>b</li></ul>" ++
      "<table><tr><td>c</td> <td>d</td></tr></table></body>").toList
    let whole := ("<!doctype html><body><ul><li><p>a</p></li><li>b</li></ul>" ++
      "<table><tr><td>c</td><td>d</td></tr></table></body>").toList
    (minifier.settings.strictBodyOmission = false ∧ minifier.compressor = none ∧
      (∀ event ∈ Event.parse html, hidesMarkup event = false) ∧
      Event.HasLegibleTags (Token.tokenize html) ∧
      (minifier.eliding false).minify html = .ok whole ∧
      OptionalTag.IsRestorable (tokensOf whole)) ∧
      ∃ short, (minifier.eliding true).minify html = .ok short ∧
        reading isImplicit (Event.parse whole) = reading isImplicit (Event.parse short) := by
  intro minifier html whole
  have plainText : ∀ event ∈ Event.parse html, hidesMarkup event = false := by decide +kernel
  have tags : Event.HasLegibleTags (Token.tokenize html) := by decide +kernel
  have written : (minifier.eliding false).minify html = .ok whole := by decide +kernel
  have restorable : OptionalTag.IsRestorable (tokensOf whole) := by decide +kernel
  exact ⟨⟨rfl, rfl, plainText, tags, written, restorable⟩,
    reading_minify rfl rfl plainText tags written restorable⟩

/-- A cell that ends with a paragraph: the end tag of the paragraph is left out in front of that of
the cell, and this one in front of the next cell, so the next cell is read inside the paragraph. -/
theorem reading_minify_table :
    let minifier : Minifier := {}
    let html := "<table><tr><td><p>a</p></td><td>b</td></tr></table>".toList
    (∀ event ∈ Event.parse html, hidesMarkup event = false) ∧
      ∃ whole short, (minifier.eliding false).minify html = .ok whole ∧
        (minifier.eliding true).minify html = .ok short ∧
        reading isImplicit (Event.parse whole) ≠ reading isImplicit (Event.parse short) := by
  refine ⟨by decide +kernel,
    "<!doctype html><table><tr><td><p>a</p></td><td>b</td></tr></table>".toList,
    "<!doctype html><table><tr><td><p>a<td>b</table>".toList, ?_, ?_, ?_⟩
  · decide +kernel
  · decide +kernel
  · decide +kernel

/-- Whether a text without raw text and kept comments is minified to another one that reads
differently with the optional tags left out. -/
def ReadsDifferently (html whole short : String) : Prop :=
  (∀ event ∈ Event.parse html.toList, hidesMarkup event = false) ∧
    (({} : Minifier).eliding false).minify html.toList = .ok whole.toList ∧
    (({} : Minifier).eliding true).minify html.toList = .ok short.toList ∧
    reading isImplicit (Event.parse whole.toList) ≠ reading isImplicit (Event.parse short.toList)

/-- What is asked of a document is not asked in vain. Inside a cell the start tag of the body keeps
a row from ending the cell. The end of a column group is left out also where nothing implies it. A
rule for `li` takes `link` for `li`. The end of a paragraph ends another paragraph inside it. And
the end of a part of a table whose start tag is left out ends a part of the table around it. -/
theorem readsDifferently :
    ReadsDifferently "<td><body><tr>x</tr></body></td>"
      "<!doctype html><td><body><tr>x</tr></body></td>" "<!doctype html><td><tr>x</td>" ∧
    ReadsDifferently "<li><colgroup></colgroup></li><li>b</li>"
      "<!doctype html><li><colgroup></colgroup></li><li>b</li>"
      "<!doctype html><li><colgroup><li>b</li>" ∧
    ReadsDifferently "<li>a</li><link>b" "<!doctype html><li>a</li><link>b"
      "<!doctype html><li>a<link>b" ∧
    ReadsDifferently "<p><td><p>a</p></td></p>b" "<!doctype html><p><td><p>a</p></td></p>b"
      "<!doctype html><p><td><p>a</p>b" ∧
    ReadsDifferently "<tbody><b><tbody></tbody><tbody><tr></tr></tbody>x</b></tbody>"
      "<!doctype html><tbody><b><tbody></tbody><tbody><tr></tr></tbody>x</b></tbody>"
      "<!doctype html><tbody><b><tbody></tbody><tr></tbody>x</b></tbody>" := by
  unfold ReadsDifferently
  decide +kernel

/-! ## Minifying again -/

/-- The short form of a document changes when it is minified. -/
def ChangesAgain (html once twice : String) : Prop :=
  HtmlMinifier.minify html.toList = .ok once.toList ∧
    HtmlMinifier.minify once.toList = .ok twice.toList ∧ once ≠ twice

instance (html once twice : String) : Decidable (ChangesAgain html once twice) :=
  inferInstanceAs (Decidable (_ ∧ _ ∧ _))

/-- Not every short form is minified to itself. The text of a script is taken for markup, so a tag
that is put together by leaving out another one is left out the next time. A blank in front of a
tag of the skeleton stands in front of a block once that tag is gone. The blank between two elements
of the body stands in `html` when the body has lost its tags and `html` has kept its own. A second
column group looks like the first when the first has lost its tags. A row is read inside the
paragraph that ended the cell before it. -/
theorem minify_not_fixed :
    ChangesAgain "<script>\"<ht</br>ml>\"</script>" "<!doctype html><script>\"<html>\"</script>"
      "<!doctype html><script>\"\"</script>" ∧
    ChangesAgain "x <body><p>" "<!doctype html>x <p>" "<!doctype html>x<p>" ∧
    ChangesAgain "<html a><body><i>x</i> <i>y</i>" "<!doctype html><html a><i>x</i> <i>y</i>"
      "<!doctype html><html a><i>x</i><i>y</i>" ∧
    ChangesAgain "<colgroup><col></colgroup><colgroup><col>" "<!doctype html><col><colgroup><col>"
      "<!doctype html><col><col>" ∧
    ChangesAgain "<td><p></p></td><tr>" "<!doctype html><td><p><tr></tr>"
      "<!doctype html><td><p><tr></td>" := by
  decide +kernel

/-! ## End tags of void elements -/

/-- Without raw text and kept comments, the short form of a document has no end tag of a void
element, whatever end tags the document has. -/
theorem exists_minify_without_voidEnd {minifier : Minifier}
    (elides : minifier.settings.elideOptionalTags = true) {html : Text}
    (plainText : ∀ event ∈ Event.parse html, hidesMarkup event = false) :
    ∃ short, minifier.minify html = .ok short ∧ ¬OptionalTag.HasVoidEnd short := by
  obtain ⟨events, parsed, balanced⟩ := Event.balanced_parse html
  have plainEvents : ∀ event ∈ events, Canonical.IsPlainEvent event := fun event member =>
    isPlainEvent_of_plainText plainText event (by rw [parsed]; exact List.mem_cons_of_mem _ member)
  obtain ⟨pieces, plain, written⟩ :=
    Canonical.exists_plain_of_balanced minifier.options balanced plainEvents
  refine ⟨Text.trim (OptionalTag.elide minifier.settings.strictBodyOmission
    (Canonical.textOf pieces)), ?_, ?_⟩
  · rw [minify, minifyEvents, parsed, written, Except.map, finish, if_pos elides]
  · rintro ⟨tag, isEnd, occurs⟩
    refine OptionalTag.not_hasVoidEnd_elide_textOf minifier.settings.strictBodyOmission plain
      ⟨tag, isEnd, occurs.trans ?_⟩
    exact (List.rdropWhile_prefix _ _).isInfix.trans (List.dropWhile_suffix _).isInfix

end HtmlMinifier.Minifier

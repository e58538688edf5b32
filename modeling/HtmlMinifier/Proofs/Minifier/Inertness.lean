/-
# Inert text stays inert

Leaving out tags joins what stands around them, also in text that only looks like markup. Such text
may therefore lose a part, and the part that is lost may have kept the rest from being an end tag.
As long as every script, every style and every comment that is kept still ends where it did when
the rules pass over it by itself, nothing of a text becomes a tag that was none.

Kept comments should not lose anything at all. They do if they spell a tag that the rules take out,
and only then.
-/
import HtmlMinifier.Proofs.Canonical.CellReading
import HtmlMinifier.Proofs.Minifier.RoundTrip
import HtmlMinifier.Proofs.OptionalTag.Mark

namespace HtmlMinifier.Minifier

open Canonical (Mark Cell AreNamed renderCells isConditional canonicalEvent? isStructural outline)
open OptionalTag (Leaves LeavesMarks Rule applyAll activeRules elide)
open Event (tokensOf)
open Token (AvoidsEndTag startTagName? commentBody? startTagNames commentBodies)

/-! ## The marks of a minified document -/

/-- What is looked for in the outline of segments is found in their marks. -/
theorem filterMap_outline {f : Event → Option Text} {g : Mark → Option Text}
    (each : ∀ mark : Mark, (mark.events.filter isStructural).filterMap f = (g mark).toList)
    (segments : List Canonical.Segment) :
    (outline segments).filterMap f = (segments.map Canonical.Segment.mark).filterMap g := by
  induction segments using List.reverseRecOn with
  | nil => rfl
  | append_singleton earlier segment ih =>
      rw [Canonical.outline_concat, List.filterMap_append, ih, each, List.map_append,
        List.filterMap_append, List.map_singleton, List.filterMap_cons]
      cases g segment.mark <;> rfl

theorem openedNames_mark (mark : Mark) :
    (mark.events.filter isStructural).filterMap Event.openedName? = mark.name?.toList := by
  cases mark with
  | opening name attributes | void name attributes | closing name | comment body => rfl
  | verbatim name attributes body =>
      rw [Mark.events]
      split <;> rfl

theorem commentBodies_mark (mark : Mark) :
    (mark.events.filter isStructural).filterMap Event.commentBody? = mark.comment?.toList := by
  cases mark with
  | opening name attributes | void name attributes | closing name | comment body => rfl
  | verbatim name attributes body =>
      rw [Mark.events]
      split <;> rfl

/-- The canonical form of events opens the same elements. -/
theorem openedNames_canonicalEvent (events : List Event) :
    (events.filterMap canonicalEvent?).filterMap Event.openedName? =
      events.filterMap Event.openedName? := by
  rw [List.filterMap_filterMap]
  apply List.filterMap_congr
  intro event _
  cases event with
  | comment body => rw [canonicalEvent?]; split <;> rfl
  | documentStart | elementOpen name attributes | elementClose name | characters text
  | cdata text => rfl

/-- The canonical form of events has the conditional comments. -/
theorem commentBodies_canonicalEvent (events : List Event) :
    (events.filterMap canonicalEvent?).filterMap Event.commentBody? =
      (events.filterMap Event.commentBody?).filter isConditional := by
  rw [List.filterMap_filterMap, List.filter_filterMap]
  apply List.filterMap_congr
  intro event _
  cases event with
  | comment body =>
      rw [canonicalEvent?, Event.commentBody?, Option.filter]
      split <;> rfl
  | documentStart | elementOpen name attributes | elementClose name | characters text
  | cdata text => rfl

/-- The marks of a document that is minified: its start tags and its conditional comments, as they
are written before the optional tags are left out. -/
structure AreMarksOf (html : Text) (marks : List Mark) : Prop where
  names : marks.filterMap Mark.name? = startTagNames html
  comments : marks.filterMap Mark.comment? = (commentBodies html).filter isConditional
  origins : ∀ mark ∈ marks, mark.ComesFrom true (Event.parse html)

/-- A minified document is what the rules leave of the marks, with runs of text behind them. -/
theorem exists_cells_minify {html : Text}
    (noSelfClosing : ∀ name attributes,
      .startTag name attributes true ∈ Token.tokenize html → Element.isVerbatim name = false) :
    ∃ marks lead cells,
      HtmlMinifier.minify html = .ok (Element.doctype ++ (lead ++ renderCells cells)) ∧
        AreNamed lead cells ∧ LeavesMarks (activeRules false) marks (cells.map Cell.mark) ∧
        AreMarksOf html marks := by
  have none : (ofSettings {}).options.compressor = none := rfl
  obtain ⟨segments, run, laidOut, written, sense, origins⟩ :=
    Canonical.exists_laidOut none noSelfClosing
  obtain ⟨tail, laid, fits⟩ := laidOut.laid
  obtain ⟨lead, cells, text, named, marks⟩ :=
    Canonical.exists_cells laid Canonical.Place.isContained_start fits
  obtain ⟨lead', cells', elided, named', left⟩ := OptionalTag.exists_leaves_elide named
  obtain ⟨lead'', cells'', trimmed, named'', same⟩ := Canonical.exists_cells_trimEnd named'
  refine ⟨segments.map Canonical.Segment.mark, lead'', cells'', ?_, named'', ?_, ?_, ?_, ?_⟩
  · have document : Canonical.documentText segments run =
        Element.doctype ++ (lead ++ renderCells cells) := by
      rw [Canonical.documentText, List.append_assoc, text]
    have begins : Element.doctype <+: elide false (Element.doctype ++
        (lead ++ renderCells cells)) :=
      OptionalTag.doctype_prefix_elide false (List.prefix_append _ _)
    rw [HtmlMinifier.minify, minify, minifyEvents, written, Except.map, document, ← trimmed,
      ← elided,
      ← Canonical.trim_of_doctype begins]
    rfl
  · rw [same, ← marks]
    exact left
  · rw [← filterMap_outline openedNames_mark, sense, openedNames_canonicalEvent,
      Event.openedNames_parse]
  · rw [← filterMap_outline commentBodies_mark, sense, commentBodies_canonicalEvent,
      Event.commentBodies_parse]
  · intro mark member
    obtain ⟨segment, inside, rfl⟩ := List.mem_map.1 member
    exact origins segment inside

/-! ## Bodies that end where they did -/

/-- A text whose scripts and styles are written in a way that is read back: their tags do not close
themselves, which goes for all verbatim elements; no value ends with a slash, which might close the
tag that is written; and what the rules leave of a body, between its tags by itself, has no end tag
in it. -/
structure KeepsRawText (html : Text) : Prop where
  noSelfClosing : ∀ name attributes,
    .startTag name attributes true ∈ Token.tokenize html → Element.isVerbatim name = false
  noSlash : ∀ name attributes, .elementOpen name attributes ∈ Event.parse html →
    Element.isRawText name = true →
      ∀ given ∈ attributes, (Reference.normalizeAttribute given.2).getLast? ≠ some '/'
  closed : ∀ name attributes body,
    [.elementOpen name attributes, .characters body] <:+: Event.parse html →
      Element.isRawText name = true →
        ∃ kept, elide false (Mark.verbatim name [] body).render =
          (Mark.verbatim name [] kept).render ∧
          AvoidsEndTag name kept

/-- What the rules leave of a mark is read up to its end tag. -/
theorem KeepsRawText.keepsBody {html : Text} (raw : KeepsRawText html) {mark left : Mark}
    (origin : mark.ComesFrom true (Event.parse html))
    (leaves : Leaves (activeRules false) mark left) :
    left.KeepsBody := by
  cases leaves with
  | opening name attributes | void name attributes | closing name | comment fewer alone => trivial
  | @verbatim name body kept attributes fewer alone =>
      cases origin with
      | @verbatim _ body given place infixed =>
          have opened : .elementOpen name given ∈ Event.parse html :=
            infixed.subset List.mem_cons_self
          cases isRaw : Element.isRawText name with
          | false =>
              have markup : (place.inside name).inRawText = false := isRaw
              have solid : ∀ c ∈ kept, c ≠ '<' := fun c inside =>
                (Canonical.Place.fits_normalize _ body).ne_bracket markup c (fewer.subset inside)
              exact ⟨Token.avoidsEndTag_of_ne_bracket name solid, .inr solid⟩
          | true =>
              have same : (place.inside name).normalize body = body := by
                have inRawText : (place.inside name).inRawText = true := isRaw
                rw [Canonical.Place.normalize, if_pos inRawText]
              rw [same] at fewer alone
              refine ⟨?_, .inl ?_⟩
              · by_cases none : body = []
                · rw [none, List.sublist_nil] at fewer
                  rw [fewer]
                  exact Token.avoidsEndTag_of_ne_bracket name (List.forall_mem_nil _)
                · rw [if_neg none] at infixed
                  obtain ⟨kept', elided, avoids⟩ := raw.closed name given body infixed isRaw
                  rw [← OptionalTag.verbatim_render_inj (alone.symm.trans elided)] at avoids
                  exact avoids
              · have legible : ∀ attr ∈ given, Event.IsLegibleAttribute attr := fun attr member =>
                  ⟨(Event.named_of_mem_parse opened).2 attr member,
                    raw.noSlash name given opened isRaw attr member⟩
                have safe := (Canonical.isWrittenTag_canonicalAttributes true name legible).safe
                rw [Canonical.tagRead, Token.readAttributes_tagTail safe]

/-! ## Start tags -/

/-- What rules leave of marks has no more start tags. -/
theorem names_sublist {used : List Rule} {marks left : List Mark}
    (leaves : LeavesMarks used marks left) :
    (left.filterMap Mark.name?).Sublist (marks.filterMap Mark.name?) := by
  induction leaves with
  | nil => exact List.Sublist.refl []
  | @out mark marks left noComment _ ih =>
      rw [List.filterMap_cons]
      cases mark.name? with
      | none => exact ih
      | some name => exact ih.cons name
  | @stays mark mark' marks left leaves _ ih =>
      have same : mark'.name? = mark.name? := by cases leaves <;> rfl
      rw [List.filterMap_cons, List.filterMap_cons, same]
      cases mark.name? with
      | none => exact ih
      | some name => exact ih.cons_cons name

/-- The document type is neither a tag nor a comment. -/
theorem filterMap_tokenize_doctype {f : Token → Option Text}
    (noText : ∀ body, f (.text body) = none)
    (noDoctype : ∀ body, f (.doctype body) = none) (text : Text) :
    (Token.tokenize (Element.doctype ++ text)).filterMap f = (tokensOf text).filterMap f := by
  rw [Canonical.tokenize_doctype, List.filterMap_cons, noDoctype,
    Canonical.filterMap_tokensOf noText]

/-- Nothing becomes a start tag that was none, if the scripts, the styles and the conditional
comments end where they did when the rules pass over each of them by itself. -/
theorem startTagNames_minify_sublist {html : Text} (raw : KeepsRawText html)
    (closed : ∀ body ∈ commentBodies html, isConditional body = true →
      ∃ kept, elide false (Mark.comment body).render = (Mark.comment kept).render ∧
        Text.Avoids "-->".toList kept) :
    ∃ out, HtmlMinifier.minify html = .ok out ∧ (startTagNames out).Sublist
    (startTagNames html) := by
  obtain ⟨marks, lead, cells, minified, named, leaves, areMarks⟩ :=
    exists_cells_minify raw.noSelfClosing
  refine ⟨_, minified, ?_⟩
  have origin : ∀ cell ∈ cells, ∃ mark ∈ marks, Leaves (activeRules false) mark cell.mark := by
    intro cell member
    exact leaves.exists_of_mem (List.mem_map.2 ⟨cell, member, rfl⟩)
  have keeps : ∀ cell ∈ cells, cell.mark.KeepsBody := by
    intro cell member
    obtain ⟨mark, inside, left⟩ := origin cell member
    exact raw.keepsBody (areMarks.origins mark inside) left
  have ends : ∀ cell ∈ cells, ∀ body, cell.mark = .comment body →
      Text.Avoids "-->".toList body := by
    intro cell member kept same
    obtain ⟨mark, inside, left⟩ := origin cell member
    rw [same] at left
    cases left with
    | @comment body _ fewer alone =>
        have listed : body ∈ (commentBodies html).filter isConditional := by
          rw [← areMarks.comments]
          exact List.mem_filterMap.2 ⟨.comment body, inside, rfl⟩
        obtain ⟨isBody, conditional⟩ := List.mem_filter.1 listed
        obtain ⟨kept', elided, avoids⟩ := closed body isBody conditional
        rw [← OptionalTag.comment_render_inj (alone.symm.trans elided)] at avoids
        exact avoids
  have read : startTagNames (Element.doctype ++ (lead ++ renderCells cells)) =
      (cells.map Cell.mark).filterMap Mark.name? := by
    rw [startTagNames, filterMap_tokenize_doctype (fun _ => rfl) fun _ => rfl]
    exact Canonical.filterMap_startTagName?_cells named keeps ends
  rw [read, ← areMarks.names]
  exact names_sublist leaves

/-- Neighbours in a list. -/
theorem mem_zip_tail_of_infix {α : Type} {a b : α} {items : List α} (infixed : [a, b] <:+: items) :
    (a, b) ∈ items.zip items.tail := by
  obtain ⟨front, back, rfl⟩ := infixed
  induction front with
  | nil => exact List.mem_cons_self
  | cons c front ih =>
      cases front with
      | nil => exact List.mem_cons_of_mem _ ih
      | cons d front => exact List.mem_cons_of_mem _ ih

/-- A script and a conditional comment that lose an end tag, and end where they did. -/
theorem startTagNames_minify_script :
    let html := "<script>a</br>b</script><!--[if IE]><p></br><![endif]--><i>c</i>".toList
    (KeepsRawText html ∧ ∀ body ∈ commentBodies html, isConditional body = true →
        ∃ kept, elide false (Mark.comment body).render = (Mark.comment kept).render ∧
          Text.Avoids "-->".toList kept) ∧
      ∃ out, HtmlMinifier.minify html = .ok out ∧ (startTagNames out).Sublist
          (startTagNames html) := by
  intro html
  have tokens : Token.tokenize html =
      [.startTag "script".toList [] false, .text "a</br>b".toList, .endTag "script".toList,
        .comment "[if IE]><p></br><![endif]".toList, .startTag "i".toList [] false,
          .text "c".toList,
        .endTag "i".toList] := by
    decide +kernel
  have events : Event.parse html =
      [.documentStart, .elementOpen "script".toList [], .characters "a</br>b".toList,
        .elementClose "script".toList, .comment "[if IE]><p></br><![endif]".toList,
        .elementOpen "i".toList [], .characters "c".toList, .elementClose "i".toList] := by
    decide +kernel
  have raw : KeepsRawText html := by
    refine ⟨fun name attributes member => ?_, fun name attributes member _ given inside => ?_,
      fun name attributes body infixed isRaw => ?_⟩
    · rw [tokens] at member
      simp at member
    · rw [events] at member
      simp only [List.mem_cons, List.not_mem_nil, Event.elementOpen.injEq, reduceCtorEq, or_false,
        false_or] at member
      rcases member with ⟨_, rfl⟩ | ⟨_, rfl⟩ <;> cases inside
    · have beside := mem_zip_tail_of_infix infixed
      rw [events] at beside
      simp only [List.tail_cons, List.zip_cons_cons, List.zip_nil_right, List.mem_cons,
        List.not_mem_nil, Prod.mk.injEq, Event.elementOpen.injEq, Event.characters.injEq,
          reduceCtorEq,
        or_false, false_or, and_false] at beside
      rcases beside with ⟨⟨rfl, _⟩, rfl⟩ | ⟨⟨rfl, _⟩, _⟩
      · exact ⟨"ab".toList, by decide +kernel,
          Token.avoidsEndTag_of_ne_bracket _ (by simp)⟩
      · exact absurd isRaw (by decide)
  have closed : ∀ body ∈ commentBodies html, isConditional body = true →
      ∃ kept, elide false (Mark.comment body).render = (Mark.comment kept).render ∧
        Text.Avoids "-->".toList kept := by
    intro body member _
    rw [commentBodies, tokens] at member
    rw [List.mem_singleton.1 member]
    -- What is left is read back as a comment, and no comment that is read contains its end.
    have read : .comment "[if IE]><p><![endif]".toList ∈
        Token.tokenize "<!--[if IE]><p><![endif]-->".toList := by
      decide +kernel
    exact ⟨"[if IE]><p><![endif]".toList, by decide +kernel,
      Token.avoids_of_mem (Token.stream_tokenize _) read⟩
  exact ⟨⟨raw, closed⟩, startTagNames_minify_sublist raw closed⟩

/-- Whether a text is minified to one with a start tag that the text does not have. -/
def Awakens (html out : String) : Prop :=
  HtmlMinifier.minify html.toList = .ok out.toList ∧
    ¬ (startTagNames out.toList).Sublist (startTagNames html.toList)

/-- The text of a script becomes an end tag of the script, so what follows it is read as markup.
The same happens in a comment. Where the tag of a script closes itself, or is written as if it did,
it may happen even without a rule. -/
theorem minify_awakens :
    Awakens "<script></scr</br>ipt><b></script>" "<!doctype html><script></script><b></script>" ∧
      Awakens "<!--[if IE]>-</br>-><b><![endif]-->"
      "<!doctype html><!--[if IE]>--><b><![endif]-->" ∧
      Awakens "<script/><!--[if IE]></script><b><![endif]-->"
        "<!doctype html><script><!--[if IE]></script><b><![endif]--></script>" ∧
      Awakens "<script src='x/'><b></script>" "<!doctype html><script src=x/><b></script>" := by
  unfold Awakens
  decide +kernel

/-! ## Comments -/

/-- A text in front of a stop is split off no longer than it is. -/
theorem length_splitAt_append_le (stop body rest : Text) :
    (Text.splitAt stop (body ++ (stop ++ rest))).1.length ≤ body.length := by
  induction body with
  | nil =>
      cases stop with
      | nil =>
          cases rest with
          | nil => exact Nat.le_refl 0
          | cons c rest => exact Nat.le_of_eq rfl
      | cons d stop =>
          have found := Text.dropFolded?_append_self (d :: stop) rest
          rw [List.cons_append] at found
          rw [List.nil_append, List.cons_append, Text.splitAt, found]
  | cons c body ih =>
      rw [List.cons_append, Text.splitAt]
      split
      · exact Nat.zero_le _
      · exact Nat.succ_le_succ ih

/-- A body that has lost something is not read as the body that it was. -/
theorem splitAt_commentEnd_eq_iff {body kept : Text} (avoids : Text.Avoids "-->".toList body)
    (fewer : kept.Sublist body) (rest : Text) :
    (Text.splitAt "-->".toList (kept ++ ("-->".toList ++ rest))).1 = body ↔ kept = body := by
  constructor
  · intro same
    have short := length_splitAt_append_le "-->".toList kept rest
    rw [same] at short
    exact fewer.eq_of_length_le short
  · rintro rfl
    rw [Text.splitAt_commentEnd avoids]

/-- A comment that loses nothing is what the rules leave of it. -/
theorem applyAll_comment_eq_iff {used : List Rule} {body kept : Text}
    (alone : applyAll used (Mark.comment body).render = (Mark.comment kept).render) :
    applyAll used (Mark.comment body).render = (Mark.comment body).render ↔ kept = body := by
  constructor
  · intro same
    exact OptionalTag.comment_render_inj (alone.symm.trans same)
  · rintro rfl
    exact alone

/-- A mark without a comment leaves none. -/
theorem comment?_of_leaves {used : List Rule} {mark left : Mark} (leaves : Leaves used mark left)
    (noComment : mark.comment? = none) : left.comment? = none := by
  cases leaves with
  | opening name attributes | void name attributes | closing name
  | verbatim attributes fewer alone => rfl
  | comment fewer alone => cases noComment

/-- Comments are read as they were exactly if the rules leave each of them as it is. -/
theorem filterMap_commentBody?_cells_iff {used : List Rule} {marks left : List Mark}
    (leaves : LeavesMarks used marks left)
    (ends : ∀ body ∈ marks.filterMap Mark.comment?, Text.Avoids "-->".toList body)
    {lead : Text} {cells : List Cell} (same : cells.map Cell.mark = left)
    (named : AreNamed lead cells)
    (keeps : ∀ cell ∈ cells, cell.mark.KeepsBody) :
    (tokensOf (lead ++ renderCells cells)).filterMap commentBody? = marks.filterMap Mark.comment? ↔
      ∀ body ∈ marks.filterMap Mark.comment?,
        applyAll used (Mark.comment body).render = (Mark.comment body).render := by
  have noText : ∀ body, commentBody? (.text body) = none := fun _ => rfl
  induction leaves generalizing lead cells with
  | nil =>
      rw [List.map_eq_nil_iff.1 same, Canonical.tokensOf_append named.lead,
        Canonical.renderCells_nil,
        Canonical.tokensOf_nil, List.append_nil, Canonical.filterMap_letterTokens noText]
      simp
  | @out mark marks left noComment _ ih =>
      have none : mark.comment? = none := Option.eq_none_iff_forall_ne_some.2 fun body same =>
        noComment body (Mark.comment?_eq_some_iff.1 same)
      rw [List.filterMap_cons, none] at ends ⊢
      exact ih ends same named keeps
  | @stays mark mark' marks left leaves _ ih =>
      cases cells with
      | nil => cases same
      | cons cell cells =>
          obtain ⟨rfl, others⟩ := List.cons.inj same
          have laterKeeps : ∀ other ∈ cells, other.mark.KeepsBody := fun other inside =>
            keeps other (List.mem_cons_of_mem cell inside)
          rw [Canonical.tokensOf_append named.lead, Canonical.renderCells_cons,
            List.filterMap_append,
            Canonical.filterMap_letterTokens noText, List.nil_append]
          cases isComment : mark.comment? with
          | none =>
              obtain ⟨tokens, _, noComments, read⟩ := Canonical.exists_tokensOf_mark
                (named.marks cell List.mem_cons_self) (keeps cell List.mem_cons_self)
                (comment?_of_leaves leaves isComment)
              rw [List.filterMap_cons, isComment] at ends ⊢
              rw [read, List.filterMap_append, noComments, List.nil_append]
              exact ih ends others named.tail laterKeeps
          | some body =>
              rw [Mark.comment?_eq_some_iff.1 isComment] at leaves
              generalize cell.mark = left at leaves
              rw [List.filterMap_cons, isComment, List.forall_mem_cons] at ends ⊢
              cases leaves with
              | @comment _ kept fewer alone =>
                  rw [Canonical.tokensOf_comment, List.filterMap_cons, commentBody?,
                    List.cons.injEq]
                  rw [splitAt_commentEnd_eq_iff ends.1 fewer, applyAll_comment_eq_iff alone]
                  refine and_congr_right fun unchanged => ?_
                  rw [unchanged, Text.splitAt_commentEnd ends.1]
                  exact ih ends.2 others named.tail laterKeeps

/-- The comments of a minified document are the conditional comments of the original, word for
word, if and only if the rules find nothing in any of them. -/
theorem commentBodies_minify_iff {html : Text} (raw : KeepsRawText html) :
    ∃ out, HtmlMinifier.minify html = .ok out ∧
      (commentBodies out = (commentBodies html).filter isConditional ↔
        ∀ body ∈ (commentBodies html).filter isConditional,
          elide false (Mark.comment body).render = (Mark.comment body).render) := by
  obtain ⟨marks, lead, cells, minified, named, leaves, areMarks⟩ :=
    exists_cells_minify raw.noSelfClosing
  refine ⟨_, minified, ?_⟩
  have keeps : ∀ cell ∈ cells, cell.mark.KeepsBody := by
    intro cell member
    obtain ⟨mark, inside, left⟩ := leaves.exists_of_mem (List.mem_map.2 ⟨cell, member, rfl⟩)
    exact raw.keepsBody (areMarks.origins mark inside) left
  have ends : ∀ body ∈ marks.filterMap Mark.comment?, Text.Avoids "-->".toList body := by
    intro body member
    rw [areMarks.comments] at member
    obtain ⟨token, inside, same⟩ := List.mem_filterMap.1 (List.mem_of_mem_filter member)
    cases token <;> cases same
    exact Token.avoids_of_mem (Token.stream_tokenize html) inside
  rw [commentBodies, filterMap_tokenize_doctype (fun _ => rfl) fun _ => rfl, ← areMarks.comments]
  exact filterMap_commentBody?_cells_iff leaves ends rfl named keeps

/-- A text that opens no verbatim element keeps its raw text, since it has none. -/
theorem keepsRawText_of_noVerbatim {html : Text}
    (none : ∀ name attributes, .elementOpen name attributes ∈ Event.parse html →
      Element.isVerbatim name = false) : KeepsRawText html := by
  have noRaw : ∀ name attributes, .elementOpen name attributes ∈ Event.parse html →
      Element.isRawText name ≠ true := by
    intro name attributes member isRaw
    have table : ∀ name ∈ Element.rawTextNames, Element.isVerbatim name = true := by decide
    have isVerbatim := table name (List.contains_iff_mem.1 isRaw)
    rw [none name attributes member] at isVerbatim
    cases isVerbatim
  refine ⟨fun name attributes member => ?_, fun name attributes member isRaw => ?_,
    fun name attributes body infixed isRaw => ?_⟩
  · exact none name _ (List.mem_cons_of_mem _ (Event.opening_mem_of_startTag_mem member []))
  · exact absurd isRaw (noRaw name attributes member)
  · exact absurd isRaw (noRaw name attributes (infixed.subset List.mem_cons_self))

/-- A conditional comment that is kept as it is, beside a comment that is dropped. -/
theorem commentBodies_minify_paragraph :
    let html := "<p>a<!--[if IE]><p>b</p><br><![endif]--><!-- c --></p>".toList
    KeepsRawText html ∧
      ∃ out, HtmlMinifier.minify html = .ok out ∧
        (commentBodies out = (commentBodies html).filter isConditional ↔
          ∀ body ∈ (commentBodies html).filter isConditional,
            elide false (Mark.comment body).render = (Mark.comment body).render) := by
  intro html
  have events : Event.parse html =
      [.documentStart, .elementOpen "p".toList [], .characters "a".toList,
        .comment "[if IE]><p>b</p><br><![endif]".toList, .comment " c ".toList,
        .elementClose "p".toList] := by
    decide +kernel
  have raw : KeepsRawText html := by
    apply keepsRawText_of_noVerbatim
    intro name attributes member
    rw [events] at member
    simp only [List.mem_cons, List.not_mem_nil, Event.elementOpen.injEq, reduceCtorEq, or_false,
      false_or] at member
    rw [member.1]
    decide
  exact ⟨raw, commentBodies_minify_iff raw⟩

/-- The end tag of the body is taken out of a conditional comment. -/
theorem minify_loses_comment :
    let html := "<!--[if IE]></body><![endif]-->".toList
    ∃ out, HtmlMinifier.minify html = .ok out ∧
      commentBodies out ≠ (commentBodies html).filter isConditional := by
  refine ⟨"<!doctype html><!--[if IE]><![endif]-->".toList, ?_, ?_⟩
  · decide +kernel
  · decide +kernel

end HtmlMinifier.Minifier

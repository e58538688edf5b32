/-
# White space of a written document

A written document is a sequence of marks, which are its document type, its tags and the comments
that are kept, with a text behind each of them. Which marks there are is a matter of the events
alone. Each text may have been written in several parts, because a comment between two of them was
dropped, and blanks may have been cut off its end again. Still every text outside of preformatted
elements is in normal form: its only blanks are single spaces, it begins with one only where a
space can be seen, and it ends with none in front of the tag of a block or at the end of the
document.

A void element leaves no end tag behind, but the writer treats what follows its close as if it did.
If a void element has content, the text in front of the close and the text behind it may therefore
meet with a space each. So what is said of single spaces and of the front of a text excludes these
texts, and a document that is read from a text has none of them.
-/
import HtmlMinifier.Proofs.Canonical.TextRun
import HtmlMinifier.Proofs.Canonical.Trimming
import HtmlMinifier.Proofs.Event.Legible
import HtmlMinifier.Proofs.Minifier.Agreement
import Mathlib.Data.List.Chain

namespace HtmlMinifier.Canonical

/-! ## Marks and the gaps behind them -/

/-- Whether the tag is that of a block. -/
def Piece.isBlockTag : Piece → Bool
  | .startTag name _ | .endTag name => Element.isBlock name
  | _ => false

/-- Whether a space behind the mark can be seen: behind the end of flow content, which may be the
tag of a void element, and inside flow content that is no block. -/
def Piece.showsSpaceBehind : Piece → Bool
  | .startTag name _ => Element.isFlow name && (Element.isVoid name || !Element.isBlock name)
  | .endTag name => Element.isFlow name
  | _ => false

/-- Whether the mark is the start tag of this element. -/
def Piece.opens (name : Text) : Piece → Bool
  | .startTag other _ => other = name
  | _ => false

/-- What is known of the place for text behind a mark from the events: the elements around it,
whether no text has come yet, and whether no void element with content is closed there. -/
structure Gap where
  mark : Piece
  around : List Text
  bare : Bool := true
  tidy : Bool := true

namespace Gap

/-- The gap when text has come. -/
def given (text : Text) (gap : Gap) : Gap := { gap with bare := gap.bare && text = [] }

/-- The gap when a void element is closed. It is empty if the gap is right behind its tag. -/
def closeVoid (name : Text) (gap : Gap) : Gap :=
  { gap with tidy := gap.tidy && (gap.bare && gap.mark.opens name) }

/-- Whether white space is no content in the gap. -/
def isFlowing (gap : Gap) : Bool := !gap.around.any Element.isPreformatted

/-- The normal form of a text in a gap in front of the next mark, if there is one. -/
structure IsNormal (gap : Gap) (text : Text) (next : Option Piece) : Prop where
  spaces : ∀ c ∈ text, Text.isBlank c = true → c = ' '
  ends : Text.endsBlank text = true → ∃ mark, next = some mark ∧ mark.isBlockTag = false
  single : gap.tidy = true → text.IsChain fun c d => Text.isBlank c = true → Text.isBlank d = false
  begins : gap.tidy = true → Text.startsBlank text = true →
    "head".toList ∉ gap.around ∧ gap.mark.showsSpaceBehind = true

end Gap

/-- The gaps of a document from an open one on, with these elements open. -/
def gapsFrom (options : Options) (gap : Gap) (stack : List Text) : List Event → List Gap
  | [] => [gap]
  | .documentStart :: later => gapsFrom options gap stack later
  | .elementOpen name attributes :: later =>
      let tag := Piece.startTag (Text.lower name)
        (canonicalAttributes options.collapseEmptyAttributes (Text.lower name) attributes)
      gap :: gapsFrom options { mark := tag, around := Text.lower name :: stack }
        (Text.lower name :: stack) later
  | .elementClose name :: later =>
      if Element.isVoid (Text.lower name) then
        gapsFrom options (gap.closeVoid (Text.lower name)) stack.tail later
      else
        gap :: gapsFrom options { mark := .endTag (Text.lower name), around := stack.tail }
          stack.tail later
  | .characters text :: later => gapsFrom options (gap.given text) stack later
  | .cdata text :: later => gapsFrom options (gap.given text) stack later
  | .comment body :: later =>
      if isConditional body then
        gap :: gapsFrom options { mark := .comment body, around := stack } stack later
      else gapsFrom options gap stack later

/-- The gaps of the document that is written of a stream. -/
def gaps (options : Options) (events : List Event) : List Gap :=
  gapsFrom options { mark := .doctype, around := [] } [] events

/-- The document that is made up of gaps and the texts in them. -/
def renderGaps (filled : List (Gap × Text)) : Text :=
  filled.flatMap fun entry => entry.1.mark.render ++ entry.2

/-- The gap that is open first has its mark for good. -/
theorem exists_gapsFrom_eq_cons (options : Options) (gap : Gap) (stack : List Text)
    (events : List Event) :
    ∃ first later, gapsFrom options gap stack events = first :: later ∧ first.mark = gap.mark := by
  induction events generalizing gap stack with
  | nil => exact ⟨gap, [], rfl, rfl⟩
  | cons event later ih =>
      cases event with
      | documentStart => exact ih gap stack
      | elementOpen name attributes => exact ⟨gap, _, rfl, rfl⟩
      | elementClose name =>
          rw [gapsFrom]
          split
          · exact ih (gap.closeVoid (Text.lower name)) stack.tail
          · exact ⟨gap, _, rfl, rfl⟩
      | characters text | cdata text => exact ih (gap.given text) stack
      | comment body =>
          rw [gapsFrom]
          split
          · exact ⟨gap, _, rfl, rfl⟩
          · exact ih gap stack

/-! ## Runs in normal form -/

/-- Collapsed text has no two blanks in a row. -/
theorem isChain_collapse (keep : Bool) (text : Text) :
    (collapse keep text).IsChain fun c d => Text.isBlank c = true → Text.isBlank d = false := by
  induction text generalizing keep with
  | nil => exact .nil
  | cons c text ih =>
      cases blank : Text.isBlank c with
      | false =>
          rw [collapse_cons_of_not_blank blank, List.isChain_cons]
          refine ⟨fun d _ isBlank => ?_, ih true⟩
          rw [blank] at isBlank
          cases isBlank
      | true =>
          rw [collapse_cons_of_blank blank]
          split
          · rw [List.isChain_cons]
            refine ⟨fun d first _ => ?_, ih false⟩
            have solid := startsBlank_collapse_false text
            rwa [Text.startsBlank, Option.mem_def.1 first] at solid
          · exact ih false

/-- The blanks of a collapsed text are spaces. -/
theorem space_of_mem_collapse {keep : Bool} {text : Text} {c : Char}
    (inside : c ∈ collapse keep text)
    (blank : Text.isBlank c = true) : c = ' ' := by
  induction text generalizing keep with
  | nil => cases inside
  | cons d text ih =>
      cases blankFirst : Text.isBlank d with
      | false =>
          rw [collapse_cons_of_not_blank blankFirst] at inside
          rcases List.mem_cons.1 inside with rfl | later
          · rw [blankFirst] at blank
            cases blank
          · exact ih later
      | true =>
          rw [collapse_cons_of_blank blankFirst] at inside
          split at inside
          · rcases List.mem_cons.1 inside with same | later
            · exact same
            · exact ih later
          · exact ih inside

theorem Place.space_of_mem_normalize {place : Place} (flowing : place.inPreformatted = false)
    {text : Text}
    {c : Char} (inside : c ∈ place.normalize text) (blank : Text.isBlank c = true) : c = ' ' := by
  rw [normalize_of_flowing flowing] at inside
  split at inside
  · cases inside
  · exact space_of_mem_collapse inside blank

theorem Place.Fits.isChain {place : Place} (flowing : place.inPreformatted = false) {run : Text}
    (fits : place.Fits run) :
    run.IsChain fun c d => Text.isBlank c = true → Text.isBlank d = false := by
  rw [← ((fits_iff_of_flowing flowing).1 fits).2.1]
  exact isChain_collapse place.keepsLeadingSpace run

/-- A run that fits begins with a blank only where a space at the front can be seen. -/
theorem Place.Fits.keepsLeadingSpace {place : Place} (flowing : place.inPreformatted = false)
    {run : Text}
    (fits : place.Fits run) (starts : Text.startsBlank run = true) :
    place.keepsLeadingSpace = true := by
  by_contra drops
  rw [Bool.not_eq_true] at drops
  have collapsed := ((fits_iff_of_flowing flowing).1 fits).2.1
  rw [drops] at collapsed
  have solid := startsBlank_collapse_false run
  rw [collapsed, starts] at solid
  cases solid

/-! ## The open gap -/

/-- A writer stands in a gap behind a mark, in front of which a core is written, and a run is
written in the gap so far. -/
structure Writer.Fills (writer : Writer) (core : Text) (gap : Gap) (run : Text) : Prop where
  written : writer.written = core ++ (gap.mark.render ++ run)
  markup : gap.mark.isRun = false
  preformatted : writer.place.inPreformatted = gap.around.any Element.isPreformatted
  head : writer.place.inHead = gap.around.any (· = "head".toList)
  bare : gap.bare = true → run = [] ∧ writer.pending = []
  spaces : gap.isFlowing = true → ∀ c ∈ run, Text.isBlank c = true → c = ' '
  tidy : gap.tidy = true → ∃ place, writer.Stands (core ++ gap.mark.render) run place ∧
    (place.keepsLeadingSpace = true → place.inHead = false ∧ gap.mark.showsSpaceBehind = true)

/-- A writer stands right behind a mark that ends a gap, which a text in normal form fills. -/
structure Writer.Completes (writer : Writer) (core : Text) (gap : Gap) (text : Text)
    (mark : Piece) :
    Prop where
  fills : writer.Fills (core ++ (gap.mark.render ++ text))
    { mark := mark, around := writer.stack } []
  normal : gap.isFlowing = true → gap.IsNormal text (some mark)

namespace Writer

variable {options : Options} {writer : Writer} {core run : Text} {gap : Gap}

/-- Right behind a mark a gap is open. -/
theorem fills_of_mark {mark : Piece} (markup : mark.isRun = false)
    (written : writer.written = core ++ mark.render) (empty : writer.pending = [])
    (shows : writer.place.keepsLeadingSpace = true →
      writer.place.inHead = false ∧ mark.showsSpaceBehind = true) :
    writer.Fills core { mark := mark, around := writer.stack } [] where
  written := by rw [written, List.append_nil]
  markup := markup
  preformatted := rfl
  head := rfl
  bare _ := ⟨rfl, empty⟩
  spaces _ c inside := nomatch inside
  tidy _ := ⟨writer.place, ⟨by rw [written, List.append_nil], Place.fits_nil _, rfl, rfl⟩, shows⟩

namespace Fills

theorem inPreformatted_of_isFlowing (fills : writer.Fills core gap run)
    (flowing : gap.isFlowing = true) :
    writer.place.inPreformatted = false := by
  rw [Gap.isFlowing, Bool.not_eq_true'] at flowing
  rw [fills.preformatted, flowing]

/-- Waiting text goes into the gap. -/
theorem flush (fills : writer.Fills core gap run) :
    writer.flush.Fills core gap (run ++ writer.place.normalize writer.pending) where
  written := by
    rw [written_flush, fills.written]
    simp only [List.append_assoc]
  markup := fills.markup
  preformatted := by
    rw [place_inPreformatted (flush_stack writer), fills.preformatted]
  head := by
    rw [Place.inHead, place, flush_stack]
    exact fills.head
  bare isBare := by
    obtain ⟨none, empty⟩ := fills.bare isBare
    rw [none, empty, Place.normalize_nil, flush_pending]
    exact ⟨rfl, rfl⟩
  spaces flowing c inside blank := by
    rcases List.mem_append.1 inside with before | added
    · exact fills.spaces flowing c before blank
    · exact Place.space_of_mem_normalize (fills.inPreformatted_of_isFlowing flowing) added blank
  tidy isTidy := by
    obtain ⟨place, stands, shows⟩ := fills.tidy isTidy
    exact ⟨place, stands.flush, shows⟩

/-- More text waits. -/
theorem characters (fills : writer.Fills core gap run) (text : Text) :
    (writer.characters text).Fills core (gap.given text) run where
  written := fills.written
  markup := fills.markup
  preformatted := fills.preformatted
  head := fills.head
  bare isBare := by
    obtain ⟨stillBare, none⟩ := Bool.and_eq_true_iff.1 isBare
    obtain ⟨noRun, empty⟩ := fills.bare stillBare
    rw [Writer.characters, empty, of_decide_eq_true none]
    exact ⟨noRun, rfl⟩
  spaces := fills.spaces
  tidy isTidy := by
    obtain ⟨place, stands, shows⟩ := fills.tidy isTidy
    exact ⟨place, ⟨stands.written, stands.fits, stands.stack, stands.tail⟩, shows⟩

/-- A compressor changes nothing but what waits, and only if something does. -/
theorem compressStyle (fills : writer.Fills core gap run) (options : Options) (name : Text) :
    (writer.compressStyle options name).Fills core gap run := by
  rw [Writer.compressStyle]
  split
  · next compressor css _ asked =>
      split
      · refine ⟨fills.written, fills.markup, fills.preformatted, fills.head, fun isBare => ?_,
          fills.spaces, fun isTidy => ?_⟩
        · rw [styleText?, (fills.bare isBare).2] at asked
          simp at asked
        · obtain ⟨place, stands, shows⟩ := fills.tidy isTidy
          exact ⟨place, ⟨stands.written, stands.fits, stands.stack, stands.tail⟩, shows⟩
      · exact fills
  · exact fills

/-- The blanks at the end of the gap are cut off. -/
theorem trimEnd_written (fills : writer.Fills core gap run) :
    Text.trimEnd writer.written = core ++ (gap.mark.render ++ Text.trimEnd run) := by
  have noRun : ∀ verbatim text, gap.mark ≠ .run verbatim text := by
    intro verbatim text same
    have markup := fills.markup
    rw [same] at markup
    cases markup
  have solid := trimEnd_append_render gap.mark noRun core
  rw [fills.written, ← List.append_assoc, Text.trimEnd_append]
  split
  · next vanishes => rw [vanishes, solid, List.append_nil]
  · rw [List.append_assoc]

/-- The text that is left in a gap in front of the tag of `name`. -/
theorem written_trimBefore (fills : writer.Fills core gap run) (name : Text) :
    (writer.trimBefore name).written =
      core ++ (gap.mark.render ++ if writer.cutsBefore name then Text.trimEnd run else run) := by
  rw [Writer.written_trimBefore]
  split
  · exact fills.trimEnd_written
  · exact fills.written

/-- A run in a gap is in normal form, whether its end is trimmed or not. -/
theorem isNormal (fills : writer.Fills core gap run) (flowing : gap.isFlowing = true) {text : Text}
    (same : text = run ∨ text = Text.trimEnd run) {next : Option Piece}
    (ends : Text.endsBlank text = true → ∃ mark, next = some mark ∧ mark.isBlockTag = false) :
    gap.IsNormal text next := by
  have part : text <+: run := by
    rcases same with rfl | rfl
    · exact List.prefix_rfl
    · exact List.rdropWhile_prefix Text.isBlank _
  have fits : ∀ place : Place, place.inPreformatted = false → place.Fits run →
      place.Fits text := by
    intro place flows whole
    rcases same with rfl | rfl
    · exact whole
    · exact Place.fits_trimEnd flows whole
  have flows : ∀ place : Place, writer.stack = place.ancestors → place.inPreformatted = false := by
    intro place stack
    rw [Place.inPreformatted, ← stack]
    exact fills.inPreformatted_of_isFlowing flowing
  refine ⟨fun c inside => fills.spaces flowing c (part.subset inside), ends, fun tidy => ?_,
    fun tidy starts => ?_⟩
  · obtain ⟨place, stands, _⟩ := fills.tidy tidy
    have flowsHere := flows place stands.stack
    exact (fits place flowsHere stands.fits).isChain flowsHere
  · obtain ⟨place, stands, shows⟩ := fills.tidy tidy
    have flowsHere := flows place stands.stack
    have keeps := (fits place flowsHere stands.fits).keepsLeadingSpace flowsHere starts
    obtain ⟨noHead, visible⟩ := shows keeps
    refine ⟨fun inside => ?_, visible⟩
    have around := fills.head
    rw [Place.inHead, Writer.place, stands.stack] at around
    rw [Place.inHead, around] at noHead
    exact List.any_eq_false.1 noHead _ inside (decide_eq_true rfl)

/-- What is left of a run in front of a tag is in normal form. -/
theorem isNormal_tag (fills : writer.Fills core gap run) (flowing : gap.isFlowing = true)
    {name : Text}
    {mark : Piece} (tag : mark.isBlockTag = Element.isBlock name) :
    gap.IsNormal (if writer.cutsBefore name then Text.trimEnd run else run) (some mark) := by
  split
  · refine fills.isNormal flowing (.inr rfl) fun blank => ?_
    rw [Text.endsBlank_trimEnd] at blank
    cases blank
  · next keeps =>
      refine fills.isNormal flowing (.inl rfl) fun _ => ⟨mark, rfl, ?_⟩
      rw [cutsBefore, fills.inPreformatted_of_isFlowing flowing, Bool.not_false, Bool.and_true,
        Bool.not_eq_true] at keeps
      rw [tag, keeps]

/-- A start tag ends the gap. -/
theorem exists_openElement (fills : writer.Fills core gap run) (options : Options) (name : Text)
    (attributes : List (Text × Text)) :
    ∃ text, (writer.openElement options name attributes).Completes core gap text
      (.startTag name (canonicalAttributes options.collapseEmptyAttributes name attributes)) := by
  obtain ⟨whole, ready⟩ : ∃ whole, writer.flush.Fills core gap whole := ⟨_, fills.flush⟩
  have written := written_openElement options name attributes writer
  rw [ready.written_trimBefore] at written
  refine ⟨_, fills_of_mark rfl written (openElement_pending options name attributes writer)
    fun keeps => ?_,
    fun flowing => ready.isNormal_tag flowing rfl⟩
  obtain ⟨isOpen, inFlow⟩ := Bool.and_eq_true_iff.1 keeps
  obtain ⟨isFlow, inline⟩ := Bool.and_eq_true_iff.1 isOpen
  refine ⟨(Bool.not_eq_true' _).mp inFlow, ?_⟩
  rw [Piece.showsSpaceBehind, isFlow, inline, Bool.or_true]
  rfl

/-- An end tag ends the gap. -/
theorem exists_closeElement (fills : writer.Fills core gap run) (options : Options) {name : Text}
    (noVoid : Element.isVoid name = false) :
    ∃ text, (writer.closeElement options name).Completes core gap text (.endTag name) := by
  obtain ⟨whole, ready⟩ : ∃ whole, (writer.compressStyle options name).flush.Fills core gap
      whole :=
    ⟨_, (fills.compressStyle options name).flush⟩
  have written := written_closeElement options name writer
  rw [ready.written_trimBefore, noVoid, if_neg Bool.false_ne_true] at written
  refine ⟨_, fills_of_mark rfl written (closeElement_pending options name writer) fun keeps => ?_,
    fun flowing => ready.isNormal_tag flowing rfl⟩
  obtain ⟨isFlow, inFlow⟩ := Bool.and_eq_true_iff.1 keeps
  exact ⟨(Bool.not_eq_true' _).mp inFlow, isFlow⟩

/-- A comment that is kept ends the gap. -/
theorem exists_comment (fills : writer.Fills core gap run) {body : Text}
    (kept : isConditional body = true) :
    ∃ text, (writer.comment body).Completes core gap text (.comment body) := by
  have ready := fills.flush
  have written := written_comment writer body
  rw [ready.written, kept, if_pos rfl] at written
  refine ⟨_, fills_of_mark rfl written (comment_pending writer body) fun keeps => ?_,
    fun flowing => ready.isNormal flowing (.inl rfl) fun _ => ⟨_, rfl, rfl⟩⟩
  rw [place, comment, kept] at keeps
  cases keeps

/-- The end of the document ends the gap. -/
theorem exists_finish (fills : writer.Fills core gap run) (begins : ['<'] <+: writer.written)
    {out : Text}
    (finished : writer.finish = .ok out) :
    ∃ text, out = core ++ (gap.mark.render ++ text) ∧
      (gap.isFlowing = true → gap.IsNormal text none) := by
  obtain ⟨whole, ready⟩ : ∃ whole, writer.flush.Fills core gap whole := ⟨_, fills.flush⟩
  have flushed : writer.written <+: writer.flush.written := by
    rw [written_flush]
    exact List.prefix_append _ _
  rw [Writer.finish] at finished
  split at finished
  · cases finished
    refine ⟨Text.trimEnd whole, ?_, fun flowing => ready.isNormal flowing (.inr rfl)
      fun blank => ?_⟩
    · rw [Text.trim_of_prefix (by decide) (begins.trans flushed), ready.trimEnd_written]
    · rw [Text.endsBlank_trimEnd] at blank
      cases blank
  · cases finished

/-- What is left of the gap where a void element is closed. -/
theorem exists_written_closeVoid (fills : writer.Fills core gap run) (options : Options)
    {name : Text}
    (isVoid : Element.isVoid name = true) :
    ∃ left, (writer.closeElement options name).written = core ++ (gap.mark.render ++ left) ∧
      (gap.bare = true → left = []) ∧
      (gap.isFlowing = true → ∀ c ∈ left, Text.isBlank c = true → c = ' ') := by
  obtain ⟨whole, ready⟩ : ∃ whole, (writer.compressStyle options name).flush.Fills core gap
      whole :=
    ⟨_, (fills.compressStyle options name).flush⟩
  have written := written_closeElement options name writer
  rw [ready.written_trimBefore, isVoid, if_pos rfl, List.append_nil] at written
  refine ⟨_, written, fun isBare => ?_, fun flowing c inside => ?_⟩
  · rw [(ready.bare isBare).1]
    split <;> rfl
  · split at inside
    · exact ready.spaces flowing c ((List.rdropWhile_prefix Text.isBlank _).subset inside)
    · exact ready.spaces flowing c inside

/-- The close of a void element leaves the gap open. -/
theorem exists_closeVoid (fills : writer.Fills core gap run) (options : Options) {name : Text}
    {outer : List Text} (around : writer.stack = name :: outer)
    (isVoid : Element.isVoid name = true) :
    ∃ left, (writer.closeElement options name).Fills core (gap.closeVoid name) left := by
  obtain ⟨left, written, empty, spaces⟩ := fills.exists_written_closeVoid options isVoid
  have stack : (writer.closeElement options name).stack = outer := by
    rw [closeElement_stack, around, List.tail_cons]
  refine ⟨left, written, fills.markup, ?_, ?_,
    fun isBare => ⟨empty isBare, closeElement_pending options name writer⟩, spaces,
      fun isTidy => ?_⟩
  · rw [Gap.closeVoid, ← fills.preformatted, Place.inPreformatted, Place.inPreformatted, place,
      place,
      stack, around, inPreformatted_of_isVoid isVoid]
  · have noHead : name ≠ "head".toList := by
      rintro rfl
      exact absurd isVoid (by decide)
    rw [Gap.closeVoid, ← fills.head, Place.inHead, Place.inHead, place, place, stack, around,
      List.any_cons, decide_eq_false noHead, Bool.false_or]
  · -- Right behind the tag of the element nothing is written yet, so the gap begins at its end.
    rw [Gap.closeVoid, Bool.and_eq_true, Bool.and_eq_true] at isTidy
    obtain ⟨_, isBare, opens⟩ := isTidy
    rw [empty isBare] at written ⊢
    refine ⟨(writer.closeElement options name).place,
      ⟨by rw [written, List.append_assoc]; rfl, Place.fits_nil _, rfl, rfl⟩, fun keeps => ?_⟩
    obtain ⟨isFlow, inFlow⟩ := Bool.and_eq_true_iff.1 keeps
    refine ⟨(Bool.not_eq_true' _).mp inFlow, ?_⟩
    rw [Gap.closeVoid]
    cases same : gap.mark with
    | startTag other attributes =>
        rw [same] at opens
        obtain rfl : other = name := of_decide_eq_true opens
        rw [Piece.showsSpaceBehind, isFlow, isVoid]
        rfl
    | doctype | endTag other | comment body | run verbatim text =>
        rw [same] at opens
        cases opens

end Fills

end Writer

/-! ## The whole document -/

/-- Every text outside of preformatted elements is in normal form in its gap. -/
def AreNormal (filled : List (Gap × Text)) : Prop :=
  ∀ earlier gap text later, filled = earlier ++ (gap, text) :: later → gap.isFlowing = true →
    gap.IsNormal text (later.head?.map fun next => next.1.mark)

theorem AreNormal.cons {gap : Gap} {text : Text} {filled : List (Gap × Text)}
    (normal : AreNormal filled)
    (first : gap.isFlowing = true → gap.IsNormal text (filled.head?.map fun next => next.1.mark)) :
    AreNormal ((gap, text) :: filled) := by
  intro earlier other otherText later parts flowing
  cases earlier with
  | nil =>
      obtain ⟨same, rfl⟩ := List.cons.inj parts
      cases same
      exact first flowing
  | cons entry earlier =>
      exact normal earlier other otherText later (List.cons.inj parts).2 flowing

namespace Writer

/-- Events that lead to a document fill the gaps that they leave. -/
structure FillsGaps (options : Options) (writer : Writer) (core : Text) (gap : Gap)
    (events : List Event)
    (out : Text) (filled : List (Gap × Text)) : Prop where
  gaps : filled.map Prod.fst = gapsFrom options gap writer.stack events
  out : out = core ++ renderGaps filled
  normal : AreNormal filled

variable {options : Options} {writer next : Writer} {core run out text : Text} {gap : Gap}
  {filled : List (Gap × Text)}

/-- The gaps from one that ends at a mark on are filled if those behind the mark are. -/
theorem FillsGaps.cons {mark : Piece} {events later : List Event}
    (completes : next.Completes core gap text mark)
    (fills : FillsGaps options next (core ++ (gap.mark.render ++ text))
    { mark := mark, around := next.stack }
      later out filled)
    (gaps : gapsFrom options gap writer.stack events =
      gap :: gapsFrom options { mark := mark, around := next.stack } next.stack later) :
    FillsGaps options writer core gap events out ((gap, text) :: filled) where
  gaps := by rw [List.map_cons, fills.gaps, gaps]
  out := by
    rw [fills.out, renderGaps, renderGaps, List.flatMap_cons]
    simp only [List.append_assoc]
  normal := by
    refine fills.normal.cons fun flowing => ?_
    obtain ⟨first, others, same, sameMark⟩ := exists_gapsFrom_eq_cons options
      { mark := mark, around := next.stack } next.stack later
    have names := fills.gaps
    rw [same] at names
    obtain ⟨entry, rest, rfl, rfl, _⟩ := List.map_eq_cons_iff.1 names
    rw [List.head?_cons, Option.map_some, sameMark]
    exact completes.normal flowing

/-- A gap that stays open is filled as it is from the next writer on. -/
theorem FillsGaps.of_gapsFrom_eq {events later : List Event} {gap' : Gap}
    (fills : FillsGaps options next core gap' later out filled)
    (gaps : gapsFrom options gap writer.stack events = gapsFrom options gap' next.stack later) :
    FillsGaps options writer core gap events out filled :=
  ⟨fills.gaps.trans gaps.symm, fills.out, fills.normal⟩

/-- Whatever events lead from an open gap to a document, all gaps are filled by texts in normal
form. -/
theorem Fills.exists_fillsGaps (fills : writer.Fills core gap run)
    (begins : ['<'] <+: writer.written)
    {events : List Event} (ends : writer.ending options events = .ok out) :
    ∃ filled, FillsGaps options writer core gap events out filled := by
  -- What stands in the open gap is the invariant: text, dropped comments and closed void elements
  -- change it, and a mark ends the gap and opens the next.
  induction events generalizing writer core gap run with
  | nil =>
      rw [ending_nil] at ends
      obtain ⟨text, rfl, normal⟩ := fills.exists_finish begins ends
      refine ⟨[(gap, text)], rfl, by rw [renderGaps, List.flatMap_singleton], ?_⟩
      exact AreNormal.cons (fun earlier _ _ _ parts => absurd parts.symm (by simp)) normal
  | cons event later ih =>
      have taken := push_of_ending ends
      rw [ending_step taken] at ends
      have begun := prefix_written_step options (by decide) begins event
      cases event with
      | documentStart => cases taken
      | elementOpen name attributes =>
          obtain ⟨text, completes⟩ := fills.exists_openElement options (Text.lower name) attributes
          obtain ⟨filled, fillsGaps⟩ := ih completes.fills begun ends
          refine ⟨_, fillsGaps.cons completes ?_⟩
          rw [gapsFrom, openElement_stack]
      | elementClose name =>
          obtain ⟨outer, around⟩ := exists_outer_of_push taken
          cases isVoid : Element.isVoid (Text.lower name) with
          | true =>
              obtain ⟨left, closed⟩ := fills.exists_closeVoid options around isVoid
              obtain ⟨filled, fillsGaps⟩ := ih closed begun ends
              refine ⟨filled, fillsGaps.of_gapsFrom_eq ?_⟩
              rw [gapsFrom, isVoid, if_pos rfl, closeElement_stack]
          | false =>
              obtain ⟨text, completes⟩ := fills.exists_closeElement options isVoid
              obtain ⟨filled, fillsGaps⟩ := ih completes.fills begun ends
              refine ⟨_, fillsGaps.cons completes ?_⟩
              rw [gapsFrom, isVoid, if_neg Bool.false_ne_true, closeElement_stack]
      | characters text | cdata text =>
          obtain ⟨filled, fillsGaps⟩ := ih (fills.characters text) begun ends
          exact ⟨filled, fillsGaps.of_gapsFrom_eq rfl⟩
      | comment body =>
          cases kept : isConditional body with
          | true =>
              obtain ⟨text, completes⟩ := fills.exists_comment kept
              obtain ⟨filled, fillsGaps⟩ := ih completes.fills begun ends
              refine ⟨_, fillsGaps.cons completes ?_⟩
              rw [gapsFrom, kept, if_pos rfl, comment_stack]
          | false =>
              rw [step, writer.comment_of_dropped kept] at ends begun
              obtain ⟨filled, fillsGaps⟩ := ih fills.flush begun ends
              refine ⟨filled, fillsGaps.of_gapsFrom_eq ?_⟩
              rw [gapsFrom, kept, if_neg Bool.false_ne_true, flush_stack]

end Writer

/-- A written document is made up of the marks that its events ask for and of texts in the gaps
behind them, and every text outside of preformatted elements is in normal form. -/
theorem exists_filled_of_serialize (options : Options) {events : List Event} {out : Text}
    (accepted : serialize options events = .ok out) :
    ∃ filled : List (Gap × Text), filled.map Prod.fst = gaps options events ∧
      out = renderGaps filled ∧
      ∀ earlier gap text later, filled = earlier ++ (gap, text) :: later → gap.isFlowing = true →
        gap.IsNormal text (later.head?.map fun next => next.1.mark) := by
  cases events with
  | nil => cases accepted
  | cons event later =>
      by_cases isStart : event = .documentStart
      · rw [isStart] at accepted ⊢
        have opened : Writer.start.Fills [] { mark := .doctype, around := Writer.start.stack }
            [] :=
          Writer.fills_of_mark rfl rfl rfl fun keeps => nomatch keeps
        have begins : ['<'] <+: Writer.start.written := ⟨Element.doctype.tail, rfl⟩
        obtain ⟨filled, fillsGaps⟩ := opened.exists_fillsGaps begins accepted
        exact ⟨filled, fillsGaps.gaps, fillsGaps.out, fillsGaps.normal⟩
      · have refused : Draft.blank.push options event = .error .notStarted := if_neg isStart
        rw [serialize, Draft.pushAll_cons, refused] at accepted
        cases accepted

/-- The text of a paragraph is in normal form around a dropped comment and around a void
element. -/
theorem exists_filled_of_serialize_paragraph :
    let events := [.documentStart, .elementOpen "p".toList [], .characters "a ".toList,
      .comment "c".toList, .characters "\nb ".toList, .elementOpen "br".toList [],
      .elementClose "br".toList, .characters "\tc ".toList, .elementClose "p".toList]
    serialize {} events = .ok "<!doctype html><p>a b <br> c</p>".toList ∧
      ∃ filled : List (Gap × Text), filled.map Prod.fst = gaps {} events ∧
        "<!doctype html><p>a b <br> c</p>".toList = renderGaps filled ∧
        ∀ earlier gap text later, filled = earlier ++ (gap, text) :: later → gap.isFlowing = true →
          gap.IsNormal text (later.head?.map fun next => next.1.mark) := by
  intro events
  have accepted : serialize {} events = .ok "<!doctype html><p>a b <br> c</p>".toList := by
    decide +kernel
  exact ⟨accepted, exists_filled_of_serialize {} accepted⟩

/-- If a void element has content, two spaces may meet where it is closed, and a text may begin
with a space behind a tag that is not of flow content. -/
theorem serialize_content_of_void :
    let words := [.documentStart, .elementOpen "br".toList [], .characters "a ".toList,
      .elementClose "br".toList, .characters " b".toList]
    let title := [.documentStart, .elementOpen "br".toList [], .elementOpen "title".toList [],
      .elementClose "title".toList, .elementClose "br".toList, .characters " x".toList]
    ((gaps {} words).map Gap.mark = [.doctype, .startTag "br".toList []] ∧
      (gaps {} words).all Gap.isFlowing = true ∧
      serialize {} words = .ok "<!doctype html><br>a  b".toList) ∧
    ((gaps {} title).map Gap.mark =
        [.doctype, .startTag "br".toList [], .startTag "title".toList [], .endTag "title".toList] ∧
      (gaps {} title).all Gap.isFlowing = true ∧
      (Piece.endTag "title".toList).showsSpaceBehind = false ∧
      serialize {} title = .ok "<!doctype html><br><title></title> x".toList) := by
  decide +kernel

/-! ## Documents that are read -/

/-- A legible stream closes void elements right behind their tags only. -/
theorem tidy_of_legible (options : Options) {elements : List Text} {events : List Event}
    (legible : Event.Legible Event.StaysOpen elements events) {gap : Gap} (tidy : gap.tidy = true)
    (stack : List Text) : ∀ other ∈ gapsFrom options gap stack events, other.tidy = true := by
  induction legible generalizing gap stack with
  | done => exact List.forall_mem_singleton.2 tidy
  | opened _ _ _ _ ih => exact List.forall_mem_cons.2 ⟨tidy, ih rfl _⟩
  | @void _ name _ _ named isVoid _ _ _ ih =>
      rw [gapsFrom, gapsFrom, named.lower, isVoid, if_pos rfl]
      exact List.forall_mem_cons.2 ⟨tidy, ih (by simp [Gap.closeVoid, Piece.opens]) _⟩
  | @verbatim _ name _ body _ named isVerbatim _ _ _ _ ih =>
      have noVoid : Element.isVoid (Text.lower name) = false := by
        rw [named.lower, Token.isVoid_of_isVerbatim isVerbatim]
      rw [gapsFrom]
      refine List.forall_mem_cons.2 ⟨tidy, ?_⟩
      split
      · rw [List.nil_append, gapsFrom, noVoid, if_neg Bool.false_ne_true]
        exact List.forall_mem_cons.2 ⟨rfl, ih rfl _⟩
      · rw [List.singleton_append, gapsFrom, gapsFrom, noVoid, if_neg Bool.false_ne_true]
        exact List.forall_mem_cons.2 ⟨rfl, ih rfl _⟩
  | @closed _ name _ container _ ih =>
      rw [gapsFrom, container.named.lower, container.noVoid, if_neg Bool.false_ne_true]
      exact List.forall_mem_cons.2 ⟨tidy, ih rfl _⟩
  | @characters _ text _ _ ih | @cdata _ text _ _ ih =>
      have given : (gap.given text).tidy = true := tidy
      exact ih given stack
  | comment _ _ ih =>
      rw [gapsFrom]
      split
      · exact List.forall_mem_cons.2 ⟨tidy, ih rfl stack⟩
      · exact ih tidy stack

/-- In a document that is read from a text no void element has content, so its texts are in normal
form without any exception. -/
theorem tidy_of_mem_gaps_parse (options : Options) (html : Text) :
    ∀ gap ∈ gaps options (Event.parse html), gap.tidy = true := by
  obtain ⟨later, parsed, legible⟩ :=
    @Event.legible_parse Event.StaysOpen html fun _ _ _ _ _ stays => stays
  rw [parsed]
  exact tidy_of_legible options legible rfl []

end HtmlMinifier.Canonical

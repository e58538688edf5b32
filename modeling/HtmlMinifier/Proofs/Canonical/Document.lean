/-
# The layout of a written document

A written document is its document type, a list of segments and a last run of text. A segment is a
run of text and the mark behind it: a tag or a kept comment. An element that is void or verbatim is
one mark, since nothing can stand between its tags but the body of a verbatim element.

`Laid` says that every segment is laid as a writer lays it: its run fits the place where it stands,
its mark is one that the reader yields there, and no blanks are left that the mark cuts off. Such a
document is written again as it is if its start tags are, which a value that ends with a slash may
prevent.
-/
import HtmlMinifier.Proofs.Canonical.Attribute
import HtmlMinifier.Proofs.Canonical.TextRun
import HtmlMinifier.Proofs.Event.Legible
import HtmlMinifier.Proofs.Token.StartTag

namespace HtmlMinifier.Canonical

open Event (IsContainer IsLegibleAttribute impliedlyClosed)
open Token (IsTagName IsAttributeName IsEncodedAttribute IsWrittenAttribute AvoidsEndTag)

/-! ## Written tags -/

/-- The attributes of a start tag that is read back and written again as it is. -/
structure IsWrittenTag (collapseEmpty : Bool) (name : Text)
    (attributes : List (Text × Option Text)) : Prop where
  safe : ∀ attr ∈ attributes, IsWrittenAttribute attr
  canonical : canonicalAttributes collapseEmpty name (readBack attributes) = attributes

/-- Neither a quote nor a bracket is written in a value. -/
theorem ne_mark_of_mem_normalizeAttribute {value : Text} {c : Char}
    (inside : c ∈ Reference.normalizeAttribute value) : c ≠ '"' ∧ c ≠ '<' := by
  have free := (Reference.isSafe_encodeAttribute (Reference.decode value)).free
  constructor
  · rintro rfl
    exact free '"' (by decide) inside
  · rintro rfl
    exact free '<' (by decide) inside

/-- A value that is written is the normal form of the given one. -/
theorem eq_of_writtenValue {collapseEmpty : Bool} {element name given value : Text}
    (written : writtenValue collapseEmpty element name given = some value) :
    value = Reference.normalizeAttribute given := by
  simp only [writtenValue] at written
  split at written
  · cases written
  · split at written
    · cases written
    · exact (Option.some.inj written).symm

/-- A canonical attribute comes from a given one, with its name in lower case. -/
theorem exists_lower_of_mem_canonicalAttributes {collapseEmpty : Bool} {element : Text}
    {given : List (Text × Text)} {attr : Text × Option Text}
    (member : attr ∈ canonicalAttributes collapseEmpty element given) :
    ∃ origin ∈ given, attr =
      (Text.lower origin.1, writtenValue collapseEmpty element (Text.lower origin.1)
      origin.2) := by
  obtain ⟨sorted, inside, rfl⟩ := List.mem_map.1 member
  obtain ⟨origin, original, _, rfl⟩ := mem_sortedAttributes inside
  exact ⟨origin, original, rfl⟩

/-- A canonical attribute comes from a given one with its name. -/
theorem exists_of_mem_canonicalAttributes {collapseEmpty : Bool} {element : Text}
    {given : List (Text × Text)} (named : ∀ attr ∈ given, IsAttributeName attr.1)
    {attr : Text × Option Text} (member : attr ∈ canonicalAttributes collapseEmpty element given) :
    ∃ origin ∈ given, attr = (origin.1, writtenValue collapseEmpty element origin.1 origin.2) := by
  obtain ⟨origin, original, same⟩ := exists_lower_of_mem_canonicalAttributes member
  rw [(named origin original).lower] at same
  exact ⟨origin, original, same⟩

/-- The attributes that a writer makes of ones that have a name in some case hold no quotes and no
brackets. -/
theorem isEncodedAttribute_of_lower {collapseEmpty : Bool} {element : Text}
    {given : List (Text × Text)} (named : ∀ attr ∈ given, IsAttributeName (Text.lower attr.1)) :
    ∀ attr ∈ canonicalAttributes collapseEmpty element given, IsEncodedAttribute attr := by
  intro attr member
  obtain ⟨origin, original, rfl⟩ := exists_lower_of_mem_canonicalAttributes member
  refine ⟨named origin original, fun value same c inside => ?_, fun value same c inside => ?_⟩
  · rw [eq_of_writtenValue same] at inside
    exact (ne_mark_of_mem_normalizeAttribute inside).1
  · rw [eq_of_writtenValue same] at inside
    exact (ne_mark_of_mem_normalizeAttribute inside).2

/-- The attributes that a writer makes of named ones hold no quotes and no brackets. -/
theorem isEncodedAttribute_canonicalAttributes {collapseEmpty : Bool} {element : Text}
    {given : List (Text × Text)} (named : ∀ attr ∈ given, IsAttributeName attr.1) :
    ∀ attr ∈ canonicalAttributes collapseEmpty element given, IsEncodedAttribute attr := by
  apply isEncodedAttribute_of_lower
  intro attr member
  rw [(named attr member).lower]
  exact named attr member

/-- The attributes that a writer makes of legible ones can be read back. -/
theorem isWrittenTag_canonicalAttributes (collapseEmpty : Bool) (name : Text)
    {given : List (Text × Text)} (legible : ∀ attr ∈ given, IsLegibleAttribute attr) :
    IsWrittenTag collapseEmpty name (canonicalAttributes collapseEmpty name given) := by
  have named : ∀ attr ∈ given, IsAttributeName attr.1 :=
    fun attr member => (legible attr member).named
  refine ⟨fun attr member => ?_, ?_⟩
  · refine ⟨isEncodedAttribute_canonicalAttributes named attr member, fun value same => ?_⟩
    obtain ⟨origin, original, rfl⟩ := exists_of_mem_canonicalAttributes named member
    rw [eq_of_writtenValue same]
    exact (legible origin original).noSlash
  · rw [readBack_canonicalAttributes, canonicalAttributes_canonicalForm collapseEmpty name named]

/-! ## Marks -/

/-- A tag or a kept comment. A verbatim element is written with its body and its end tag. -/
inductive Mark where
  | opening (name : Text) (attributes : List (Text × Option Text))
  | void (name : Text) (attributes : List (Text × Option Text))
  | verbatim (name : Text) (attributes : List (Text × Option Text)) (body : Text)
  | closing (name : Text)
  | comment (body : Text)
  deriving DecidableEq, Repr

namespace Mark

/-- The text of a mark. -/
def render : Mark → Text
  | .opening name attributes => (Piece.startTag name attributes).render
  | .void name attributes => (Piece.startTag name attributes).render
  | .verbatim name attributes body =>
      (Piece.startTag name attributes).render ++ (body ++ (Piece.endTag name).render)
  | .closing name => (Piece.endTag name).render
  | .comment body => (Piece.comment body).render

/-- The events of a mark. -/
def events : Mark → List Event
  | .opening name attributes => [.elementOpen name (readBack attributes)]
  | .void name attributes => [.elementOpen name (readBack attributes), .elementClose name]
  | .verbatim name attributes body =>
      .elementOpen name (readBack attributes) ::
        ((if body = [] then [] else [.characters body]) ++ [.elementClose name])
  | .closing name => [.elementClose name]
  | .comment body => [.comment body]

/-- Whether blanks in front of a mark are cut off. -/
def cuts (place : Place) : Mark → Bool
  | .opening name _ => Element.isBlock name && !place.inPreformatted
  | .void name _ => Element.isBlock name && !place.inPreformatted
  | .verbatim name _ _ => Element.isBlock name && !place.inPreformatted
  | .closing name => Element.isBlock name && !place.inPreformatted
  | .comment _ => false

end Mark

/-- Where a text behind a mark stands. -/
def Place.after (place : Place) : Mark → Place
  | .opening name _ => ⟨name :: place.ancestors, .startTag name⟩
  | .void name _ => ⟨place.ancestors, .endTag name⟩
  | .verbatim name _ _ => ⟨place.ancestors, .endTag name⟩
  | .closing name => ⟨place.ancestors.tail, .endTag name⟩
  | .comment _ => ⟨place.ancestors, .comment⟩

/-- Where the body of an element begins. -/
def Place.inside (place : Place) (name : Text) : Place := ⟨name :: place.ancestors, .startTag name⟩

/-- The marks that a writer writes at a place. -/
inductive Mark.Admitted (place : Place) : Mark → Prop
  | opening {name : Text} {attributes : List (Text × Option Text)} (container : IsContainer name)
      (stands : impliedlyClosed name place.ancestors = [])
      (encoded : ∀ attr ∈ attributes, IsEncodedAttribute attr) :
      Admitted place (.opening name attributes)
  | void {name : Text} {attributes : List (Text × Option Text)} (named : IsTagName name)
      (isVoid : Element.isVoid name = true) (stands : impliedlyClosed name place.ancestors = [])
      (encoded : ∀ attr ∈ attributes, IsEncodedAttribute attr) :
      Admitted place (.void name attributes)
  | verbatim {name : Text} {attributes : List (Text × Option Text)} {body : Text}
      (named : IsTagName name) (isVerbatim : Element.isVerbatim name = true)
      (stands : impliedlyClosed name place.ancestors = [])
      (encoded : ∀ attr ∈ attributes, IsEncodedAttribute attr) (avoids : AvoidsEndTag name body)
      (fits : (place.inside name).Fits body) :
      Admitted place (.verbatim name attributes body)
  | closing {name : Text} (container : IsContainer name) (current : place.current? = some name) :
      Admitted place (.closing name)
  | comment {body : Text} (avoids : Text.Avoids "-->".toList body)
      (conditional : isConditional body = true) :
      Admitted place (.comment body)

/-- The start tag of a mark: its name and its attributes. -/
def Mark.startTag? : Mark → Option (Text × List (Text × Option Text))
  | .opening name attributes => some (name, attributes)
  | .void name attributes => some (name, attributes)
  | .verbatim name attributes _ => some (name, attributes)
  | _ => none

/-- A mark whose start tag, if it has one, is read back and written again as it is. -/
def Mark.IsWritten (collapseEmpty : Bool) (mark : Mark) : Prop :=
  ∀ name attributes, mark.startTag? = some (name, attributes) → IsWrittenTag collapseEmpty name
    attributes

/-- A mark ends with a bracket. -/
theorem Mark.trimEnd_append_render (mark : Mark) (earlier : Text) :
    Text.trimEnd (earlier ++ mark.render) = earlier ++ mark.render := by
  cases mark with
  | opening name attributes | void name attributes =>
      exact Canonical.trimEnd_append_render (.startTag name attributes) (by simp) earlier
  | closing name => exact Canonical.trimEnd_append_render (.endTag name) (by simp) earlier
  | comment body => exact Canonical.trimEnd_append_render (.comment body) (by simp) earlier
  | verbatim name attributes body =>
      rw [render, ← List.append_assoc, ← List.append_assoc]
      exact Canonical.trimEnd_append_render (.endTag name) (by simp) _

/-! ## Segments -/

/-- A run of text, which may be empty, and the mark behind it. -/
structure Segment where
  run : Text
  mark : Mark
  deriving DecidableEq, Repr

/-- The text of segments. -/
def renderSegments (segments : List Segment) : Text :=
  segments.flatMap fun segment => segment.run ++ segment.mark.render

@[simp]
theorem renderSegments_nil : renderSegments [] = [] := rfl

@[simp]
theorem renderSegments_cons (segment : Segment) (later : List Segment) :
    renderSegments (segment :: later) =
      segment.run ++ (segment.mark.render ++ renderSegments later) := by
  rw [renderSegments, List.flatMap_cons, List.append_assoc, ← renderSegments]

theorem renderSegments_concat (earlier : List Segment) (segment : Segment) :
    renderSegments (earlier ++ [segment]) =
      renderSegments earlier ++ segment.run ++ segment.mark.render := by
  rw [renderSegments, List.flatMap_append, List.flatMap_singleton, ← renderSegments,
    List.append_assoc]

/-- Segments as a writer lays them, from one place to another. -/
inductive Laid : Place → List Segment → Place → Prop
  | nil {place : Place} : Laid place [] place
  | cons {place final : Place} {segment : Segment} {later : List Segment}
      (fits : place.Fits segment.run)
      (settled : segment.mark.cuts place = true → Text.endsBlank segment.run = false)
      (admitted : segment.mark.Admitted place) :
      Laid (place.after segment.mark) later final →
        Laid place (segment :: later) final

/-- A segment may be laid behind others. -/
theorem Laid.concat {place middle : Place} {earlier : List Segment}
    {segment : Segment} (laid : Laid place earlier middle)
    (fits : middle.Fits segment.run)
    (settled : segment.mark.cuts middle = true → Text.endsBlank segment.run = false)
    (admitted : segment.mark.Admitted middle) :
    Laid place (earlier ++ [segment]) (middle.after segment.mark) := by
  induction laid with
  | nil => exact .cons fits settled admitted .nil
  | cons firstFits firstSettled firstAdmitted _ ih =>
      exact .cons firstFits firstSettled firstAdmitted (ih fits settled admitted)

/-- Where a document begins. -/
def Place.start : Place := ⟨[], .doctype⟩

/-- The text of a document: its document type, its segments and its last run. -/
def documentText (segments : List Segment) (run : Text) : Text :=
  Element.doctype ++ renderSegments segments ++ run

/-- A document as a writer writes it. -/
structure IsLaidOut (segments : List Segment) (run : Text) : Prop where
  laid : ∃ tail, Laid Place.start segments ⟨[], tail⟩ ∧ (Place.mk [] tail).Fits run
  settled : Text.endsBlank run = false

/-- A document that is read back and written again as it is. -/
structure IsDocument (collapseEmpty : Bool) (segments : List Segment) (run : Text) : Prop
    extends IsLaidOut segments run where
  written : ∀ segment ∈ segments, segment.mark.IsWritten collapseEmpty

/-- The document type and what is behind it end with a bracket up to the last run. -/
theorem trimEnd_documentText (segments : List Segment) (run : Text) :
    Text.trimEnd (documentText segments run) = documentText segments (Text.trimEnd run) := by
  have solid : Text.trimEnd (Element.doctype ++ renderSegments segments) =
      Element.doctype ++ renderSegments segments := by
    rcases List.eq_nil_or_concat segments with rfl | ⟨earlier, segment, rfl⟩
    · rfl
    · rw [List.concat_eq_append, renderSegments_concat, ← List.append_assoc,
        Mark.trimEnd_append_render]
  rw [documentText, Text.trimEnd_append, solid]
  split
  · next vanishes => rw [documentText, vanishes, List.append_nil]
  · rfl

end HtmlMinifier.Canonical

/-
# Start tags say what they were given

A start tag is written from the attributes of an event, and read as the attributes of a token. What
is read is compared with what was given, and not with what was written in between: every name that
was given stands once, in its place, with a value that decodes to the text of the value that was
given last under it, or without one where the bare name is enough.

This holds of every tag but those that end in a slash and a bracket. Whether a value is quoted is
decided by its characters alone, and a slash is none of those that call for quotes; the reader of a
value without quotes, however, stops in front of a slash and a bracket.
-/
import HtmlMinifier.Proofs.Canonical.Characters
import HtmlMinifier.Proofs.Canonical.Written

namespace HtmlMinifier.Canonical

open Token (IsTagName IsAttributeName IsEncodedAttribute)

/-! ## What is to be read -/

/-- What is read restates the value that was given for an attribute: it is nothing where the bare
name is enough, and anywhere else a value that decodes to the same text. -/
def Restates (collapseEmpty : Bool) (element name given : Text) (read : Option Text) : Prop :=
  if Element.isBooleanAttribute element name = true ∨ (collapseEmpty = true ∧ given = []) then
    read = none
  else ∃ value, read = some value ∧ Reference.decode value = Reference.decode given

/-- The attributes that are read of a start tag recover the given ones: every name that was given
is read once, in lower case and in its place in ascending order, with what restates the value that
was given last under it. -/
structure Recovers (collapseEmpty : Bool) (element : Text) (given : List (Text × Text))
    (read : List (Text × Option Text)) : Prop where
  ascending : read.Pairwise fun first second => first.1 < second.1
  names : ∀ name, name ∈ read.map Prod.fst ↔ ∃ attr ∈ given, Text.lower attr.1 = name
  values : ∀ attr ∈ read, ∃ value, lastGiven? attr.1 given = some value ∧
    Restates collapseEmpty element attr.1 value attr.2

/-- A written value restates the given one. -/
theorem restates_writtenValue (collapseEmpty : Bool) (element name given : Text) :
    Restates collapseEmpty element name given (writtenValue collapseEmpty element name given) := by
  rw [Restates, writtenValue]
  by_cases boolean : Element.isBooleanAttribute element name = true
  · rw [if_pos (.inl boolean), if_pos boolean]
  · rw [if_neg boolean]
    by_cases vanishes : collapseEmpty = true ∧ given = []
    · obtain ⟨rfl, rfl⟩ := vanishes
      rw [if_pos (.inr ⟨rfl, rfl⟩), Reference.normalizeAttribute, Reference.decode_nil]
      rfl
    · have kept : ¬(Reference.normalizeAttribute given = [] && collapseEmpty) = true := by
        rw [Bool.and_eq_true, decide_eq_true_iff, Reference.normalizeAttribute_eq_nil_iff]
        rintro ⟨empty, collapses⟩
        exact vanishes ⟨collapses, empty⟩
      rw [if_neg (not_or.2 ⟨boolean, vanishes⟩)]
      refine ⟨Reference.normalizeAttribute given, if_neg kept, ?_⟩
      rw [Reference.normalizeAttribute, Reference.decode_encodeAttribute]

/-- The written attributes recover the given ones. -/
theorem recovers_canonicalAttributes (collapseEmpty : Bool) (element : Text)
    {given : List (Text × Text)}
    (named : ∀ attr ∈ given, attr.1 ≠ []) :
    Recovers collapseEmpty element given (canonicalAttributes collapseEmpty element given) where
  ascending := List.pairwise_map.2 (ascending_sortedAttributes given)
  names name := by
    constructor
    · intro inside
      obtain ⟨attr, member, rfl⟩ := List.mem_map.1 inside
      obtain ⟨origin, original, rfl⟩ := exists_lower_of_mem_canonicalAttributes member
      exact ⟨origin, original, rfl⟩
    · rintro ⟨origin, original, rfl⟩
      obtain ⟨value, last⟩ := exists_lastGiven? original
      have lower : Text.lower origin.1 ≠ [] := fun none =>
        named origin original (List.map_eq_nil_iff.1 none)
      rw [canonicalAttributes, List.map_map]
      exact List.mem_map.2 ⟨(Text.lower origin.1, value), mem_sortedAttributes_iff.2 ⟨lower,
        last⟩, rfl⟩
  values := by
    intro attr member
    obtain ⟨sorted, inside, rfl⟩ := List.mem_map.1 member
    exact ⟨sorted.2, (mem_sortedAttributes_iff.1 inside).2, restates_writtenValue _ _ _ _⟩

/-! ## What is read -/

variable {element : Text} {attributes : List (Text × Option Text)}

/-- The start tag of an element that is not verbatim is one token. -/
theorem tokenize_startTag (named : IsTagName element)
    (noVerbatim : Element.isVerbatim element = false)
    (encoded : ∀ attr ∈ attributes, IsEncodedAttribute attr) :
    Token.tokenize (Piece.startTag element attributes).render =
      [.startTag element (tagRead attributes).attributes
        ((tagRead attributes).selfClosing || Element.isVoid element)] := by
  have construct := readConstruct_startTag_render named attributes []
  obtain ⟨taken, dropped⟩ := takeWhile_name_append named encoded []
  rw [Token.readStartTag, taken, dropped, named.lower, readAttributes_eq_tagRead encoded,
    List.append_nil] at construct
  simp only [noVerbatim, Bool.false_and, Bool.false_eq_true, if_false] at construct
  have some : (Piece.startTag element attributes).render ≠ [] := List.cons_ne_nil _ _
  rw [Token.tokenize_of_readConstruct some construct, Token.tokenize]
  rfl

/-- The text of a start tag ends in a slash and a bracket if its last value does. -/
theorem slash_suffix_iff (named : IsTagName element)
    (encoded : ∀ attr ∈ attributes, IsEncodedAttribute attr) :
    "/>".toList <:+ (Piece.startTag element attributes).render ↔ Token.EndsInSlash attributes := by
  have noSlash : ('<' :: element).getLast? ≠ some '/' := by
    intro ends
    rcases List.mem_cons.1 (List.mem_of_getLast? ends) with same | inside
    · exact absurd same (by decide)
    · exact absurd (named.chars '/' inside) (by decide)
  rw [← Token.getLast?_append_flatMap_iff noSlash encoded, Piece.render, List.getLast?_eq_some_iff]
  constructor
  · rintro ⟨front, parts⟩
    have longer : '<' :: element ++ attributes.flatMap renderAttribute ++ ['>'] =
        front ++ ['/'] ++ ['>'] := by
      rw [← parts]
      simp
    exact ⟨front, List.append_cancel_right longer⟩
  · rintro ⟨front, parts⟩
    exact ⟨front, by rw [parts]; simp⟩

/-- A start tag whose text does not end in a slash and a bracket is read as its own attributes. -/
theorem tokenize_of_not_slash (named : IsTagName element)
    (noVerbatim : Element.isVerbatim element = false)
    (encoded : ∀ attr ∈ attributes, IsEncodedAttribute attr)
    (noSlash : ¬"/>".toList <:+ (Piece.startTag element attributes).render) :
    Token.tokenize (Piece.startTag element attributes).render =
      [.startTag element attributes (Element.isVoid element)] := by
  rw [slash_suffix_iff named encoded] at noSlash
  rw [tokenize_startTag named noVerbatim encoded, tagRead,
    Token.readAttributes_of_not_endsInSlash encoded noSlash, Bool.false_or]

/-- A start tag whose text ends in a slash and a bracket loses the slash of its last value, and is
read as one that closes itself. -/
theorem tokenize_of_slash (named : IsTagName element)
    (noVerbatim : Element.isVerbatim element = false)
    (encoded : ∀ attr ∈ attributes, IsEncodedAttribute attr)
    (slash : "/>".toList <:+ (Piece.startTag element attributes).render) :
    ∃ front name value, attributes = front ++ [(name, some (value ++ ['/']))] ∧
      Token.tokenize (Piece.startTag element attributes).render =
        [.startTag element (front ++ [(name, some value)]) true] := by
  obtain ⟨front, name, value, rfl, unquoted⟩ := (slash_suffix_iff named encoded).1 slash
  refine ⟨front, name, value, rfl, ?_⟩
  rw [tokenize_startTag named noVerbatim encoded, tagRead, Token.readAttributes_of_slash encoded
    unquoted,
    Bool.true_or]

/-- Attributes that have lost the slash of their last value recover nothing. -/
theorem not_recovers_of_slash {collapseEmpty : Bool} {given : List (Text × Text)}
    {front : List (Text × Option Text)} {name value : Text}
    (written : canonicalAttributes collapseEmpty element given = front ++
    [(name, some (value ++ ['/']))]) :
    ¬Recovers collapseEmpty element given (front ++ [(name, some value)]) := by
  intro recovers
  have member : (name, some (value ++ ['/'])) ∈ canonicalAttributes collapseEmpty element
      given := by
    rw [written]
    simp
  obtain ⟨sorted, inside, same⟩ := List.mem_map.1 member
  obtain ⟨rfl, text⟩ := Prod.mk.inj same
  have last := (mem_sortedAttributes_iff.1 inside).2
  obtain ⟨original, same, restates⟩ := recovers.values (sorted.1, some value) (by simp)
  rw [last] at same
  cases same
  -- A value is written, so the bare name is not enough here.
  rw [Restates] at restates
  split at restates
  · cases restates
  · obtain ⟨read, isRead, decoded⟩ := restates
    cases isRead
    exact Reference.decode_ne_of_encodeAttribute_eq_concat (eq_of_writtenValue text).symm decoded

/-- An element is opened by one start tag behind what was written before, and this tag is read as
one token that recovers the given attributes and closes itself only if the element is void, unless
the text of the tag ends in a slash and a bracket. Such a slash is the last character of a value
that is written without quotes; the reader takes it for a part of the end of the tag. -/
theorem openElement_read_back (options : Options) (writer : Writer) {given : List (Text × Text)}
    (named : IsTagName element) (noVerbatim : Element.isVerbatim element = false)
    (legal : ∀ attr ∈ given, attr.1 ≠ [] ∧ ∀ c ∈ attr.1, Token.isAttributeChar c = true) :
    ∃ tag, (writer.openElement options element given).written =
        (writer.flush.trimBefore element).written ++ tag ∧
      ((∃ read, Token.tokenize tag = [.startTag element read (Element.isVoid element)] ∧
          Recovers options.collapseEmptyAttributes element given read) ↔
        ¬"/>".toList <:+ tag) := by
  have lower : ∀ attr ∈ given, IsAttributeName (Text.lower attr.1) := by
    intro attr member
    obtain ⟨some, chars⟩ := legal attr member
    refine ⟨fun none => some (List.map_eq_nil_iff.1 none), fun c inside => ?_, Text.lower_lower _⟩
    obtain ⟨original, inName, rfl⟩ := List.mem_map.1 inside
    exact Token.isAttributeChar_toLower (chars original inName)
  have encoded : ∀ attr ∈ canonicalAttributes options.collapseEmptyAttributes element given,
      IsEncodedAttribute attr := isEncodedAttribute_of_lower lower
  refine ⟨_, Writer.written_openElement options element given writer, ?_, fun noSlash => ?_⟩
  · rintro ⟨read, tokens, recovers⟩ slash
    obtain ⟨front, name, value, written, found⟩ := tokenize_of_slash named noVerbatim encoded slash
    rw [tokens] at found
    obtain ⟨_, same, _⟩ := Token.startTag.inj (List.cons.inj found).1
    rw [same] at recovers
    exact not_recovers_of_slash written recovers
  · exact ⟨_, tokenize_of_not_slash named noVerbatim encoded noSlash,
      recovers_canonicalAttributes _ element fun attr member => (legal attr member).1⟩

/-- The last value of a name counts, whatever its case, and a slash inside quotes ends no tag. -/
theorem openElement_read_back_link :
    let given := [("HREF".toList, "x".toList), ("name".toList, []), ("href".toList, "a b/".toList)]
    let before := (Writer.start.flush.trimBefore "a".toList).written
    let tag := "<a href=\"a b/\" name>".toList
    (IsTagName "a".toList ∧ Element.isVerbatim "a".toList = false ∧
        (∀ attr ∈ given, attr.1 ≠ [] ∧ ∀ c ∈ attr.1, Token.isAttributeChar c = true) ∧
        (Writer.start.openElement {} "a".toList given).written = before ++ tag ∧
          ¬"/>".toList <:+ tag) ∧
      ∃ read, Token.tokenize tag = [.startTag "a".toList read (Element.isVoid "a".toList)] ∧
        Recovers true "a".toList given read := by
  intro given before tag
  have named : IsTagName "a".toList :=
    ⟨⟨'a', [], rfl, by decide⟩, List.all_eq_true.1 (by decide), by decide⟩
  have legal : ∀ attr ∈ given, attr.1 ≠ [] ∧ ∀ c ∈ attr.1, Token.isAttributeChar c = true := by
    simp only [given, List.forall_mem_cons]
    exact ⟨⟨by decide, List.all_eq_true.1 (by decide)⟩,
      ⟨by decide, List.all_eq_true.1 (by decide)⟩,
      ⟨by decide, List.all_eq_true.1 (by decide)⟩, List.forall_mem_nil _⟩
  have text : (Writer.start.openElement {} "a".toList given).written = before ++ tag := by
    decide +kernel
  have noSlash : ¬"/>".toList <:+ tag := by decide +kernel
  obtain ⟨found, written, readsBack⟩ :=
    openElement_read_back {} Writer.start named (by decide) legal
  obtain rfl : tag = found := List.append_cancel_left (text.symm.trans written)
  exact ⟨⟨named, by decide, legal, text, noSlash⟩, readsBack.2 noSlash⟩

/-- A value that is written without quotes at the end of a tag is not read back with its slash. -/
theorem openElement_not_read_back :
    let given := [("href".toList, "x/".toList)]
    (IsTagName "a".toList ∧ Element.isVerbatim "a".toList = false ∧
        ∀ attr ∈ given, attr.1 ≠ [] ∧ ∀ c ∈ attr.1, Token.isAttributeChar c = true) ∧
      (Writer.start.openElement {} "a".toList given).written =
        (Writer.start.flush.trimBefore "a".toList).written ++ "<a href=x/>".toList ∧
      Token.tokenize "<a href=x/>".toList =
        [.startTag "a".toList [("href".toList, some "x".toList)] true] ∧
      ¬∃ read, Token.tokenize "<a href=x/>".toList =
        [.startTag "a".toList read (Element.isVoid "a".toList)] ∧
        Recovers true "a".toList given read := by
  intro given
  have read : Token.tokenize "<a href=x/>".toList =
      [.startTag "a".toList [("href".toList, some "x".toList)] true] := by decide +kernel
  have named : IsTagName "a".toList :=
    ⟨⟨'a', [], rfl, by decide⟩, List.all_eq_true.1 (by decide), by decide⟩
  have legal : ∀ attr ∈ given, attr.1 ≠ [] ∧ ∀ c ∈ attr.1, Token.isAttributeChar c = true :=
    List.forall_mem_singleton.2 ⟨by decide, List.all_eq_true.1 (by decide)⟩
  refine ⟨⟨named, by decide, legal⟩, by decide +kernel, read, ?_⟩
  rintro ⟨found, same, _⟩
  rw [read] at same
  exact absurd (Token.startTag.inj (List.cons.inj same).1).2.2 (by decide)

end HtmlMinifier.Canonical

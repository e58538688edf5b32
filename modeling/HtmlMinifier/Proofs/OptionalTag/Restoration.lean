/-
# Documents that a reader restores

A document is restored from what the rules leave of it if the reader comes to the same elements and
words in the same places. It does if the tags of the skeleton are outside everything else, there
are no column groups, and every end tag is supplied by what follows it.
-/
import HtmlMinifier.Proofs.OptionalTag.Omission
import HtmlMinifier.Proofs.OptionalTag.SkeletonPass

namespace HtmlMinifier.OptionalTag

open Canonical (Mark Piece Cell Place LaidCells IsNamedMark AreNamed renderCells trimLast)
open Event (Explicit Omitted isImplicit letterTokens reading strokes tokenStrokes tokensOf)

/-- Whether a token is a tag of a column group. -/
def isColumnGroupTag : Token → Bool
  | .startTag name _ _ => name = "colgroup".toList
  | .endTag name => name = "colgroup".toList
  | _ => false

/-- What has to hold of the tokens of a document for a reader to restore it. -/
structure IsRestorable (tokens : List Token) : Prop where
  skeleton : HasSkeleton [] tokens
  noColumnGroup : ∀ token ∈ tokens, isColumnGroupTag token = false
  ends : EndsSupplied (unframed tokens)

instance decidableHasSkeleton :
    (stack : Event.OpenElements) → (tokens : List Token) → Decidable (HasSkeleton stack tokens)
  | _, [] => .isTrue trivial
  | stack, token :: later =>
      have := decidableHasSkeleton (Event.feed stack token).2 later
      inferInstanceAs (Decidable (_ ∧ _))

instance : DecidablePred IsRestorable := fun _ =>
  decidable_of_iff (_ ∧ _ ∧ _) ⟨fun ⟨skeleton, noColumnGroup, ends⟩ => ⟨skeleton, noColumnGroup,
    ends⟩,
    fun ⟨skeleton, noColumnGroup, ends⟩ => ⟨skeleton, noColumnGroup, ends⟩⟩

/-! ## What the rules leave -/

section
variable {lead : Text} {cells : List Cell} (laid : LaidCells Place.start lead cells)
  (solid : ∀ cell ∈ cells, IsSolid cell.mark)
include laid

omit laid in
/-- The start tag of an element with a name is idle only if it begins a column group. -/
theorem eq_of_mem_idleTags {name : Text} (named : Token.IsTagName name) (idle : name ∈ idleTags) :
    name = "colgroup".toList := by
  obtain ⟨c, later, rfl, alpha⟩ := named.letter
  have noSlash : c ≠ '/' := by
    rintro rfl
    exact absurd alpha (by decide)
  rcases List.mem_cons.1 idle with same | further
  · exact same
  · rcases List.mem_cons.1 further with same | isEnd
    · exact absurd (List.cons.inj same).1 noSlash
    · obtain ⟨other, _, same⟩ := List.mem_map.1 isEnd
      exact absurd (List.cons.inj same).1.symm noSlash

omit laid in
/-- An end tag is idle only if it ends a column group or a void element. -/
theorem eq_or_isVoid_of_mem_idleTags {name : Text} (idle : '/' :: name ∈ idleTags) :
    name = "colgroup".toList ∨ Element.isVoid name = true := by
  rcases List.mem_cons.1 idle with same | further
  · exact absurd (List.cons.inj same).1 (by decide)
  · rcases List.mem_cons.1 further with same | isEnd
    · exact .inl (List.cons.inj same).2
    · obtain ⟨other, isVoid, same⟩ := List.mem_map.1 isEnd
      rw [← (List.cons.inj same).2]
      exact .inr (List.contains_iff_mem.2 isVoid)

/-- Without column groups no tag of laid cells is idle. -/
theorem notMem_idleTags (noColumnGroup : ∀ token ∈ cells.flatMap Cell.strokes,
    isColumnGroupTag token = false) :
    ∀ cell ∈ cells, ∀ tag, markTag? cell.mark = some tag → tag ∉ idleTags := by
  rintro ⟨mark, run⟩ inside tag same idle
  have named := (laid.areNamed Place.isContained_start).marks _ inside
  have tokens : ∀ token ∈ mark.tokens.flatMap tokenStrokes, isColumnGroupTag token = false :=
    fun token member => noColumnGroup token (List.mem_flatMap.2 ⟨_, inside,
      List.mem_append_left _ member⟩)
  cases named with
  | @opening name attributes named | @void name attributes named =>
      cases attributes with
      | cons attr attributes => cases same
      | nil =>
          obtain rfl : name = tag := Option.some.inj same
          obtain rfl := eq_of_mem_idleTags named idle
          exact absurd (tokens _ List.mem_cons_self) (by decide)
  | @closing name =>
      obtain rfl : '/' :: name = tag := Option.some.inj same
      rcases eq_or_isVoid_of_mem_idleTags idle with rfl | isVoid
      · exact absurd (tokens _ List.mem_cons_self) (by decide)
      · rw [laid.noVoid _ inside name rfl] at isVoid
        cases isVoid
  | verbatim body named | comment body => cases same

variable (restorable : IsRestorable (tokensOf (Element.doctype ++ (lead ++ renderCells cells))))
  {collapseEmpty : Bool} (written : ∀ cell ∈ cells, cell.mark.IsWritten collapseEmpty)
include solid restorable written

/-- What the rules for the skeleton leave of a document that is restored. -/
theorem arePlain_dropMarks : ArePlain (dropMarks isBareFrame lead cells).1
    (dropMarks isBareFrame lead cells).2 := by
  have named := laid.areNamed Place.isContained_start
  have tokens := Canonical.tokensOf_cells named (laid.isRead written)
  rw [tokens] at restorable
  have left : ∀ {left : Cell}, left ∈ (dropMarks isBareFrame lead cells).2 →
      ∃ cell ∈ cells, cell.mark = left.mark := mem_of_mem_dropMarks
  refine ⟨areNamed_dropMarks named, ?_, ?_, ?_⟩
  · intro rule listed cell inside
    obtain ⟨original, found, same⟩ := left inside
    rw [← same]
    exact isStill_of_isSolid (mem_rules_of_mem_contentRules listed) (named.marks original found)
      (solid original found)
  · intro cell inside
    obtain ⟨original, found, same⟩ := left inside
    rw [← same]
    refine notMem_idleTags laid (fun token member => ?_) original found
    exact restorable.noColumnGroup token (List.mem_cons_of_mem _ (List.mem_append_right _ member))
  · apply EndsSupplied.sectionsApart
    have seen : unframed (.doctype "doctype html".toList ::
        (letterTokens lead ++ cells.flatMap Cell.strokes)) = .doctype "doctype html".toList ::
        (letterTokens (dropMarks isBareFrame lead cells).1 ++
          (dropMarks isBareFrame lead cells).2.flatMap Cell.strokes) := by
      rw [← unframed_strokes lead named.marks]
      rfl
    have ends := restorable.ends
    rw [seen] at ends
    exact ends.suffix ((List.suffix_append _ _).trans (List.suffix_cons _ _))

/-- What all rules leave of a document that is restored. -/
theorem elide_cells : elide false (Element.doctype ++ (lead ++ renderCells cells)) =
    Element.doctype ++ ((dropMarks isBareFrame lead cells).1 ++
      renderCells (thinAll contentRules (dropMarks isBareFrame lead cells).2)) := by
  have named := laid.areNamed Place.isContained_start
  have still : ∀ rule ∈ frameRules, ∀ cell ∈ cells, IsStill rule cell.mark :=
    fun rule member cell inside => isStill_of_isSolid (mem_rules_of_mem_frameRules member)
      (named.marks cell inside) (solid cell inside)
  rw [elide_eq, applyAll_frameRules named still,
    (arePlain_dropMarks laid solid restorable written).applyAll_contentRules]

/-- What is seen of the short form of a document that is restored. -/
theorem tokensOf_elide :
    tokensOf (Text.trimEnd (elide false (Element.doctype ++ (lead ++ renderCells cells)))) =
      .doctype "doctype html".toList :: (letterTokens (dropMarks isBareFrame lead cells).1 ++
        (thinAll contentRules (dropMarks isBareFrame lead cells).2).flatMap Cell.strokes) := by
  have plain := (arePlain_dropMarks laid solid restorable written).named
  have fewer := (thinAll_sublist contentRules (dropMarks isBareFrame lead cells).2).subset
  have kept : AreNamed (dropMarks isBareFrame lead cells).1
      (thinAll contentRules (dropMarks isBareFrame lead cells).2) :=
    ⟨plain.lead, fun cell inside => plain.marks cell (fewer inside),
      fun cell inside => plain.runs cell (fewer inside)⟩
  rw [elide_cells laid solid restorable written, Canonical.trimEnd_append_renderCells rfl,
    Canonical.tokensOf_cells (Canonical.areNamed_trimLast kept), Canonical.strokes_trimLast]
  intro cell inside
  have mark : cell.mark ∈ (thinAll contentRules (dropMarks isBareFrame lead cells).2).map
      Cell.mark := by
    rw [← Canonical.map_mark_trimLast]
    exact List.mem_map_of_mem inside
  obtain ⟨left, isLeft, same⟩ := List.mem_map.1 mark
  obtain ⟨original, found, same'⟩ := mem_of_mem_dropMarks (fewer isLeft)
  rw [← same, ← same']
  exact laid.isRead written original found

/-- What is left out of a document that is restored is supplied by what follows. -/
theorem omitted_elide :
    Omitted [] (unframed (tokensOf (Element.doctype ++ (lead ++ renderCells cells))))
      (tokensOf (Text.trimEnd
      (elide false (Element.doctype ++ (lead ++ renderCells cells))))) := by
  have named := laid.areNamed Place.isContained_start
  have plain := (arePlain_dropMarks laid solid restorable written).named
  have seen : unframed (tokensOf (Element.doctype ++ (lead ++ renderCells cells))) =
      .doctype "doctype html".toList :: (letterTokens (dropMarks isBareFrame lead cells).1 ++
        (dropMarks isBareFrame lead cells).2.flatMap Cell.strokes) := by
    rw [Canonical.tokensOf_cells named (laid.isRead written), ← unframed_strokes lead named.marks]
    rfl
  have ends := restorable.ends
  rw [seen] at ends
  rw [tokensOf_elide laid solid restorable written, seen, ← List.cons_append, ← List.cons_append]
  refine omitted_append _ (omitted_thinAll plain.marks plain.runs
    (ends.suffix ((List.suffix_append _ _).trans (List.suffix_cons _ _))) ?_)
  exact fun (_ : Cell) _ _ _ _ => List.forall_mem_nil _

omit solid restorable in
/-- The tokens of laid cells leave nothing to a reader. -/
theorem explicit_tokensOf :
    Explicit [] (tokensOf (Element.doctype ++ (lead ++ renderCells cells))) := by
  rw [Canonical.tokensOf_cells (laid.areNamed Place.isContained_start) (laid.isRead written)]
  have inside := laid.explicit.flatMap_tokenStrokes
  rw [List.flatMap_assoc] at inside
  simp only [Cell.flatMap_tokenStrokes] at inside
  exact ⟨trivial, Event.explicit_letterTokens_append inside⟩

/-- A document that is restored reads the same when its optional tags are left out. -/
theorem reading_elide :
    reading isImplicit (Event.parse (Element.doctype ++ (lead ++ renderCells cells))) =
      reading isImplicit (Event.parse (Text.trimEnd
        (elide false (Element.doctype ++ (lead ++ renderCells cells))))) := by
  have explicit := explicit_tokensOf laid written
  have skeleton := restorable.skeleton
  have omitted := omitted_elide laid solid restorable written
  have noneHome : ∀ name ∈ ([] : List Text), isFrame name = false := List.forall_mem_nil _
  have noneFrame : ∀ name ∈ ([] : List Text), isFrame name = true := List.forall_mem_nil _
  obtain ⟨explicitLeft, same⟩ := unframed_over noneHome noneFrame noneFrame explicit skeleton
  have restored : Event.ofTokensWithin [] (tokensOf (Text.trimEnd (elide false
      (Element.doctype ++ (lead ++ renderCells cells))))) = Event.ofTokensWithin []
        (unframed (tokensOf (Element.doctype ++ (lead ++ renderCells cells)))) :=
    omitted.ofTokensWithin_eq explicitLeft
  rw [Event.reading_eq_iff, Event.strokes_parse, Event.strokes_parse]
  refine congrArg (Event.documentStart :: ·) ?_
  calc (Event.ofTokensWithin [] (tokensOf _)).flatMap (strokes isImplicit)
      = (Event.ofTokensWithin [] (unframed (tokensOf _))).flatMap (strokes isImplicit) := same.symm
    _ = (Event.ofTokensWithin [] (tokensOf _)).flatMap (strokes isImplicit) := by
        rw [restored]

end

end HtmlMinifier.OptionalTag

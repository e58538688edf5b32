/-
# Canonical attributes are fixed points

The attributes of a written tag ascend strictly by name, and each value is the normal form of a
given one. Read back as they are written, without decoding, they are their own canonical form. Both
forms of an attribute that has no value to show, the bare name and the empty quotes, are kept apart
by nothing but the options, so they too are written as before.
-/
import HtmlMinifier.Canonical.Attribute
import HtmlMinifier.Proofs.Reference.RoundTrip
import HtmlMinifier.Proofs.Token.Name

namespace HtmlMinifier.Canonical

open Token (IsAttributeName)

/-! ## Order -/

/-- A list of attributes that ascends strictly by name. -/
def Ascending (held : List (Text × Text)) : Prop :=
  held.Pairwise fun first second => first.1 < second.1

/-- What is put into a list is in it, and nothing else is new. -/
theorem mem_putAttribute {name value : Text} {held : List (Text × Text)} {attr : Text × Text}
    (member : attr ∈ putAttribute name value held) : attr = (name, value) ∨ attr ∈ held := by
  induction held with
  | nil => exact .inl (List.mem_singleton.1 member)
  | cons first held ih =>
      rw [putAttribute] at member
      split at member
      · rcases List.mem_cons.1 member with same | later
        · exact .inl same
        · exact .inr (List.mem_cons_of_mem first later)
      · split at member
        · exact List.mem_cons.1 member
        · rcases List.mem_cons.1 member with rfl | later
          · exact .inr List.mem_cons_self
          · rcases ih later with same | further
            · exact .inl same
            · exact .inr (List.mem_cons_of_mem first further)

/-- Putting a value under a name keeps a list in order. -/
theorem Ascending.putAttribute {held : List (Text × Text)} (ascending : Ascending held)
    (name value : Text) : Ascending (putAttribute name value held) := by
  induction held with
  | nil => exact List.pairwise_singleton _ _
  | cons first held ih =>
      obtain ⟨below, later⟩ := List.pairwise_cons.1 ascending
      rw [Canonical.putAttribute]
      split
      · next same =>
          refine List.pairwise_cons.2 ⟨fun attr member => ?_, later⟩
          change name < attr.1
          rw [same]
          exact below attr member
      · next differs =>
          split
          · next before =>
              refine List.pairwise_cons.2 ⟨fun attr member => ?_, ascending⟩
              change name < attr.1
              rcases List.mem_cons.1 member with rfl | further
              · exact before
              · exact List.lt_trans before (below attr further)
          · next notBefore =>
              refine List.pairwise_cons.2 ⟨fun attr member => ?_, ih later⟩
              rcases mem_putAttribute member with rfl | further
              · exact Decidable.byContradiction fun notAfter =>
                  differs (List.le_antisymm notBefore notAfter).symm
              · exact below attr further

theorem ascending_sortedAttributes (given : List (Text × Text)) :
    Ascending (sortedAttributes given) := by
  have kept : ∀ (added held : List (Text × Text)), Ascending held →
      Ascending (added.foldl (fun held attr => putAttribute (Text.lower attr.1) attr.2 held)
          held) := by
    intro added held ascending
    induction added generalizing held with
    | nil => exact ascending
    | cons attr added ih => exact ih _ (ascending.putAttribute (Text.lower attr.1) attr.2)
  exact kept _ [] List.Pairwise.nil

/-- What is put into a list in order stands for its name alone; everything under another name
stays. -/
theorem mem_putAttribute_iff {held : List (Text × Text)} (ascending : Ascending held)
    {name value : Text}
    {attr : Text × Text} :
    attr ∈ putAttribute name value held ↔ attr = (name, value) ∨ attr.1 ≠ name ∧ attr ∈ held := by
  induction held with
  | nil => simp [putAttribute]
  | cons first held ih =>
      obtain ⟨below, later⟩ := List.pairwise_cons.1 ascending
      have above : ∀ {other : Text}, ¬first.1 < other → attr ∈ held → attr.1 ≠ other := by
        rintro other notBelow member rfl
        exact notBelow (below attr member)
      rw [putAttribute]
      split
      · next same =>
          have others : attr ∈ held → attr.1 ≠ name := above (by rw [same]; exact List.lt_irrefl _)
          rw [List.mem_cons, List.mem_cons]
          constructor
          · rintro (new | old)
            · exact .inl new
            · exact .inr ⟨others old, .inr old⟩
          · rintro (new | ⟨differs, rfl | old⟩)
            · exact .inl new
            · exact absurd same.symm differs
            · exact .inr old
      · next differs =>
          split
          · next before =>
              have others : attr ∈ first :: held → attr.1 ≠ name := by
                intro member
                rcases List.mem_cons.1 member with rfl | old
                · exact fun same => differs same.symm
                · exact above (List.lt_asymm before) old
              rw [List.mem_cons]
              exact or_congr_right ⟨fun old => ⟨others old, old⟩, fun old => old.2⟩
          · rw [List.mem_cons, ih later, List.mem_cons]
            constructor
            · rintro (rfl | new | ⟨other, old⟩)
              · exact .inr ⟨fun same => differs same.symm, .inl rfl⟩
              · exact .inl new
              · exact .inr ⟨other, .inr old⟩
            · rintro (new | ⟨other, rfl | old⟩)
              · exact .inr (.inl new)
              · exact .inl rfl
              · exact .inr (.inr ⟨other, old⟩)

/-- The value that is given last under a name, in whatever case the name is given. -/
def lastGiven? (name : Text) : List (Text × Text) → Option Text
  | [] => none
  | attr :: later =>
      (lastGiven? name later).or (if Text.lower attr.1 = name then some attr.2 else none)

/-- A value is given under a name by an attribute that has this name in some case. -/
theorem exists_of_lastGiven? {name value : Text} {given : List (Text × Text)}
    (last : lastGiven? name given = some value) :
    ∃ origin ∈ given, Text.lower origin.1 = name ∧ origin.2 = value := by
  induction given with
  | nil => cases last
  | cons attr later ih =>
      rw [lastGiven?, Option.or_eq_some_iff] at last
      rcases last with behind | ⟨_, here⟩
      · obtain ⟨origin, member, same⟩ := ih behind
        exact ⟨origin, List.mem_cons_of_mem attr member, same⟩
      · split at here
        · next same => exact ⟨attr, List.mem_cons_self, same, Option.some.inj here⟩
        · cases here

/-- Under every name that is given, in whatever case, some value is given last. -/
theorem exists_lastGiven? {given : List (Text × Text)} {origin : Text × Text}
    (original : origin ∈ given) :
    ∃ value, lastGiven? (Text.lower origin.1) given = some value := by
  induction given with
  | nil => cases original
  | cons attr later ih =>
      rw [lastGiven?]
      cases behind : lastGiven? (Text.lower origin.1) later with
      | some value => exact ⟨value, rfl⟩
      | none =>
          rcases List.mem_cons.1 original with rfl | further
          · exact ⟨origin.2, by rw [if_pos rfl]; rfl⟩
          · obtain ⟨value, found⟩ := ih further
            rw [behind] at found
            cases found

/-- Attributes without a name give no value under any other. -/
theorem lastGiven?_filter {name : Text} (some : name ≠ []) (given : List (Text × Text)) :
    lastGiven? name (given.filter fun attr => attr.1 ≠ []) = lastGiven? name given := by
  induction given with
  | nil => rfl
  | cons attr later ih =>
      by_cases none : attr.1 = []
      · rw [List.filter_cons_of_neg (by simp [none]), ih, lastGiven?, none,
          if_neg (show Text.lower [] ≠ name from some.symm), Option.or_none]
      · rw [List.filter_cons_of_pos (by simp [none]), lastGiven?, lastGiven?, ih]

/-- What attributes put into a list in order is what they give last under every name; under a name
that none of them has, everything stays. -/
theorem mem_foldl_putAttribute_iff (added : List (Text × Text)) {held : List (Text × Text)}
    (ascending : Ascending held) {attr : Text × Text} :
    attr ∈ added.foldl (fun held attr => putAttribute (Text.lower attr.1) attr.2 held) held ↔
      lastGiven? attr.1 added = some attr.2 ∨ lastGiven? attr.1 added = none ∧ attr ∈ held := by
  induction added generalizing held with
  | nil => simp [lastGiven?]
  | cons first added ih =>
      rw [List.foldl_cons, ih (ascending.putAttribute _ _), mem_putAttribute_iff ascending,
        lastGiven?]
      cases later : lastGiven? attr.1 added with
      | some value => simp
      | none =>
          have here : attr = (Text.lower first.1, first.2) ↔
              Text.lower first.1 = attr.1 ∧ first.2 = attr.2 := by
            rw [Prod.ext_iff, eq_comm (a := attr.1), eq_comm (a := attr.2)]
          rw [here, Option.none_or]
          split
          · next same => simp [same]
          · next differs => simp [differs, Ne.symm differs]

/-- The sorted list holds what the attributes that have a name give last under it. -/
theorem mem_sortedAttributes_iff_lastGiven? {given : List (Text × Text)} {attr : Text × Text} :
    attr ∈ sortedAttributes given ↔
      lastGiven? attr.1 (given.filter fun attr => attr.1 ≠ []) = some attr.2 := by
  rw [sortedAttributes, mem_foldl_putAttribute_iff _ List.Pairwise.nil]
  simp

/-- Whatever is in the sorted list was given, up to the case of its name. -/
theorem mem_sortedAttributes {given : List (Text × Text)} {attr : Text × Text}
    (member : attr ∈ sortedAttributes given) :
    ∃ origin ∈ given, origin.1 ≠ [] ∧ attr = (Text.lower origin.1, origin.2) := by
  obtain ⟨origin, inside, named, value⟩ :=
    exists_of_lastGiven? (mem_sortedAttributes_iff_lastGiven?.1 member)
  obtain ⟨original, some⟩ := List.mem_filter.1 inside
  exact ⟨origin, original, of_decide_eq_true some, Prod.ext named.symm value.symm⟩

/-- The sorted list holds under every name the value that was given last, and nothing else. -/
theorem mem_sortedAttributes_iff {given : List (Text × Text)} {attr : Text × Text} :
    attr ∈ sortedAttributes given ↔ attr.1 ≠ [] ∧ lastGiven? attr.1 given = some attr.2 := by
  constructor
  · intro member
    obtain ⟨origin, _, named, rfl⟩ := mem_sortedAttributes member
    have some : Text.lower origin.1 ≠ [] := fun none => named (List.map_eq_nil_iff.1 none)
    rw [mem_sortedAttributes_iff_lastGiven?, lastGiven?_filter some] at member
    exact ⟨some, member⟩
  · rintro ⟨some, last⟩
    rw [mem_sortedAttributes_iff_lastGiven?, lastGiven?_filter some]
    exact last

/-- A name that comes after all others is put at the end. -/
theorem putAttribute_of_above {name value : Text} {held : List (Text × Text)}
    (above : ∀ attr ∈ held, attr.1 < name) :
    putAttribute name value held = held ++ [(name, value)] := by
  induction held with
  | nil => rfl
  | cons first held ih =>
      have before := above first List.mem_cons_self
      have differs : name ≠ first.1 := by
        rintro rfl
        exact List.lt_irrefl first.1 before
      rw [putAttribute, if_neg differs, if_neg (List.lt_asymm before),
        ih fun attr member => above attr (List.mem_cons_of_mem first member), List.cons_append]

/-- A list that is in order already, with names in lower case, stays as it is. -/
theorem sortedAttributes_of_ascending {held : List (Text × Text)} (ascending : Ascending held)
    (named : ∀ attr ∈ held, IsAttributeName attr.1) : sortedAttributes held = held := by
  have filtered : held.filter (fun attr => attr.1 ≠ []) = held :=
    List.filter_eq_self.2 fun attr member => decide_eq_true (named attr member).some
  have placed : ∀ later earlier : List (Text × Text), earlier ++ later = held →
      later.foldl (fun held attr => putAttribute (Text.lower attr.1) attr.2 held) earlier =
          held := by
    intro later earlier parts
    induction later generalizing earlier with
    | nil => rw [← parts, List.append_nil, List.foldl_nil]
    | cons attr later ih =>
        have inOrder : Ascending (earlier ++ attr :: later) := by rw [parts]; exact ascending
        have above : ∀ other ∈ earlier, other.1 < attr.1 := fun other member =>
          (List.pairwise_append.1 inOrder).2.2 other member attr List.mem_cons_self
        have lower : Text.lower attr.1 = attr.1 :=
          (named attr (by rw [← parts]; exact List.mem_append_right _ List.mem_cons_self)).lower
        rw [List.foldl_cons, lower, putAttribute_of_above above]
        exact ih _ (by rw [← parts, List.append_assoc, List.singleton_append])
  rw [sortedAttributes, filtered]
  exact placed held [] rfl

/-! ## Values -/

/-- The attributes of a written tag as they are read back: a bare name has the empty value. -/
def readBack (written : List (Text × Option Text)) : List (Text × Text) :=
  written.map fun attr => (attr.1, attr.2.getD [])

/-- The value with which an attribute is read back. -/
def canonicalValue (element name value : Text) : Text :=
  if Element.isBooleanAttribute element name then [] else Reference.normalizeAttribute value

/-- The attributes of an element in canonical form: each name once, in ascending order, with the
normal form of the value that was given last. -/
def canonicalForm (element : Text) (given : List (Text × Text)) : List (Text × Text) :=
  (sortedAttributes given).map fun attr => (attr.1, canonicalValue element attr.1 attr.2)

theorem getD_writtenValue (collapseEmpty : Bool) (element name value : Text) :
    (writtenValue collapseEmpty element name value).getD [] = canonicalValue element name
    value := by
  simp only [writtenValue, canonicalValue]
  split
  · rfl
  · split
    · next vanishes => exact (of_decide_eq_true (Bool.and_eq_true_iff.1 vanishes).1).symm
    · rfl

/-- Whether empty values are written or not, the attributes read back the same. -/
theorem readBack_canonicalAttributes (collapseEmpty : Bool) (element : Text)
    (given : List (Text × Text)) :
    readBack (canonicalAttributes collapseEmpty element given) = canonicalForm element given := by
  rw [readBack, canonicalAttributes, canonicalForm, List.map_map]
  apply List.map_congr_left
  intro attr _
  rw [Function.comp_apply, getD_writtenValue]

/-- A canonical value is written as the value it comes from. -/
theorem writtenValue_canonicalValue (collapseEmpty : Bool) (element name value : Text) :
    writtenValue collapseEmpty element name (canonicalValue element name value) =
      writtenValue collapseEmpty element name value := by
  by_cases boolean : Element.isBooleanAttribute element name = true
  · rw [writtenValue, writtenValue, if_pos boolean, if_pos boolean]
  · rw [writtenValue, writtenValue, canonicalValue, if_neg boolean, if_neg boolean, if_neg boolean,
      Reference.normalizeAttribute_normalizeAttribute]

/-- Canonical attributes that are read back are written as before. -/
theorem canonicalAttributes_canonicalForm (collapseEmpty : Bool) (element : Text)
    {given : List (Text × Text)} (named : ∀ attr ∈ given, IsAttributeName attr.1) :
    canonicalAttributes collapseEmpty element (canonicalForm element given) =
      canonicalAttributes collapseEmpty element given := by
  have ascending : Ascending (canonicalForm element given) :=
    List.pairwise_map.2 (ascending_sortedAttributes given)
  have names : ∀ attr ∈ canonicalForm element given, IsAttributeName attr.1 := by
    intro attr member
    obtain ⟨sorted, inside, rfl⟩ := List.mem_map.1 member
    obtain ⟨origin, original, _, rfl⟩ := mem_sortedAttributes inside
    have lower : Text.lower origin.1 = origin.1 := (named origin original).lower
    change IsAttributeName (Text.lower origin.1)
    rw [lower]
    exact named origin original
  rw [canonicalAttributes, sortedAttributes_of_ascending ascending names, canonicalForm,
    List.map_map,
    canonicalAttributes]
  apply List.map_congr_left
  intro attr _
  rw [Function.comp_apply, writtenValue_canonicalValue]

end HtmlMinifier.Canonical

/-
# What the attributes of a tag depend on

Attributes are given in any order, with names in any case, some of them twice and some without a
name. A start tag shows of all this only what each name was given last: the names once and in
ascending order, each by itself where it says enough, and with its value elsewhere. So lists that
give every name the same last value are written alike, and so are the rearrangements of a list that
gives no name twice.
-/
import HtmlMinifier.Proofs.Canonical.Attribute
import HtmlMinifier.Proofs.Canonical.Written
import Mathlib.Data.List.Nodup

namespace HtmlMinifier.Canonical

/-! ## The last value of a name -/

/-- A value is the last one of a name if an attribute gives it behind which none has this name. -/
theorem exists_last_of_lastGiven? {name value : Text} {given : List (Text × Text)}
    (last : lastGiven? name given = some value) :
    ∃ earlier attr later, given = earlier ++ attr :: later ∧ Text.lower attr.1 = name ∧
      attr.2 = value ∧ ∀ other ∈ later, Text.lower other.1 ≠ name := by
  induction given with
  | nil => cases last
  | cons first given ih =>
      cases behind : lastGiven? name given with
      | some inner =>
          have same : lastGiven? name given = some value := by
            rw [lastGiven?, behind, Option.some_or] at last
            rw [behind, last]
          obtain ⟨earlier, attr, later, rfl, named, given, none⟩ := ih same
          exact ⟨first :: earlier, attr, later, rfl, named, given, none⟩
      | none =>
          rw [lastGiven?, behind, Option.none_or] at last
          split at last
          · next named =>
              refine ⟨[], first, given, rfl, named, Option.some.inj last,
                fun other member same => ?_⟩
              obtain ⟨inner, found⟩ := exists_lastGiven? member
              rw [same, behind] at found
              cases found
          · cases last

/-- Whether no name is given twice, in whatever case. Attributes without a name do not count. -/
def GivenOnce (given : List (Text × Text)) : Prop :=
  ((given.filter fun attr => attr.1 ≠ []).map fun attr => Text.lower attr.1).Nodup

/-- A name that is given once has the value it is given with. -/
theorem GivenOnce.lastGiven?_eq_some_iff {given : List (Text × Text)} (once : GivenOnce given)
    {name value : Text} (named : name ≠ []) :
    lastGiven? name given = some value ↔ ∃ attr ∈ given, Text.lower attr.1 = name ∧ attr.2 =
    value := by
  refine ⟨exists_of_lastGiven?, ?_⟩
  rintro ⟨attr, member, rfl, rfl⟩
  obtain ⟨value, last⟩ := exists_lastGiven? member
  obtain ⟨origin, original, same, rfl⟩ := exists_of_lastGiven? last
  have inNamed : ∀ other ∈ given, Text.lower other.1 = Text.lower attr.1 →
      other ∈ given.filter fun attr => attr.1 ≠ [] := by
    intro other inside same
    refine List.mem_filter.2 ⟨inside, decide_eq_true fun none => named ?_⟩
    rw [← same, none]
    rfl
  have one : origin = attr :=
    List.inj_on_of_nodup_map once (inNamed origin original same) (inNamed attr member rfl) same
  rw [last, one]

/-- Rearranging attributes changes no last value if no name is given twice. -/
theorem lastGiven?_eq_of_perm {given other : List (Text × Text)} (once : GivenOnce given)
    (rearranged : given.Perm other) {name : Text} (named : name ≠ []) :
    lastGiven? name given = lastGiven? name other := by
  have onceToo : GivenOnce other := ((rearranged.filter _).map _).nodup_iff.1 once
  apply Option.ext
  intro value
  rw [once.lastGiven?_eq_some_iff named, onceToo.lastGiven?_eq_some_iff named]
  exact exists_congr fun attr => and_congr_left fun _ => rearranged.mem_iff

/-! ## The written attributes -/

/-- Lists in ascending order are the same if they have the same members. -/
theorem Ascending.eq_of_mem_iff {held other : List (Text × Text)} (ascending : Ascending held)
    (ascendingToo : Ascending other) (same : ∀ attr, attr ∈ held ↔ attr ∈ other) :
    held = other := by
  have distinct : ∀ {list : List (Text × Text)}, Ascending list → list.Nodup := by
    intro list inOrder
    refine inOrder.imp fun before equal => ?_
    rw [equal] at before
    exact List.lt_irrefl _ before
  have rearranged : held.Perm other :=
    (List.perm_ext_iff_of_nodup (distinct ascending) (distinct ascendingToo)).2 same
  refine rearranged.eq_of_pairwise (fun _ _ _ _ before after => ?_) ascending ascendingToo
  exact absurd after (List.lt_asymm before)

/-- What is sorted depends on the last values alone. -/
theorem sortedAttributes_congr {given other : List (Text × Text)}
    (same : ∀ name, name ≠ [] → lastGiven? name given = lastGiven? name other) :
    sortedAttributes given = sortedAttributes other := by
  refine (ascending_sortedAttributes given).eq_of_mem_iff (ascending_sortedAttributes other)
    fun attr => ?_
  rw [mem_sortedAttributes_iff, mem_sortedAttributes_iff]
  exact and_congr_right fun named => by rw [same attr.1 named]

/-- An attribute as a tag shows it: the name by itself where it is boolean on the element, or where
empty values are left out and the value is empty once it is normalized, and elsewhere the name with
this value, in quotes if it cannot do without. -/
def shownAttribute (collapseEmpty : Bool) (element name value : Text) : Text :=
  let normalized := Reference.normalizeAttribute value
  if Element.isBooleanAttribute element name ∨ (normalized = [] ∧ collapseEmpty = true) then name
  else if needsQuotes normalized then name ++ "=\"".toList ++ normalized ++ "\"".toList
  else name ++ '=' :: normalized

theorem renderAttribute_writtenValue (collapseEmpty : Bool) (element name value : Text) :
    renderAttribute (name, writtenValue collapseEmpty element name value) =
      ' ' :: shownAttribute collapseEmpty element name value := by
  simp only [writtenValue, shownAttribute]
  by_cases boolean : Element.isBooleanAttribute element name = true
  · rw [if_pos boolean, if_pos (.inl boolean), renderAttribute]
  · rw [if_neg boolean]
    by_cases vanishes : Reference.normalizeAttribute value = [] ∧ collapseEmpty = true
    · rw [if_pos (by simpa using vanishes), if_pos (.inr vanishes), renderAttribute]
    · rw [if_neg (by simpa using vanishes), if_neg (not_or.2 ⟨boolean, vanishes⟩), renderAttribute]
      simp only
      split
      · simp
      · simp

/-- The names of a start tag with the texts that show them, when these attributes are given: every
name that was given stands once, in lower case and in ascending order, and shows the value that was
given last under it. -/
structure ShowsLast (collapseEmpty : Bool) (element : Text) (given shown : List (Text × Text)) :
    Prop where
  ascending : shown.Pairwise fun first second => first.1 < second.1
  names : ∀ name, name ∈ shown.map Prod.fst ↔ name ≠ [] ∧ ∃ attr ∈ given, Text.lower attr.1 = name
  values : ∀ entry ∈ shown, ∃ earlier last later, given = earlier ++ last :: later ∧
    Text.lower last.1 = entry.1 ∧ (∀ attr ∈ later, Text.lower attr.1 ≠ entry.1) ∧
      entry.2 = shownAttribute collapseEmpty element entry.1 last.2

/-- The names and texts of the written attributes. -/
def shownAttributes (collapseEmpty : Bool) (element : Text) (given : List (Text × Text)) :
    List (Text × Text) :=
  (sortedAttributes given).map fun attr => (attr.1,
    shownAttribute collapseEmpty element attr.1 attr.2)

theorem showsLast_shownAttributes (collapseEmpty : Bool) (element : Text)
    (given : List (Text × Text)) :
    ShowsLast collapseEmpty element given (shownAttributes collapseEmpty element given) where
  ascending := List.pairwise_map.2 (ascending_sortedAttributes given)
  names name := by
    rw [shownAttributes, List.map_map]
    constructor
    · intro inside
      obtain ⟨attr, member, rfl⟩ := List.mem_map.1 inside
      obtain ⟨named, last⟩ := mem_sortedAttributes_iff.1 member
      obtain ⟨origin, original, same, _⟩ := exists_of_lastGiven? last
      exact ⟨named, origin, original, same⟩
    · rintro ⟨named, origin, original, rfl⟩
      obtain ⟨value, last⟩ := exists_lastGiven? original
      exact List.mem_map.2 ⟨(Text.lower origin.1, value), mem_sortedAttributes_iff.2 ⟨named,
        last⟩, rfl⟩
  values := by
    intro entry member
    obtain ⟨attr, inside, rfl⟩ := List.mem_map.1 member
    obtain ⟨earlier, last, later, parts, named, value, none⟩ :=
      exists_last_of_lastGiven? (mem_sortedAttributes_iff.1 inside).2
    exact ⟨earlier, last, later, parts, named, none, by rw [value]⟩

theorem flatMap_renderAttribute (collapseEmpty : Bool) (element : Text)
    (given : List (Text × Text)) :
    (canonicalAttributes collapseEmpty element given).flatMap renderAttribute =
      (shownAttributes collapseEmpty element given).flatMap fun entry => ' ' :: entry.2 := by
  rw [canonicalAttributes, shownAttributes, List.flatMap_map, List.flatMap_map]
  simp only [renderAttribute_writtenValue]

/-! ## The written tag -/

/-- An open with a name is written as one start tag, which shows of its attributes what was given
last under each name. Attributes that give every name the same last value are taken alike, wherever
the draft stands, and so are rearranged attributes that give no name twice. -/
theorem attributes_determined (options : Options) (writer : Writer) (element : Text)
    (given : List (Text × Text)) :
    (element ≠ [] → ∃ next shown,
      writer.push options (.elementOpen element given) = .ok next ∧
        next.written = (writer.flush.trimBefore (Text.lower element)).written ++
          '<' :: (Text.lower element ++ shown.flatMap (fun entry => ' ' :: entry.2) ++ ['>']) ∧
        ShowsLast options.collapseEmptyAttributes (Text.lower element) given shown) ∧
    (∀ other, (∀ name, name ≠ [] → lastGiven? name given = lastGiven? name other) →
      writer.push options (.elementOpen element given) =
        writer.push options (.elementOpen element other)) ∧
    ∀ other, GivenOnce given → given.Perm other →
      writer.push options (.elementOpen element given) =
        writer.push options (.elementOpen element other) := by
  have alike : ∀ other, (∀ name, name ≠ [] → lastGiven? name given = lastGiven? name other) →
      writer.push options (.elementOpen element given) =
        writer.push options (.elementOpen element other) := by
    intro other same
    have sorted : sortedAttributes given = sortedAttributes other := sortedAttributes_congr same
    simp only [Writer.push, Writer.openElement, canonicalAttributes, sorted]
  refine ⟨fun named => ?_, alike, fun other once rearranged => ?_⟩
  · refine ⟨_, shownAttributes options.collapseEmptyAttributes (Text.lower element) given,
      if_neg named, ?_, showsLast_shownAttributes _ _ given⟩
    rw [Writer.written_openElement, Piece.render, flatMap_renderAttribute]
    rfl
  · exact alike other fun name nonempty => lastGiven?_eq_of_perm once rearranged nonempty

/-- The value given last under `b` counts, the boolean attribute shows no value, and there is none
to show of the empty one. -/
example :
    (Writer.start.push {} (.elementOpen "INPUT".toList
        [("B".toList, "2".toList), ("value".toList, []), ("checked".toList, "yes".toList),
          ([], "x".toList), ("b".toList, "3 4".toList)])).map Writer.written =
      .ok "<!doctype html><input b=\"3 4\" checked value>".toList := by
  decide +kernel

end HtmlMinifier.Canonical

/-
# Where an end tag is left out and where it is implied

Two tables speak about the same end tags. The table of rules says in front of which start tags an
end tag may be left out, and the table of implied ends says which start tags close an element whose
end tag is missing. The first compares the beginning of a name in most of its rows, the second
compares whole names. So they agree on every name that a rule gives in full, and on longer names
they agree in one case only: the start tag of `thead`, which a rule for cells takes for one of
`th`, implies the end of a cell as well.
-/
import HtmlMinifier.Proofs.OptionalTag.Context

namespace HtmlMinifier.OptionalTag

/-! ## What a context asks for -/

/-- The tags that a context asks for, without the bracket in front of them. -/
def Follow.tags : Follow → List Text
  | .literal starts => starts.map List.tail
  | .startTag names => names
  | _ => []

/-- The tags that the contexts of a rule ask for. -/
def Rule.followTags (rule : Rule) : List Text := rule.followedBy.flatMap Follow.tags

/-- A tag that a rule asks for is an end tag or spells a name in lower case. -/
theorem name_of_mem_followTags : ∀ rule ∈ rules, ∀ tag ∈ rule.followTags,
    tag.head? = some '/' ∨ ∀ c ∈ tag, Token.isNameChar c = true ∧ c.toLower = c := by
  -- The check of a tag runs over its characters by `all`: a quantifier may be decided by running
  -- over every character there is.
  have checked : ∀ rule ∈ rules, ∀ tag ∈ rule.followTags,
      tag.head? = some '/' ∨ tag.all (fun c => Token.isNameChar c && c.toLower == c) = true := by
    decide +kernel
  intro rule member tag asked
  refine (checked rule member tag asked).imp_right fun plain c inside => ?_
  obtain ⟨named, lower⟩ := Bool.and_eq_true_iff.1 (List.all_eq_true.1 plain c inside)
  exact ⟨named, eq_of_beq lower⟩

/-- A word in lower case that a tag begins with is a first part of its name. -/
theorem prefix_tagName_of_startsFolded {word : Text}
    (plain : ∀ c ∈ word, Token.isNameChar c = true ∧ c.toLower = c) {text : Text}
    (begins : Text.startsFolded word text = true) : word <+: Text.lower (tagName text) := by
  have lower : Text.lower word = word :=
    (List.map_congr_left fun c inside => (plain c inside).2).trans (List.map_id word)
  obtain ⟨spelling, more, spelled, rfl⟩ := Token.startsFolded_iff.1 begins
  rw [lower] at spelled
  have named : ∀ c ∈ spelling, Token.isNameChar c = true := by
    intro c inside
    have folded : c.toLower ∈ word := by
      rw [← spelled]
      exact List.mem_map_of_mem inside
    exact Token.isNameChar_of_toLower (plain _ folded).1
  refine ⟨Text.lower (tagName more), ?_⟩
  have longer : tagName (spelling ++ more) = spelling ++ tagName more :=
    List.takeWhile_append_of_pos named
  rw [longer, ← spelled, Text.lower, Text.lower, Text.lower, List.map_append]

/-- A start tag that a context of a rule accepts has a name that begins with one it asks for. -/
theorem exists_prefix_of_accepts {rule : Rule} (member : rule ∈ rules) {c : Char}
    (letter : c.isAlpha = true) {rest : Text}
    (accepted : (rule.followedBy.any fun follow => follow.accepts ('<' :: c :: rest)) = true) :
    ∃ tag ∈ rule.followTags, tag <+: Text.lower (tagName (c :: rest)) := by
  obtain ⟨follow, listed, accepts⟩ := List.any_eq_true.1 accepted
  have noSlash : c ≠ '/' := by
    rintro rfl
    exact absurd letter (by decide)
  cases follow with
  | literal starts =>
      obtain ⟨start, inStarts, begins⟩ := List.any_eq_true.1 accepts
      have markup := isMarkup_of_mem_rules rule member _ listed
      rw [Follow.isMarkup, List.all_eq_true] at markup
      obtain ⟨bracket, _⟩ := Bool.and_eq_true_iff.1 (markup start inStarts)
      obtain ⟨tag, rfl⟩ := List.head?_eq_some_iff.1 (of_decide_eq_true bracket)
      have asked : tag ∈ rule.followTags :=
        List.mem_flatMap.2 ⟨_, listed, List.mem_map.2 ⟨_, inStarts, rfl⟩⟩
      have begins : Text.startsFolded tag (c :: rest) = true := begins
      rcases name_of_mem_followTags rule member tag asked with slash | plain
      · obtain ⟨name, rfl⟩ := List.head?_eq_some_iff.1 slash
        have differs : ('/' : Char).toLower ≠ c.toLower := fun same =>
          noSlash ((Text.toLower_eq_iff (by decide) (by decide) c).1 same.symm)
        rw [Text.startsFolded, Text.dropFolded?_cons_cons, if_neg differs] at begins
        cases begins
      · exact ⟨tag, asked, prefix_tagName_of_startsFolded plain begins⟩
  | startTag names =>
      obtain ⟨_, inNames⟩ := Bool.and_eq_true_iff.1 accepts
      have inNames := List.contains_iff_mem.1 inNames
      exact ⟨_, List.mem_flatMap.2 ⟨_, listed, inNames⟩, List.prefix_refl _⟩
  | endTagExcept names =>
      rw [Follow.accepts] at accepts
      · cases accepts
      · intro later same
        exact noSlash (List.cons.inj (List.cons.inj same).2).1
  | endOfText => cases accepts

/-! ## Both tables -/

/-- The names of the start tags that imply end tags. -/
def implyingNames : List Text := Element.impliedEndTable.flatMap Prod.fst

theorem impliedEnds_of_notMem {name : Text} (missing : name ∉ implyingNames) :
    Element.impliedEnds name = [] := by
  have none : (Element.impliedEndTable.find? fun entry => entry.1.contains name) = none := by
    rw [List.find?_eq_none]
    intro entry listed inside
    exact missing (List.mem_flatMap.2 ⟨entry, listed, List.contains_iff_mem.1 inside⟩)
  rw [Element.impliedEnds, none]

/-- A start tag that a rule for an end tag asks for implies end tags. -/
theorem mem_implyingNames_of_followTags : ∀ rule ∈ rules, ∀ tag ∈ rule.tags, tag.head? = some '/' →
    ∀ name ∈ rule.followTags, name.head? = some '/' ∨ name ∈ implyingNames := by
  decide +kernel

/-- The tables agree on the names that imply end tags, one by one. -/
theorem mem_impliedEnds_iff_of_prefix : ∀ rule ∈ rules, ∀ tag ∈ rule.tags, tag.head? = some '/' →
    ∀ name ∈ implyingNames, (∃ start ∈ rule.followTags, start <+: name) →
      (tag.tail ∈ Element.impliedEnds name ↔ name ∈ rule.followTags ∨ name = "thead".toList) := by
  decide +kernel

/-- Where a rule leaves out an end tag in front of a start tag, the start tag implies the end tag
exactly if the rule gives its name in full, or if it is that of `thead`. -/
theorem mem_impliedEnds_iff_of_accepts {rule : Rule} (member : rule ∈ rules) {name : Text}
    (endTag : '/' :: name ∈ rule.tags) {c : Char} (letter : c.isAlpha = true) {rest : Text}
    (accepted : (rule.followedBy.any fun follow => follow.accepts ('<' :: c :: rest)) = true) :
    name ∈ Element.impliedEnds (Text.lower (tagName (c :: rest))) ↔
      Text.lower (tagName (c :: rest)) ∈ rule.followTags ∨
        Text.lower (tagName (c :: rest)) = "thead".toList := by
  have begins := exists_prefix_of_accepts member letter accepted
  by_cases implies : Text.lower (tagName (c :: rest)) ∈ implyingNames
  · exact mem_impliedEnds_iff_of_prefix rule member _ endTag rfl _ implies begins
  · rw [impliedEnds_of_notMem implies]
    refine ⟨fun inNone => absurd inNone List.not_mem_nil, ?_⟩
    rintro (inFull | isThead)
    · rcases mem_implyingNames_of_followTags rule member _ endTag rfl _ inFull with slash | implied
      · obtain ⟨first, later, same, alpha⟩ := (Token.isTagName_takeWhile letter rest).letter
        rw [tagName, same] at slash
        obtain rfl : first = '/' := Option.some.inj slash
        exact absurd alpha (by decide)
      · exact absurd implied implies
    · rw [isThead] at implies
      exact absurd (by decide) implies

/-- An item of a list ends in front of the next one, however its tag is written. -/
theorem mem_impliedEnds_item :
    "li".toList ∈ Element.impliedEnds (Text.lower (tagName "LI class=x>".toList)) := by
  have listed : Rule.before "li-end" "/li" [.starts ["<li", "</ul", "</ol", "</menu"]] ∈
      rules := by
    decide
  have accepted : ([Follow.starts ["<li", "</ul", "</ol", "</menu"]].any fun follow =>
      follow.accepts ('<' :: 'L' :: "I class=x>".toList)) = true := by
    decide
  exact (mem_impliedEnds_iff_of_accepts listed List.mem_cons_self (by decide) accepted).2
    (.inl (by decide))

/-- A rule takes a longer name for the one it asks for: the end of an item of a list is left out in
front of `link`, which implies no end. -/
theorem elide_before_longer_name :
    ∃ rule ∈ rules, "/li".toList ∈ rule.tags ∧ rule.followedBy ≠ [] ∧
      (rule.followedBy.any fun follow => follow.accepts "<link></ul>".toList) = true ∧
      Text.lower (tagName "link></ul>".toList) = "link".toList ∧
      "li".toList ∉ Element.impliedEnds "link".toList ∧
      elide false "<ul><li>a</li><link></ul>".toList = "<ul><li>a<link></ul>".toList := by
  refine ⟨Rule.before "li-end" "/li" [.starts ["<li", "</ul", "</ol", "</menu"]], by decide,
    List.mem_cons_self, by decide, by decide, by decide, by decide, ?_⟩
  decide +kernel

end HtmlMinifier.OptionalTag

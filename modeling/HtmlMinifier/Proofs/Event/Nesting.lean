/-
# What stands directly in what

Every stream describes a tree. In the tree of any tokens a void element has no content, and no
element stands directly in one whose end its start tag implies: that one is closed in front of it,
and so is whatever it leaves innermost, until an element is innermost that may hold the new one.
Elements further out do not matter: a list inside a list item may have items of its own.

One shape of streams carries both facts. Every open in it is judged by the elements that are open
there, and a void element has its close beside its open. What the builder adds for one token keeps
the shape of whatever comes behind, and so the stream of all tokens has it.
-/
import HtmlMinifier.Proofs.Event.Legible
import HtmlMinifier.Proofs.Event.Walk

namespace HtmlMinifier.Event

/-- A stream, read with these elements open, in which void elements are closed where they are
opened, and no start tag implies the end of the element that it stands in. -/
inductive Arranged : OpenElements → List Event → Prop
  | done (stack : OpenElements) : Arranged stack []
  | void {stack : OpenElements} {name : Text} (attributes : List (Text × Text))
      {later : List Event}
      (isVoid : Element.isVoid name = true) (fits : impliedlyClosed name stack = []) :
      Arranged stack later → Arranged stack (.elementOpen name attributes ::
        .elementClose name :: later)
  | opened {stack : OpenElements} {name : Text} (attributes : List (Text × Text))
      {later : List Event}
      (noVoid : Element.isVoid name = false) (fits : impliedlyClosed name stack = []) :
      Arranged (name :: stack) later → Arranged stack (.elementOpen name attributes :: later)
  | closed {stack : OpenElements} {name : Text} {later : List Event} :
      Arranged stack later → Arranged (name :: stack) (.elementClose name :: later)
  | characters {stack : OpenElements} {text : Text} {later : List Event} :
      Arranged stack later → Arranged stack (.characters text :: later)
  | cdata {stack : OpenElements} {text : Text} {later : List Event} :
      Arranged stack later → Arranged stack (.cdata text :: later)
  | comment {stack : OpenElements} {text : Text} {later : List Event} :
      Arranged stack later → Arranged stack (.comment text :: later)

/-! ## One token -/

section

variable {stack : OpenElements} {later : List Event}

theorem arranged_closeAll_append (names : OpenElements) (arranged : Arranged stack later) :
    Arranged (names ++ stack) (closeAll names ++ later) := by
  induction names with
  | nil => exact arranged
  | cons name names ih => exact .closed ih

theorem arranged_openTag_append (name : Text) (attributes : List (Text × Option Text))
    (selfClosing : Bool)
    (arranged : Arranged (openTag name attributes selfClosing stack).2 later) :
    Arranged stack ((openTag name attributes selfClosing stack).1 ++ later) := by
  have behindCloses : ∀ {events : List Event}, Arranged (afterImplied name stack) events →
      Arranged stack (closeAll (impliedlyClosed name stack) ++ events) := by
    intro events behind
    have closes := arranged_closeAll_append (impliedlyClosed name stack) behind
    rwa [impliedlyClosed_append_afterImplied] at closes
  -- Behind these closes the start tag implies no further end.
  have fits := impliedlyClosed_afterImplied name stack
  cases atOnce : closedAtOnce name selfClosing stack with
  | true =>
      rw [openTag_of_closedAtOnce atOnce] at arranged ⊢
      rw [List.append_assoc]
      apply behindCloses
      cases isVoid : Element.isVoid name with
      | true => exact .void _ isVoid fits arranged
      | false => exact .opened _ isVoid fits (.closed arranged)
  | false =>
      have noVoid : Element.isVoid name = false := by
        rw [closedAtOnce, Bool.or_eq_false_iff] at atOnce
        exact atOnce.1
      rw [openTag_of_stays atOnce] at arranged ⊢
      rw [List.append_assoc]
      exact behindCloses (.opened _ noVoid fits arranged)

theorem arranged_closeTag_append (name : Text)
    (arranged : Arranged (closeTag name stack).2 later) :
    Arranged stack ((closeTag name stack).1 ++ later) := by
  by_cases isOpen : stack.contains name = true
  · rw [closeTag, if_pos isOpen] at arranged ⊢
    have closes := arranged_closeAll_append (stack.takeWhile (· ≠ name) ++ [name]) arranged
    rwa [takeWhile_append_tail_dropWhile isOpen] at closes
  · rw [closeTag, if_neg isOpen] at arranged ⊢
    exact arranged

/-- The events of one token may stand in front of whatever may follow the token. -/
theorem arranged_feed_append (token : Token) (arranged : Arranged (feed stack token).2 later) :
    Arranged stack ((feed stack token).1 ++ later) := by
  cases token with
  | startTag name attributes selfClosing =>
      exact arranged_openTag_append name attributes selfClosing arranged
  | endTag name => exact arranged_closeTag_append name arranged
  | doctype body => exact arranged
  | comment body => exact .comment arranged
  | cdata body => exact .cdata arranged
  | text body =>
      rw [feed] at arranged ⊢
      split
      · exact arranged
      · exact .characters arranged

end

/-! ## All tokens -/

/-- The stream of any tokens, down to the closes of what they leave open. -/
theorem arranged_ofTokensWithin (stack : OpenElements) (tokens : List Token) :
    Arranged stack (ofTokensWithin stack tokens) := by
  induction tokens generalizing stack with
  | nil =>
      have closes := arranged_closeAll_append stack (.done [])
      rwa [List.append_nil, List.append_nil] at closes
  | cons token tokens ih => exact arranged_feed_append token (ih _)

/-- Where no end is implied, the innermost element is none of those that the start tag ends. -/
theorem notMem_impliedEnds {name parent : Text} {stack : OpenElements}
    (fits : impliedlyClosed name stack = []) (innermost : stack.head? = some parent) :
    parent ∉ Element.impliedEnds name := by
  obtain ⟨outer, rfl⟩ := List.head?_eq_some_iff.1 innermost
  intro implied
  rw [impliedlyClosed, List.takeWhile_cons_of_pos (List.contains_iff_mem.2 implied)] at fits
  exact absurd fits (List.cons_ne_nil _ _)

/-- What the shape of a stream says about each open in it: the walk comes there, the start tag
implies no end, and the close of a void element is next. -/
theorem Arranged.of_elementOpen {stack : OpenElements} {earlier later : List Event} {name : Text}
    {attributes : List (Text × Text)}
    (arranged : Arranged stack (earlier ++ .elementOpen name attributes :: later)) :
    (∃ inner, walk stack earlier = some inner ∧ impliedlyClosed name inner = []) ∧
      (Element.isVoid name = true → ∃ rest, later = .elementClose name :: rest) := by
  generalize whole : earlier ++ .elementOpen name attributes :: later = events at arranged
  induction arranged generalizing earlier with
  | done stack => exact absurd whole (by simp)
  | @void stack other given rest isVoid fits _ ih =>
      match earlier, whole with
      | [], same =>
          cases same
          exact ⟨⟨stack, rfl, fits⟩, fun _ => ⟨rest, rfl⟩⟩
      | [_], same => cases same
      | _ :: _ :: between, same =>
          obtain ⟨rfl, inside⟩ := List.cons.inj same
          obtain ⟨rfl, behind⟩ := List.cons.inj inside
          rw [walk_cons, enter, Option.bind_some, walk_cons, enter_elementClose, Option.bind_some]
          exact ih behind
  | @opened stack other given rest noVoid fits _ ih =>
      cases earlier with
      | nil =>
          cases whole
          refine ⟨⟨stack, rfl, fits⟩, fun isVoid => ?_⟩
          rw [noVoid] at isVoid
          cases isVoid
      | cons first between =>
          obtain ⟨rfl, behind⟩ := List.cons.inj whole
          rw [walk_cons, enter, Option.bind_some]
          exact ih behind
  | @closed stack other rest _ ih =>
      cases earlier with
      | nil => cases whole
      | cons first between =>
          obtain ⟨rfl, behind⟩ := List.cons.inj whole
          rw [walk_cons, enter_elementClose, Option.bind_some]
          exact ih behind
  | characters _ ih | cdata _ ih | comment _ ih =>
      cases earlier with
      | nil => cases whole
      | cons first between =>
          obtain ⟨rfl, behind⟩ := List.cons.inj whole
          have follows := ih behind
          exact follows

/-! ## The tree -/

/-- Elements that are never direct children, each with the parents that they never have. -/
def strangers : List (List Text × List Text) :=
  [(["li".toList], ["li".toList]),
    (["td".toList, "th".toList], ["td".toList, "th".toList]),
    (Element.paragraphClosers, ["p".toList])]

/-- The start tags of these children imply the ends of these parents. -/
theorem mem_impliedEnds_of_mem_strangers :
    ∀ pair ∈ strangers, ∀ name ∈ pair.1, ∀ parent ∈ pair.2, parent ∈ Element.impliedEnds name := by
  decide

/-- In the stream of any tokens the open of a void element has its own close right behind it, and
where an element is opened, the innermost open element is none whose end its start tag implies. So
no list item stands directly in a list item, no table cell directly in a table cell, and no element
that ends a paragraph directly in a paragraph. -/
theorem void_empty_and_parent_kept (tokens : List Token) :
    (∀ earlier name attributes later,
      ofTokens tokens = earlier ++ .elementOpen name attributes :: later →
        Element.isVoid name = true → ∃ rest, later = .elementClose name :: rest) ∧
    ∀ earlier name attributes later,
      ofTokens tokens = earlier ++ .elementOpen name attributes :: later →
        ∃ stack, walk [] earlier = some stack ∧ ∀ parent, stack.head? = some parent →
          parent ∉ Element.impliedEnds name ∧
            ∀ pair ∈ strangers, name ∈ pair.1 → parent ∉ pair.2 := by
  -- The start of the document is the first event, and the walk stands outside of all elements
  -- behind it.
  have opened : ∀ {earlier name attributes later},
      ofTokens tokens = earlier ++ .elementOpen name attributes :: later →
        (∃ inner, walk [] earlier = some inner ∧ impliedlyClosed name inner = []) ∧
          (Element.isVoid name = true → ∃ rest, later = .elementClose name :: rest) := by
    intro earlier name attributes later parts
    cases earlier with
    | nil => cases parts
    | cons first earlier =>
        obtain ⟨rfl, behind⟩ := List.cons.inj parts
        have arranged := arranged_ofTokensWithin [] tokens
        rw [behind] at arranged
        exact arranged.of_elementOpen
  refine ⟨fun _ _ _ _ parts => (opened parts).2, fun earlier name attributes later parts => ?_⟩
  obtain ⟨stack, walked, fits⟩ := (opened parts).1
  refine ⟨stack, walked, fun parent innermost => ?_⟩
  have kept := notMem_impliedEnds fits innermost
  exact ⟨kept, fun pair member child inside =>
    kept (mem_impliedEnds_of_mem_strangers pair member name child parent inside)⟩

end HtmlMinifier.Event

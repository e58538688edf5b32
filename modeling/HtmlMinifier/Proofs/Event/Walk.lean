/-
# The walk that a stream describes

An event stream is a walk through a tree: an open enters an element, a close leaves the innermost
one, and everything else happens where the walk stands. A walk cannot leave an element that it does
not stand in. The stream of any tokens is such a walk, from outside of every element back to the
outside, and what it meets on its way is the content of the tokens: no token is lost on the way and
nothing is met that no token stands for.
-/
import HtmlMinifier.Proofs.Event.Balanced

namespace HtmlMinifier.Event

/-! ## Following a stream -/

/-- The open elements behind one event. Only the innermost element can be closed. -/
def enter (stack : OpenElements) : Event → Option OpenElements
  | .elementOpen name _ => some (name :: stack)
  | .elementClose name => if stack.head? = some name then some stack.tail else none
  | _ => some stack

@[simp]
theorem enter_elementClose (name : Text) (outer : OpenElements) :
    enter (name :: outer) (.elementClose name) = some outer :=
  if_pos rfl

/-- The open elements behind a stream, if every close in it names the innermost open element. -/
def walk (stack : OpenElements) (events : List Event) : Option OpenElements :=
  events.foldlM enter stack

@[simp]
theorem walk_nil (stack : OpenElements) : walk stack [] = some stack := rfl

@[simp]
theorem walk_cons (stack : OpenElements) (event : Event) (later : List Event) :
    walk stack (event :: later) = (enter stack event).bind fun inner => walk inner later :=
  List.foldlM_cons

theorem walk_append (stack : OpenElements) (first second : List Event) :
    walk stack (first ++ second) = (walk stack first).bind fun inner => walk inner second :=
  List.foldlM_append

/-- A stream that can be followed closes the innermost open element wherever it closes one. -/
theorem walk_of_walk_close {stack last : OpenElements} {earlier later : List Event} {name : Text}
    (followed : walk stack (earlier ++ .elementClose name :: later) = some last) :
    ∃ outer, walk stack earlier = some (name :: outer) := by
  rw [walk_append] at followed
  obtain ⟨inner, before, behind⟩ := Option.bind_eq_some_iff.1 followed
  rw [walk_cons] at behind
  obtain ⟨_, closed, _⟩ := Option.bind_eq_some_iff.1 behind
  rw [enter] at closed
  split at closed
  · next innermost =>
      obtain ⟨outer, rfl⟩ := List.head?_eq_some_iff.1 innermost
      exact ⟨outer, before⟩
  · cases closed

/-- The closes of the innermost elements lead out of them. -/
theorem walk_closeAll (names outer : OpenElements) :
    walk (names ++ outer) (closeAll names) = some outer := by
  induction names with
  | nil => rfl
  | cons name names ih =>
      change walk (name :: (names ++ outer)) (.elementClose name :: closeAll names) = some outer
      rw [walk_cons, enter_elementClose]
      exact ih

theorem walk_openTag (name : Text) (attributes : List (Text × Option Text)) (selfClosing : Bool)
    (stack : OpenElements) :
    walk stack (openTag name attributes selfClosing stack).1 =
      some (openTag name attributes selfClosing stack).2 := by
  have implied : walk stack (closeAll (impliedlyClosed name stack)) =
      some (afterImplied name stack) := by
    have closes := walk_closeAll (impliedlyClosed name stack) (afterImplied name stack)
    rwa [impliedlyClosed_append_afterImplied] at closes
  cases atOnce : closedAtOnce name selfClosing stack with
  | true =>
      rw [openTag_of_closedAtOnce atOnce, walk_append, implied]
      show walk (afterImplied name stack) [opening name attributes, .elementClose name] = _
      rw [walk_cons, opening, enter, Option.bind_some, walk_cons, enter_elementClose]
      rfl
  | false =>
      rw [openTag_of_stays atOnce, walk_append, implied]
      rfl

theorem walk_closeTag (name : Text) (stack : OpenElements) :
    walk stack (closeTag name stack).1 = some (closeTag name stack).2 := by
  by_cases isOpen : stack.contains name = true
  · have closes := walk_closeAll (stack.takeWhile (· ≠ name) ++ [name])
      (stack.dropWhile (· ≠ name)).tail
    rw [takeWhile_append_tail_dropWhile isOpen] at closes
    rw [closeTag, if_pos isOpen]
    exact closes
  · rw [closeTag, if_neg isOpen]
    rfl

/-- The events of one token lead to the elements that are open after it. -/
theorem walk_feed (stack : OpenElements) (token : Token) :
    walk stack (feed stack token).1 = some (feed stack token).2 := by
  cases token with
  | startTag name attributes selfClosing => exact walk_openTag name attributes selfClosing stack
  | endTag name => exact walk_closeTag name stack
  | text body =>
      rw [feed]
      split <;> rfl
  | doctype body | comment body | cdata body => rfl

/-- Whatever is open, the events of any tokens lead out of everything. -/
theorem walk_ofTokensWithin (stack : OpenElements) (tokens : List Token) :
    walk stack (ofTokensWithin stack tokens) = some [] := by
  induction tokens generalizing stack with
  | nil =>
      have closes := walk_closeAll stack []
      rwa [List.append_nil] at closes
  | cons token tokens ih =>
      rw [ofTokensWithin, walk_append, walk_feed, Option.bind_some, ih]

/-- A balanced stream leads out of everything. -/
theorem Balanced.walk_eq {stack : OpenElements} {events : List Event}
    (balanced : Balanced stack events) :
    walk stack events = some [] := by
  induction balanced with
  | done => rfl
  | opened _ _ _ ih => exact ih
  | closed _ ih =>
      rw [walk_cons, enter_elementClose]
      exact ih
  | characters _ ih | cdata _ ih | comment _ ih => exact ih

/-! ## What the walk meets -/

/-- Whether an event is content. The start of the document and the closes only say where the walk
stands. -/
def isContent : Event → Bool
  | .documentStart | .elementClose _ => false
  | .elementOpen _ _ | .characters _ | .cdata _ | .comment _ => true

/-- The content of one token. A doctype, an end tag and an empty text have none, and an attribute
that was given no value has the empty one. -/
def content? : Token → Option Event
  | .startTag name attributes _ => some (opening name attributes)
  | .text body => if body = [] then none else some (.characters body)
  | .cdata body => some (.cdata body)
  | .comment body => some (.comment body)
  | .doctype _ | .endTag _ => none

theorem filter_isContent_closeAll (names : List Text) :
    (closeAll names).filter isContent = [] := by
  rw [List.filter_eq_nil_iff]
  intro event member
  obtain ⟨name, _, rfl⟩ := List.mem_map.1 member
  exact Bool.false_ne_true

/-- Wherever a token is read, its content is what its events meet. -/
theorem filter_isContent_feed (stack : OpenElements) (token : Token) :
    (feed stack token).1.filter isContent = (content? token).toList := by
  cases token with
  | startTag name attributes selfClosing =>
      rw [feed]
      cases atOnce : closedAtOnce name selfClosing stack with
      | true =>
          rw [openTag_of_closedAtOnce atOnce, List.filter_append, filter_isContent_closeAll]
          rfl
      | false =>
          rw [openTag_of_stays atOnce, List.filter_append, filter_isContent_closeAll]
          rfl
  | endTag name =>
      rw [feed, closeTag]
      split
      · exact filter_isContent_closeAll _
      · rfl
  | text body =>
      rw [feed, content?]
      split <;> rfl
  | doctype body | comment body | cdata body => rfl

theorem filter_isContent_ofTokensWithin (stack : OpenElements) (tokens : List Token) :
    (ofTokensWithin stack tokens).filter isContent = tokens.filterMap content? := by
  induction tokens generalizing stack with
  | nil => exact filter_isContent_closeAll stack
  | cons token tokens ih =>
      rw [ofTokensWithin, List.filter_append, filter_isContent_feed, ih, List.filterMap_cons]
      cases content? token <;> rfl

/-- The start of the document is none of the events that a token stands for. -/
theorem documentStart_not_mem_ofTokensWithin (stack : OpenElements) (tokens : List Token) :
    .documentStart ∉ ofTokensWithin stack tokens := by
  have notClose : ∀ names : List Text, .documentStart ∉ closeAll names := by
    intro names member
    obtain ⟨name, _, same⟩ := List.mem_map.1 member
    cases same
  induction tokens generalizing stack with
  | nil => exact notClose stack
  | cons token tokens ih =>
      rw [ofTokensWithin, List.mem_append]
      rintro (first | later)
      · cases token with
        | startTag name attributes selfClosing =>
            rw [feed] at first
            cases atOnce : closedAtOnce name selfClosing stack with
            | true =>
                rw [openTag_of_closedAtOnce atOnce] at first
                simp [notClose, opening] at first
            | false =>
                rw [openTag_of_stays atOnce] at first
                simp [notClose, opening] at first
        | endTag name =>
            rw [feed, closeTag] at first
            split at first
            · exact notClose _ first
            · cases first
        | text body =>
            rw [feed] at first
            split at first
            · cases first
            · cases List.mem_singleton.1 first
        | doctype body => cases first
        | comment body | cdata body => cases List.mem_singleton.1 first
      · exact ih _ later

/-- The stream of any tokens starts the document once and first, closes only the innermost open
element and leaves none open, and what else is in it is the content of the tokens, in their
order. -/
theorem balanced_and_lossless (tokens : List Token) :
    (∃ later, ofTokens tokens = .documentStart :: later ∧ .documentStart ∉ later) ∧
      (∀ earlier name later, ofTokens tokens = earlier ++ .elementClose name :: later →
        ∃ outer, walk [] earlier = some (name :: outer)) ∧
      walk [] (ofTokens tokens) = some [] ∧
      (ofTokens tokens).filter isContent = tokens.filterMap content? := by
  have followed : walk [] (ofTokens tokens) = some [] := walk_ofTokensWithin [] tokens
  refine ⟨⟨_, rfl, documentStart_not_mem_ofTokensWithin [] tokens⟩, ?_, followed,
    filter_isContent_ofTokensWithin [] tokens⟩
  intro earlier name later parts
  rw [parts] at followed
  exact walk_of_walk_close followed

end HtmlMinifier.Event

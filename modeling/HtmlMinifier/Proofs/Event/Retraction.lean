/-
# Streams that are read as themselves

A stream of events can be told again as tokens: an open as a start tag, a close as an end tag, and
every attribute with its value. Told in this way a stream leaves nothing to be implied, and the
builder makes the same stream of it again. So building is a retraction of all lists of tokens onto
those that say outright what they mean.

Two facts carry the proof. Behind the closes that a start tag implies, the same start tag implies
no more. And a void element is never open, so that the end tag told for it finds nothing to close.
-/
import HtmlMinifier.Proofs.Event.Heeded
import HtmlMinifier.Proofs.Event.Legible

namespace HtmlMinifier.Event

/-! ## Telling a stream -/

/-- The token that an event is told as. No tag closes itself. -/
def retold? : Event → Option Token
  | .documentStart => none
  | .elementOpen name attributes =>
      some (.startTag name (attributes.map fun attr => (attr.1, some attr.2)) false)
  | .elementClose name => some (.endTag name)
  | .characters text => some (.text text)
  | .cdata text => some (.cdata text)
  | .comment text => some (.comment text)

/-- A stream told as tokens. -/
def retell (events : List Event) : List Token := events.filterMap retold?

@[simp]
theorem retell_append (first second : List Event) :
    retell (first ++ second) = retell first ++ retell second :=
  List.filterMap_append

/-- Whether a token closes no element but the one it names. The end tag of a void element closes
none. -/
def closesOnlyItself (stack : OpenElements) : Token → Bool
  | .startTag name _ _ => impliedlyClosed name stack = []
  | .endTag name => stack.head? = some name || (Element.isVoid name && !stack.contains name)
  | _ => true

/-- Whether none of these tokens closes an element that it does not name, read with these elements
open. -/
def eachClosesOnlyItself (stack : OpenElements) : List Token → Bool
  | [] => true
  | token :: later =>
      closesOnlyItself stack token && eachClosesOnlyItself (feed stack token).2 later

theorem eachClosesOnlyItself_cons (stack : OpenElements) (token : Token) (later : List Token) :
    eachClosesOnlyItself stack (token :: later) =
      (closesOnlyItself stack token && eachClosesOnlyItself (feed stack token).2 later) := rfl

theorem eachClosesOnlyItself_append (stack : OpenElements) (first second : List Token) :
    eachClosesOnlyItself stack (first ++ second) =
      (eachClosesOnlyItself stack first && eachClosesOnlyItself (feedAll stack first).2
      second) := by
  induction first generalizing stack with
  | nil => rfl
  | cons token first ih =>
      rw [List.cons_append, eachClosesOnlyItself_cons, ih, eachClosesOnlyItself_cons, feedAll_cons,
        Bool.and_assoc]

/-! ## Events that are read as themselves -/

/-- Events that are given back when they are told with these elements open. Telling them leads to
the elements that are open after them, and nothing is implied on the way. -/
structure Retraces (stack : OpenElements) (events : List Event) (after : OpenElements) : Prop where
  same : feedAll stack (retell events) = (events, after)
  explicit : eachClosesOnlyItself stack (retell events) = true

theorem Retraces.nil (stack : OpenElements) : Retraces stack [] stack := ⟨rfl, rfl⟩

theorem Retraces.append {stack middle after : OpenElements} {first second : List Event}
    (before : Retraces stack first middle) (behind : Retraces middle second after) :
    Retraces stack (first ++ second) after where
  same := by rw [retell_append, feedAll_append, before.same, behind.same]
  explicit := by
    rw [retell_append, eachClosesOnlyItself_append, before.explicit, before.same, behind.explicit]
    rfl

theorem retraces_close (name : Text) (outer : OpenElements) :
    Retraces (name :: outer) [.elementClose name] outer := by
  refine ⟨?_, by simp [retell, retold?, eachClosesOnlyItself, closesOnlyItself]⟩
  show feedAll (name :: outer) [.endTag name] = _
  rw [feedAll_cons, feed, closeTag_innermost]
  rfl

theorem retraces_closeAll (names outer : OpenElements) :
    Retraces (names ++ outer) (closeAll names) outer := by
  induction names with
  | nil => exact .nil outer
  | cons name names ih => exact (retraces_close name (names ++ outer)).append ih

/-- Told again, an attribute has the value that it was read with. -/
theorem opening_retold (name : Text) (attributes : List (Text × Text)) :
    opening name (attributes.map fun attr => (attr.1, some attr.2)) =
    .elementOpen name attributes := by
  rw [opening, List.map_map]
  exact congrArg (Event.elementOpen name) (List.map_id _)

theorem afterImplied_of_none {name : Text} {stack : OpenElements}
    (none : impliedlyClosed name stack = []) : afterImplied name stack = stack := by
  have parts := impliedlyClosed_append_afterImplied name stack
  rwa [none, List.nil_append] at parts

section
variable {name : Text} {stack : OpenElements} (attributes : List (Text × Text))
  (explicit : impliedlyClosed name stack = [])

include explicit

/-- An element that stays open is opened again where nothing is implied. -/
theorem retraces_open (noVoid : Element.isVoid name = false) :
    Retraces stack [.elementOpen name attributes] (name :: stack) := by
  have stays : closedAtOnce name false stack = false := by
    rw [closedAtOnce, noVoid]
    rfl
  refine ⟨?_, by simp [retell, retold?, eachClosesOnlyItself, closesOnlyItself, explicit]⟩
  show feedAll stack [.startTag name (attributes.map fun attr => (attr.1, some attr.2)) false] = _
  rw [feedAll_cons, feed, openTag_of_stays stays, explicit, afterImplied_of_none explicit,
    opening_retold]
  rfl

/-- A void element is closed by its start tag, and its end tag is ignored. -/
theorem retraces_void (isVoid : Element.isVoid name = true) (notOpen : name ∉ stack) :
    Retraces stack [.elementOpen name attributes, .elementClose name] stack := by
  have atOnce : closedAtOnce name false stack = true := by
    rw [closedAtOnce, isVoid]
    rfl
  have opens : openTag name (attributes.map fun attr => (attr.1, some attr.2)) false stack =
      ([.elementOpen name attributes, .elementClose name], stack) := by
    rw [openTag_of_closedAtOnce atOnce, explicit, afterImplied_of_none explicit, opening_retold]
    rfl
  have ignored : closeTag name stack = ([], stack) := by
    rw [closeTag, if_neg (by simpa using notOpen)]
  constructor
  · show feedAll stack [.startTag name (attributes.map fun attr => (attr.1, some attr.2)) false,
      .endTag name] = _
    rw [feedAll_cons, feedAll_cons, feed, opens, feed, ignored]
    rfl
  · show eachClosesOnlyItself stack
      [.startTag name (attributes.map fun attr => (attr.1, some attr.2)) false,
        .endTag name] = true
    rw [eachClosesOnlyItself_cons, eachClosesOnlyItself_cons, feed, opens]
    simp [closesOnlyItself, eachClosesOnlyItself, explicit, isVoid, notOpen]

end

/-! ## Streams that are read as themselves -/

/-- No void element is open. -/
def NoneVoid (stack : OpenElements) : Prop := ∀ name ∈ stack, Element.isVoid name = false

theorem noneVoid_openTag (name : Text) (attributes : List (Text × Option Text))
    (selfClosing : Bool)
    {stack : OpenElements} (noneVoid : NoneVoid stack) :
    NoneVoid (openTag name attributes selfClosing stack).2 := by
  have outer : NoneVoid (afterImplied name stack) := fun other member =>
    noneVoid other ((List.dropWhile_suffix _).subset member)
  cases atOnce : closedAtOnce name selfClosing stack with
  | true =>
      rw [openTag_of_closedAtOnce atOnce]
      exact outer
  | false =>
      rw [openTag_of_stays atOnce]
      rw [closedAtOnce, Bool.or_eq_false_iff] at atOnce
      exact List.forall_mem_cons.2 ⟨atOnce.1, outer⟩

/-- No token leaves a void element open. -/
theorem noneVoid_feed {stack : OpenElements} (noneVoid : NoneVoid stack) (token : Token) :
    NoneVoid (feed stack token).2 := by
  cases token with
  | startTag name attributes selfClosing =>
      exact noneVoid_openTag name attributes selfClosing noneVoid
  | endTag name => exact stays_of_mem_closeTag name noneVoid
  | doctype body | comment body | cdata body | text body => exact noneVoid

theorem retraces_openTag (name : Text) (attributes : List (Text × Option Text))
    (selfClosing : Bool)
    {stack : OpenElements} (noneVoid : NoneVoid stack) :
    Retraces stack (openTag name attributes selfClosing stack).1
      (openTag name attributes selfClosing stack).2 := by
  have implied : Retraces stack (closeAll (impliedlyClosed name stack))
      (afterImplied name stack) := by
    have closes := retraces_closeAll (impliedlyClosed name stack) (afterImplied name stack)
    rwa [impliedlyClosed_append_afterImplied] at closes
  have explicit := impliedlyClosed_afterImplied name stack
  cases isVoid : Element.isVoid name with
  | true =>
      have atOnce : closedAtOnce name selfClosing stack = true := by
        rw [closedAtOnce, isVoid, Bool.true_or]
      have notOpen : name ∉ afterImplied name stack := by
        intro member
        have noVoid := noneVoid name ((List.dropWhile_suffix _).subset member)
        rw [isVoid] at noVoid
        cases noVoid
      rw [openTag_of_closedAtOnce atOnce]
      exact implied.append (retraces_void _ explicit isVoid notOpen)
  | false =>
      have opens := retraces_open (attributes.map fun given => (given.1, given.2.getD []))
        explicit isVoid
      cases atOnce : closedAtOnce name selfClosing stack with
      | true =>
          -- A foreign element that closes itself is told with an end tag of its own.
          rw [openTag_of_closedAtOnce atOnce]
          exact implied.append (opens.append (retraces_close name (afterImplied name stack)))
      | false =>
          rw [openTag_of_stays atOnce]
          exact implied.append opens

theorem retraces_closeTag (name : Text) (stack : OpenElements) :
    Retraces stack (closeTag name stack).1 (closeTag name stack).2 := by
  by_cases isOpen : stack.contains name = true
  · have closes := retraces_closeAll (stack.takeWhile (· ≠ name) ++ [name])
      (stack.dropWhile (· ≠ name)).tail
    rw [takeWhile_append_tail_dropWhile isOpen] at closes
    rw [closeTag, if_pos isOpen]
    exact closes
  · rw [closeTag, if_neg isOpen]
    exact .nil stack

/-- The events of one token are read as themselves where the token was read. -/
theorem retraces_feed {stack : OpenElements} (noneVoid : NoneVoid stack) (token : Token) :
    Retraces stack (feed stack token).1 (feed stack token).2 := by
  cases token with
  | startTag name attributes selfClosing =>
      exact retraces_openTag name attributes selfClosing noneVoid
  | endTag name => exact retraces_closeTag name stack
  | doctype body => exact .nil stack
  | comment body | cdata body => exact ⟨rfl, rfl⟩
  | text body =>
      rw [feed]
      by_cases none : body = []
      · rw [if_pos none]
        exact .nil stack
      · rw [if_neg none]
        refine ⟨?_, rfl⟩
        show feedAll stack [.text body] = _
        rw [feedAll_cons, feed, if_neg none]
        rfl

/-- The events of any tokens are read as themselves, down to the last close. -/
theorem retraces_ofTokensWithin {stack : OpenElements} (noneVoid : NoneVoid stack)
    (tokens : List Token) : Retraces stack (ofTokensWithin stack tokens) [] := by
  induction tokens generalizing stack with
  | nil =>
      have closes := retraces_closeAll stack []
      rwa [List.append_nil] at closes
  | cons token tokens ih =>
      exact (retraces_feed noneVoid token).append (ih (noneVoid_feed noneVoid token))

/-- The stream of any tokens, told as tokens, is read as that stream again. Every tag in it closes
only the element that it names, and none is left to be closed at the end. -/
theorem ofTokens_retell (tokens : List Token) :
    ofTokens (retell (ofTokens tokens)) = ofTokens tokens ∧
      eachClosesOnlyItself [] (retell (ofTokens tokens)) = true ∧
      (feedAll [] (retell (ofTokens tokens))).2 = [] := by
  have retraces : Retraces [] (ofTokensWithin [] tokens) [] :=
    retraces_ofTokensWithin (fun _ none => absurd none List.not_mem_nil) tokens
  -- The start of the document is told by no token.
  have told : retell (ofTokens tokens) = retell (ofTokensWithin [] tokens) := rfl
  rw [told, retraces.same]
  refine ⟨?_, retraces.explicit, rfl⟩
  rw [ofTokens, ofTokensWithin_eq_feedAll, retraces.same]
  exact congrArg (Event.documentStart :: ·) (List.append_nil _)

/-- The end of a list item is implied, a foreign element closes itself and a line break is void.
Told again, each of them has an end tag. -/
example :
    retell (ofTokens [.startTag "li".toList [] false, .startTag "br".toList [] false,
        .startTag "li".toList [] false, .startTag "svg".toList [("id".toList, none)] true]) =
      [.startTag "li".toList [] false, .startTag "br".toList [] false, .endTag "br".toList,
        .endTag "li".toList, .startTag "li".toList [] false,
        .startTag "svg".toList [("id".toList, some [])] false, .endTag "svg".toList,
        .endTag "li".toList] := by
  decide

end HtmlMinifier.Event

/-
# What the builder does with a tag

A start tag closes the innermost elements that it implies the end of, opens an element, and closes
it at once if it is void. An end tag closes everything inside the element that it names. In a
balanced stream every close names the innermost open element, and nothing is open at the end.
-/
import HtmlMinifier.Event.Build
import HtmlMinifier.Proofs.Token.Stream

namespace HtmlMinifier.Event

/-- A stream that may follow while these elements are open: every element has a name, every close
names the innermost open element, and nothing is open at the end. -/
inductive Balanced : OpenElements → List Event → Prop
  | done : Balanced [] []
  | opened {stack : OpenElements} {name : Text} (attributes : List (Text × Text))
      {later : List Event}
      (named : name ≠ []) :
      Balanced (name :: stack) later → Balanced stack (.elementOpen name attributes :: later)
  | closed {stack : OpenElements} {name : Text} {later : List Event} :
      Balanced stack later → Balanced (name :: stack) (.elementClose name :: later)
  | characters {stack : OpenElements} {text : Text} {later : List Event} :
      Balanced stack later → Balanced stack (.characters text :: later)
  | cdata {stack : OpenElements} {text : Text} {later : List Event} :
      Balanced stack later → Balanced stack (.cdata text :: later)
  | comment {stack : OpenElements} {text : Text} {later : List Event} :
      Balanced stack later → Balanced stack (.comment text :: later)

/-- Behind a balanced stream another one may follow that closes what is open around it. -/
theorem Balanced.append {stack outer : OpenElements} {first second : List Event}
    (inner : Balanced stack first) (around : Balanced outer second) :
    Balanced (stack ++ outer) (first ++ second) := by
  induction inner with
  | done => exact around
  | opened attributes named _ ih => exact .opened attributes named ih
  | closed _ ih => exact .closed ih
  | characters _ ih => exact .characters ih
  | cdata _ ih => exact .cdata ih
  | comment _ ih => exact .comment ih

@[simp]
theorem closeAll_append (inner outer : OpenElements) :
    closeAll (inner ++ outer) = closeAll inner ++ closeAll outer :=
  List.map_append

/-- What a start tag closes and what it leaves open make up the stack. -/
theorem impliedlyClosed_append_afterImplied (name : Text) (stack : OpenElements) :
    impliedlyClosed name stack ++ afterImplied name stack = stack :=
  List.takeWhile_append_dropWhile

/-- An open element stands between the elements inside it and those around it. -/
theorem takeWhile_append_tail_dropWhile {name : Text} {stack : OpenElements}
    (isOpen : stack.contains name = true) :
    stack.takeWhile (· ≠ name) ++ [name] ++ (stack.dropWhile (· ≠ name)).tail = stack := by
  induction stack with
  | nil => simp at isOpen
  | cons current stack ih =>
      by_cases same : current = name
      · simp [same]
      · have deeper : stack.contains name = true := by
          simpa [Ne.symm same] using isOpen
        simpa [same] using ih deeper

/-- The event that opens an element of a tag. -/
def opening (name : Text) (attributes : List (Text × Option Text)) : Event :=
  .elementOpen name (attributes.map fun given => (given.1, given.2.getD []))

/-- Whether an element is closed as soon as its tag has opened it. -/
def closedAtOnce (name : Text) (selfClosing : Bool) (stack : OpenElements) : Bool :=
  Element.isVoid name || (selfClosing && isForeign name (afterImplied name stack))

theorem openTag_of_closedAtOnce {name : Text} {attributes : List (Text × Option Text)}
    {selfClosing : Bool} {stack : OpenElements}
    (atOnce : closedAtOnce name selfClosing stack = true) :
    openTag name attributes selfClosing stack =
      (closeAll (impliedlyClosed name stack) ++ [opening name attributes, .elementClose name],
        afterImplied name stack) :=
  if_pos atOnce

theorem openTag_of_stays {name : Text} {attributes : List (Text × Option Text)}
    {selfClosing : Bool} {stack : OpenElements}
    (stays : closedAtOnce name selfClosing stack = false) :
    openTag name attributes selfClosing stack =
      (closeAll (impliedlyClosed name stack) ++ [opening name attributes],
        name :: afterImplied name stack) :=
  if_neg (by rw [← closedAtOnce, stays]; exact Bool.false_ne_true)

/-- Every element that is opened has a start tag. -/
theorem exists_startTag_of_mem {stack : OpenElements} {tokens : List Token} {name : Text}
    {attributes : List (Text × Text)}
    (member : .elementOpen name attributes ∈ ofTokensWithin stack tokens) :
    ∃ given selfClosing, .startTag name given selfClosing ∈ tokens ∧
      attributes = given.map fun attr => (attr.1, attr.2.getD []) := by
  have noOpening : ∀ names : OpenElements, .elementOpen name attributes ∉ closeAll names := by
    intro names inside
    obtain ⟨other, _, same⟩ := List.mem_map.1 inside
    cases same
  induction tokens generalizing stack with
  | nil => exact absurd member (noOpening stack)
  | cons token tokens ih =>
      rcases List.mem_append.1 member with first | later
      · cases token with
        | doctype body => cases first
        | endTag other =>
            rw [feed, closeTag] at first
            split at first
            · exact absurd first (noOpening _)
            · cases first
        | comment body | cdata body => cases List.mem_singleton.1 first
        | text body =>
            rw [feed] at first
            split at first
            · cases first
            · cases List.mem_singleton.1 first
        | startTag other given selfClosing =>
            have opened : .elementOpen name attributes ∈
                closeAll (impliedlyClosed other stack) ++ [opening other given,
                    .elementClose other] := by
              rw [feed] at first
              cases atOnce : closedAtOnce other selfClosing stack with
              | true =>
                  rw [openTag_of_closedAtOnce atOnce] at first
                  exact first
              | false =>
                  rw [openTag_of_stays atOnce] at first
                  rw [List.mem_append] at first ⊢
                  exact first.imp_right fun single => List.mem_cons.2
                    (.inl (List.mem_singleton.1 single))
            rcases List.mem_append.1 opened with closes | opens
            · exact absurd closes (noOpening _)
            · rcases List.mem_cons.1 opens with same | closes
              · cases same
                exact ⟨given, selfClosing, List.mem_cons_self, rfl⟩
              · cases List.mem_singleton.1 closes
      · obtain ⟨given, selfClosing, inside, same⟩ := ih later
        exact ⟨given, selfClosing, List.mem_cons_of_mem token inside, same⟩

/-- Every start tag opens its element. -/
theorem opening_mem_of_startTag_mem {name : Text} {attributes : List (Text × Option Text)}
    {selfClosing : Bool} {tokens : List Token}
    (member : .startTag name attributes selfClosing ∈ tokens) (stack : OpenElements) :
    opening name attributes ∈ ofTokensWithin stack tokens := by
  induction tokens generalizing stack with
  | nil => cases member
  | cons token tokens ih =>
      rw [ofTokensWithin, List.mem_append]
      rcases List.mem_cons.1 member with rfl | later
      · left
        rw [feed]
        cases atOnce : closedAtOnce name selfClosing stack with
        | true =>
            rw [openTag_of_closedAtOnce atOnce]
            exact List.mem_append_right _ List.mem_cons_self
        | false =>
            rw [openTag_of_stays atOnce]
            exact List.mem_append_right _ List.mem_cons_self
      · exact .inr (ih later _)

/-- Every element that is opened has a name, and so have its attributes. -/
theorem named_of_mem_parse {input name : Text} {attributes : List (Text × Text)}
    (member : .elementOpen name attributes ∈ parse input) :
    Token.IsTagName name ∧ ∀ attr ∈ attributes, Token.IsAttributeName attr.1 := by
  rcases List.mem_cons.1 member with same | later
  · cases same
  · obtain ⟨given, selfClosing, inside, rfl⟩ := exists_startTag_of_mem later
    obtain ⟨named, attributeNames⟩ := Token.named_of_mem (Token.stream_tokenize input) inside
    refine ⟨named, fun attr read => ?_⟩
    obtain ⟨origin, original, rfl⟩ := List.mem_map.1 read
    exact attributeNames origin original

end HtmlMinifier.Event

/-
# What a builder does between the tags of an element

A builder reads on the stack of open elements, and an end tag may reach far down it. Between the
tags of an element that keeps its text this should not happen: as long as every end tag in there
names an element that was opened in there, what lies below is a frame that is neither looked at nor
changed. Nothing implies the end of such an element, and nothing else can take it off the stack.

Whether a tag closes itself is the one other thing that depends on what lies below, since it may do
so in foreign content.
-/
import HtmlMinifier.Proofs.Event.Preserved

namespace HtmlMinifier.Event

/-! ## Reading on -/

/-- The events of tokens that are read with these elements open, and the elements that are open
after them. -/
def feedAll (stack : OpenElements) : List Token → List Event × OpenElements
  | [] => ([], stack)
  | token :: later =>
      ((feed stack token).1 ++ (feedAll (feed stack token).2 later).1,
        (feedAll (feed stack token).2 later).2)

@[simp]
theorem feedAll_nil (stack : OpenElements) : feedAll stack [] = ([], stack) := rfl

theorem feedAll_cons (stack : OpenElements) (token : Token) (later : List Token) :
    feedAll stack (token :: later) =
      ((feed stack token).1 ++ (feedAll (feed stack token).2 later).1,
        (feedAll (feed stack token).2 later).2) := rfl

theorem feedAll_append (stack : OpenElements) (first second : List Token) :
    feedAll stack (first ++ second) =
      ((feedAll stack first).1 ++ (feedAll (feedAll stack first).2 second).1,
        (feedAll (feedAll stack first).2 second).2) := by
  induction first generalizing stack with
  | nil => rfl
  | cons token first ih => rw [List.cons_append, feedAll_cons, ih, feedAll_cons, List.append_assoc]

theorem ofTokensWithin_append (stack : OpenElements) (first second : List Token) :
    ofTokensWithin stack (first ++ second) =
      (feedAll stack first).1 ++ ofTokensWithin (feedAll stack first).2 second := by
  induction first generalizing stack with
  | nil => rfl
  | cons token first ih =>
      rw [List.cons_append, ofTokensWithin, ih, feedAll_cons, List.append_assoc]

/-- At the end of the tokens everything is closed that is open. -/
theorem ofTokensWithin_eq_feedAll (stack : OpenElements) (tokens : List Token) :
    ofTokensWithin stack tokens = (feedAll stack tokens).1 ++
    closeAll (feedAll stack tokens).2 := by
  have parts := ofTokensWithin_append stack tokens []
  rwa [List.append_nil] at parts

/-- Whether a token is no end tag that is ignored. -/
def heeds (stack : OpenElements) : Token → Bool
  | .endTag name => stack.contains name
  | _ => true

/-- Whether no end tag among tokens is ignored when they are read with these elements open. -/
def heedsAll (stack : OpenElements) : List Token → Bool
  | [] => true
  | token :: later => heeds stack token && heedsAll (feed stack token).2 later

theorem heedsAll_cons (stack : OpenElements) (token : Token) (later : List Token) :
    heedsAll stack (token :: later) = (heeds stack token && heedsAll (feed stack token).2 later) :=
  rfl

theorem heedsAll_append (stack : OpenElements) (first second : List Token) :
    heedsAll stack (first ++ second) =
      (heedsAll stack first && heedsAll (feedAll stack first).2 second) := by
  induction first generalizing stack with
  | nil => rfl
  | cons token first ih =>
      rw [List.cons_append, heedsAll_cons, ih, heedsAll_cons, feedAll_cons, Bool.and_assoc]

/-! ## Characters by themselves -/

theorem ofTokensWithin_charTokens_append (stack : OpenElements) (text : Text)
    (later : List Token) :
    ofTokensWithin stack (charTokens text ++ later) =
      text.map (fun c => .characters [c]) ++ ofTokensWithin stack later := by
  induction text with
  | nil => rfl
  | cons c text ih => exact congrArg (_ :: ·) ih

theorem heedsAll_charTokens_append (stack : OpenElements) (text : Text) (later : List Token) :
    heedsAll stack (charTokens text ++ later) = heedsAll stack later := by
  induction text with
  | nil => rfl
  | cons c text ih => exact ih

theorem flatMap_eventChars_closeAll (names : List Text) :
    (closeAll names).flatMap eventChars = closeAll names := by
  induction names with
  | nil => rfl
  | cons name names ih => exact congrArg (_ :: ·) ih

/-- Only text is made of characters. -/
theorem flatMap_eventChars_feed (stack : OpenElements) {token : Token}
    (noText : ∀ body, token ≠ .text body) :
    (feed stack token).1.flatMap eventChars = (feed stack token).1 := by
  cases token with
  | startTag name attributes selfClosing =>
      rw [feed]
      cases atOnce : closedAtOnce name selfClosing stack with
      | true =>
          rw [openTag_of_closedAtOnce atOnce, List.flatMap_append, flatMap_eventChars_closeAll]
          rfl
      | false =>
          rw [openTag_of_stays atOnce, List.flatMap_append, flatMap_eventChars_closeAll]
          rfl
  | endTag name =>
      rw [feed, closeTag]
      split
      · exact flatMap_eventChars_closeAll _
      · rfl
  | doctype body | comment body | cdata body => rfl
  | text body => exact absurd rfl (noText body)

/-- Text that is read character by character gives events of one character each. -/
theorem ofTokensWithin_flatMap_chars (stack : OpenElements) (tokens : List Token) :
    ofTokensWithin stack (tokens.flatMap tokenChars) = (ofTokensWithin stack tokens).flatMap
    eventChars := by
  induction tokens generalizing stack with
  | nil => exact (flatMap_eventChars_closeAll stack).symm
  | cons token tokens ih =>
      rw [List.flatMap_cons, ofTokensWithin, List.flatMap_append]
      cases token with
      | text body =>
          rw [tokenChars, ofTokensWithin_charTokens_append, ih, feed]
          split
          · next none => rw [none]; rfl
          · rw [List.flatMap_singleton, eventChars]
      | doctype body | startTag name attributes selfClosing | endTag name | comment body
      | cdata body =>
          rw [flatMap_eventChars_feed stack (by simp), ← ih]
          rfl

theorem heedsAll_flatMap_chars (stack : OpenElements) (tokens : List Token) :
    heedsAll stack (tokens.flatMap tokenChars) = heedsAll stack tokens := by
  induction tokens generalizing stack with
  | nil => rfl
  | cons token tokens ih =>
      rw [List.flatMap_cons]
      cases token with
      | text body =>
          rw [tokenChars, heedsAll_charTokens_append, ih]
          rfl
      | doctype body | startTag name attributes selfClosing | endTag name | comment body
      | cdata body =>
          exact congrArg (_ && ·) (ih _)

/-! ## Elements that keep their text -/

/-- Nothing implies the end of an element that keeps its text. -/
theorem not_implied {name : Text} (keeps : preserves name = true) (other : Text) :
    (Element.impliedEnds other).contains name = false := by
  have table : ∀ entry ∈ Element.impliedEndTable, ∀ name ∈ preservingNames,
      entry.2.contains name = false := by decide
  rw [Element.impliedEnds]
  split
  · next entry found =>
      exact table entry (List.mem_of_find?_eq_some found) name (List.contains_iff_mem.1 keeps)
  · rfl

theorem isVoid_of_preserves {name : Text} (keeps : preserves name = true) :
    Element.isVoid name = false := by
  have table : ∀ name ∈ preservingNames, Element.isVoid name = false := by decide
  exact table name (List.contains_iff_mem.1 keeps)

theorem preserves_of_isVoid {name : Text} (isVoid : Element.isVoid name = true) :
    preserves name = false := by
  rw [Bool.eq_false_iff]
  intro keeps
  rw [isVoid_of_preserves keeps] at isVoid
  cases isVoid

/-- No element is open that keeps its text. -/
def IsClear (stack : OpenElements) : Prop := ∀ name ∈ stack, preserves name = false

/-- A token without the tag of an element that keeps its text. -/
def IsOrdinary : Token → Prop
  | .startTag name _ _ => preserves name = false
  | .endTag name => preserves name = false
  | _ => True

theorem isOrdinary_of_mem_charTokens {text : Text} :
    ∀ token ∈ charTokens text, IsOrdinary token := by
  intro token member
  obtain ⟨c, _, rfl⟩ := List.mem_map.1 member
  trivial

/-- What is open after a token was open before it, or the token opens it. -/
theorem mem_of_mem_feed {stack : OpenElements} {token : Token} {name : Text}
    (member : name ∈ (feed stack token).2) :
    name ∈ stack ∨ ∃ attributes selfClosing, token = .startTag name attributes selfClosing := by
  cases token with
  | startTag other attributes selfClosing =>
      rw [feed] at member
      cases atOnce : closedAtOnce other selfClosing stack with
      | true =>
          rw [openTag_of_closedAtOnce atOnce] at member
          exact .inl ((List.dropWhile_suffix _).subset member)
      | false =>
          rw [openTag_of_stays atOnce] at member
          rcases List.mem_cons.1 member with rfl | outer
          · exact .inr ⟨attributes, selfClosing, rfl⟩
          · exact .inl ((List.dropWhile_suffix _).subset outer)
  | endTag other =>
      rw [feed, closeTag] at member
      split at member
      · exact .inl ((List.dropWhile_suffix _).subset ((List.tail_suffix _).subset member))
      · exact .inl member
  | doctype body | comment body | cdata body | text body => exact .inl member

theorem IsClear.feed {stack : OpenElements} (clear : IsClear stack) {token : Token}
    (ordinary : IsOrdinary token) : IsClear (feed stack token).2 := by
  intro name member
  rcases mem_of_mem_feed member with outer | ⟨attributes, selfClosing, rfl⟩
  · exact clear name outer
  · exact ordinary

theorem IsClear.feedAll {stack : OpenElements} (clear : IsClear stack) {tokens : List Token}
    (ordinary : ∀ token ∈ tokens, IsOrdinary token) : IsClear (feedAll stack tokens).2 := by
  induction tokens generalizing stack with
  | nil => exact clear
  | cons token tokens ih =>
      exact ih (clear.feed (ordinary token List.mem_cons_self)) fun other member =>
        ordinary other (List.mem_cons_of_mem token member)

/-- An ordinary token opens no element that keeps its text. -/
theorem preservedElements_feed_append (stack : OpenElements) {token : Token}
    (ordinary : IsOrdinary token) (later : List Event) :
    preservedElements ((feed stack token).1 ++ later) = preservedElements later := by
  cases token with
  | startTag name attributes selfClosing =>
      have skipped : ∀ further, preservedElements (opening name attributes :: further) =
          preservedElements further := by
        intro further
        rw [opening, preservedElements, show preserves name = false from ordinary,
          if_neg Bool.false_ne_true]
      rw [feed]
      cases atOnce : closedAtOnce name selfClosing stack with
      | true =>
          rw [openTag_of_closedAtOnce atOnce, List.append_assoc, preservedElements_closeAll_append]
          exact skipped _
      | false =>
          rw [openTag_of_stays atOnce, List.append_assoc, preservedElements_closeAll_append]
          exact skipped _
  | endTag name =>
      rw [feed, closeTag]
      split
      · exact preservedElements_closeAll_append _ later
      · rfl
  | text body =>
      rw [feed]
      split <;> rfl
  | doctype body | comment body | cdata body => rfl

theorem preservedElements_feedAll_append (stack : OpenElements) {tokens : List Token}
    (ordinary : ∀ token ∈ tokens, IsOrdinary token) (later : List Event) :
    preservedElements ((feedAll stack tokens).1 ++ later) = preservedElements later := by
  induction tokens generalizing stack with
  | nil => rfl
  | cons token tokens ih =>
      rw [feedAll_cons, List.append_assoc,
        preservedElements_feed_append stack (ordinary token List.mem_cons_self),
        ih _ fun other member => ordinary other (List.mem_cons_of_mem token member)]

/-! ## Tags that close themselves -/

/-- Every tag that closes itself is one of a void element. -/
def ClosesOnlyVoid (tokens : List Token) : Prop :=
  ∀ name attributes, .startTag name attributes true ∈ tokens → Element.isVoid name = true

/-- Nothing is foreign content when the tokens are read with these elements open. -/
structure IsHomely (stack : OpenElements) (tokens : List Token) : Prop where
  outside : ∀ name ∈ stack, Element.isForeignRoot name = false
  inside : ∀ name attributes selfClosing, .startTag name attributes selfClosing ∈ tokens →
    Element.isForeignRoot name = false

theorem IsHomely.mono {stack fewer : OpenElements} {tokens some : List Token}
    (homely : IsHomely stack tokens)
    (within : ∀ name ∈ fewer, name ∈ stack) (among : ∀ token ∈ some, token ∈ tokens) :
    IsHomely fewer some :=
  ⟨fun name member => homely.outside name (within name member),
    fun name attributes selfClosing member => homely.inside name attributes selfClosing
      (among _ member)⟩

theorem IsHomely.feed {stack : OpenElements} {token : Token} {later : List Token}
    (homely : IsHomely stack (token :: later)) : IsHomely (feed stack token).2 later := by
  constructor
  · intro name member
    rcases mem_of_mem_feed member with outer | ⟨attributes, selfClosing, rfl⟩
    · exact homely.outside name outer
    · exact homely.inside name attributes selfClosing List.mem_cons_self
  · exact fun name attributes selfClosing member =>
      homely.inside name attributes selfClosing (List.mem_cons_of_mem token member)

theorem IsHomely.feedAll {stack : OpenElements} {first second : List Token}
    (homely : IsHomely stack (first ++ second)) : IsHomely (feedAll stack first).2 second := by
  induction first generalizing stack with
  | nil => exact homely
  | cons token first ih => exact ih homely.feed

/-- No tag closes itself that is read with these elements open, apart from those of void elements:
none is written that way, or there is no foreign content. -/
def OpensPlainly (stack : OpenElements) (tokens : List Token) : Prop :=
  ClosesOnlyVoid tokens ∨ IsHomely stack tokens

theorem OpensPlainly.closedAtOnce {stack : OpenElements} {name : Text}
    {attributes : List (Text × Option Text)} {selfClosing : Bool} {later : List Token}
    (plainly : OpensPlainly stack (.startTag name attributes selfClosing :: later)) :
    closedAtOnce name selfClosing stack = Element.isVoid name := by
  rw [Event.closedAtOnce]
  rcases plainly with void | homely
  · cases selfClosing with
    | false => rw [Bool.false_and, Bool.or_false]
    | true => rw [void name attributes List.mem_cons_self, Bool.true_or]
  · have noRoot : isForeign name (afterImplied name stack) = false := by
      rw [isForeign, homely.inside name attributes selfClosing List.mem_cons_self, Bool.false_or,
        List.any_eq_false]
      intro outer member
      rw [homely.outside outer ((List.dropWhile_suffix _).subset member)]
      exact Bool.false_ne_true
    rw [noRoot, Bool.and_false, Bool.or_false]

/-- Fewer elements may be open, and fewer tokens be read. -/
theorem OpensPlainly.mono {stack fewer : OpenElements} {tokens some : List Token}
    (plainly : OpensPlainly stack tokens) (within : ∀ name ∈ fewer, name ∈ stack)
    (among : ∀ token ∈ some, token ∈ tokens) : OpensPlainly fewer some :=
  plainly.imp (fun void name attributes member => void name attributes (among _ member))
      fun homely =>
    homely.mono within among

/-- What lies below an element does not matter to what is open up to it. -/
theorem OpensPlainly.above {inner outer : OpenElements} {name : Text} {tokens : List Token}
    (plainly : OpensPlainly (inner ++ name :: outer) tokens) :
    OpensPlainly (inner ++ [name]) tokens := by
  apply plainly.mono _ fun _ => id
  intro other member
  rcases List.mem_append.1 member with above | last
  · exact List.mem_append_left _ above
  · rw [List.mem_singleton.1 last]
    exact List.mem_append_right _ List.mem_cons_self

theorem OpensPlainly.feed {stack : OpenElements} {token : Token} {later : List Token}
    (plainly : OpensPlainly stack (token :: later)) : OpensPlainly (feed stack token).2 later :=
  plainly.imp (fun void name attributes member => void name attributes
    (List.mem_cons_of_mem token member))
    IsHomely.feed

theorem OpensPlainly.feedAll {stack : OpenElements} {first second : List Token}
    (plainly : OpensPlainly stack (first ++ second)) :
    OpensPlainly (feedAll stack first).2 second := by
  induction first generalizing stack with
  | nil => exact plainly
  | cons token first ih => exact ih plainly.feed

/-! ## What lies below -/

section
variable {name : Text} (keeps : preserves name = true)
include keeps

/-- What a start tag closes lies above an element that keeps its text. -/
theorem impliedlyClosed_frame (other : Text) (inner outer : OpenElements) :
    impliedlyClosed other (inner ++ name :: outer) = impliedlyClosed other inner ∧
      afterImplied other (inner ++ name :: outer) = afterImplied other inner ++ name :: outer := by
  have stops : ¬ (Element.impliedEnds other).contains name = true := by
    rw [not_implied keeps other]
    exact Bool.false_ne_true
  rw [impliedlyClosed, impliedlyClosed, afterImplied, afterImplied]
  induction inner with
  | nil =>
      rw [List.nil_append, List.takeWhile_cons_of_neg stops, List.dropWhile_cons_of_neg stops]
      exact ⟨rfl, rfl⟩
  | cons current inner ih =>
      by_cases implied : (Element.impliedEnds other).contains current = true
      · rw [List.cons_append, List.takeWhile_cons_of_pos implied,
          List.takeWhile_cons_of_pos implied,
          List.dropWhile_cons_of_pos implied, List.dropWhile_cons_of_pos implied, ih.1, ih.2]
        exact ⟨rfl, rfl⟩
      · rw [List.cons_append, List.takeWhile_cons_of_neg implied,
          List.takeWhile_cons_of_neg implied,
          List.dropWhile_cons_of_neg implied, List.dropWhile_cons_of_neg implied]
        exact ⟨rfl, rfl⟩

omit keeps in
/-- What an end tag closes lies above what is below its element. -/
theorem closeTag_frame {other : Text} {inner : OpenElements} (isOpen : inner.contains other = true)
    (base : OpenElements) :
    closeTag other (inner ++ base) =
    ((closeTag other inner).1, (closeTag other inner).2 ++ base) := by
  have within : (inner ++ base).contains other = true := by
    rw [List.contains_iff_mem] at isOpen ⊢
    exact List.mem_append_left base isOpen
  have split : ∀ inner : OpenElements, other ∈ inner →
      (inner ++ base).takeWhile (· ≠ other) = inner.takeWhile (· ≠ other) ∧
        ((inner ++ base).dropWhile (· ≠ other)).tail = (inner.dropWhile (· ≠ other)).tail ++
            base := by
    intro inner member
    induction inner with
    | nil => cases member
    | cons current inner ih =>
        by_cases same : current = other
        · simp [same]
        · have further := ih ((List.mem_cons.1 member).resolve_left (Ne.symm same))
          simpa [same] using further
  obtain ⟨taken, left⟩ := split inner (List.contains_iff_mem.1 isOpen)
  rw [closeTag, if_pos within, closeTag, if_pos isOpen, taken, left]

/-- An ordinary token that is heeded above an element that keeps its text does the same whatever
lies below that element. -/
theorem feed_frame {token : Token} (ordinary : IsOrdinary token) {inner : OpenElements}
    (heeded : heeds (inner ++ [name]) token = true) {outer : OpenElements} {later : List Token}
    (plainly : OpensPlainly (inner ++ name :: outer) (token :: later)) :
    feed (inner ++ name :: outer) token =
    ((feed inner token).1, (feed inner token).2 ++ name :: outer) := by
  cases token with
  | startTag other attributes selfClosing =>
      have above : OpensPlainly inner (.startTag other attributes selfClosing :: later) :=
        plainly.mono (fun _ => List.mem_append_left _) fun _ => id
      obtain ⟨implied, left⟩ := impliedlyClosed_frame keeps other inner outer
      have whole := plainly.closedAtOnce
      have alone := above.closedAtOnce
      rw [feed, feed]
      cases isVoid : Element.isVoid other with
      | true =>
          rw [openTag_of_closedAtOnce (whole.trans isVoid),
            openTag_of_closedAtOnce (alone.trans isVoid),
            implied, left]
      | false =>
          rw [openTag_of_stays (whole.trans isVoid), openTag_of_stays (alone.trans isVoid),
            implied, left]
          rfl
  | endTag other =>
      have differs : other ≠ name := by
        rintro rfl
        rw [show preserves other = false from ordinary] at keeps
        cases keeps
      have isOpen : inner.contains other = true := by
        rw [heeds, List.contains_iff_mem, List.mem_append, List.mem_singleton] at heeded
        exact List.contains_iff_mem.2 (heeded.resolve_right differs)
      exact closeTag_frame isOpen (name :: outer)
  | doctype body | comment body | cdata body | text body => rfl

/-- Ordinary tokens that are heeded above an element that keeps its text are read alike whatever
lies below that element. -/
theorem feedAll_frame {tokens : List Token} (ordinary : ∀ token ∈ tokens, IsOrdinary token)
    {inner : OpenElements} (heeded : heedsAll (inner ++ [name]) tokens = true)
    {outer : OpenElements}
    (plainly : OpensPlainly (inner ++ name :: outer) tokens) :
    feedAll (inner ++ name :: outer) tokens =
      ((feedAll inner tokens).1, (feedAll inner tokens).2 ++ name :: outer) := by
  induction tokens generalizing inner with
  | nil => rfl
  | cons token tokens ih =>
      have first := ordinary token List.mem_cons_self
      rw [heedsAll_cons, Bool.and_eq_true] at heeded
      have below := feed_frame keeps first heeded.1 plainly
      have alone : feed (inner ++ [name]) token = ((feed inner token).1, (feed inner token).2 ++
          [name]) :=
        feed_frame keeps first heeded.1 plainly.above
      have further := heeded.2
      rw [alone] at further
      have rest := plainly.feed
      rw [below] at rest
      rw [feedAll_cons, below,
        ih (fun other member => ordinary other (List.mem_cons_of_mem token member))
        further rest, feedAll_cons]

end

end HtmlMinifier.Event

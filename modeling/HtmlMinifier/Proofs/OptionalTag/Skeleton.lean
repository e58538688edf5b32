/-
# A document without its skeleton

The first rules take out the tags of `html`, `head` and `body`. A reader that does not meet them
goes without these elements, and sees the same of all others, as long as such a tag only stands
where no other element is open.
-/
import HtmlMinifier.Proofs.Event.Omission
import HtmlMinifier.Proofs.Event.Reading
import HtmlMinifier.Proofs.OptionalTag.Mark

namespace HtmlMinifier.OptionalTag

open Event (OpenElements Explicit IsExplicitAt feed closeAll closedAtOnce impliedlyClosed
  afterImplied_of_stands feed_of_stands isForeign ofTokensWithin strokes isImplicit opening)

/-! ## Tokens of the skeleton -/

/-- Whether an element belongs to the skeleton. -/
def isFrame (name : Text) : Bool := frameNames.contains name

/-- Whether a token is a tag of the skeleton. -/
def isFrameTag : Token → Bool
  | .startTag name _ _ => isFrame name
  | .endTag name => isFrame name
  | _ => false

/-- Whether a token is a tag that the rules for the skeleton take out: one without attributes. -/
def isBareFrameTag : Token → Bool
  | .startTag name attributes _ => isFrame name && attributes.isEmpty
  | .endTag name => isFrame name
  | _ => false

/-- Tokens without the tags that the rules for the skeleton take out. -/
def unframed (tokens : List Token) : List Token := tokens.filter fun token => !isBareFrameTag token

/-- Tokens whose skeleton is one: a tag of the skeleton stands where only the skeleton is open. -/
def HasSkeleton : OpenElements → List Token → Prop
  | _, [] => True
  | stack, token :: later =>
      (isFrameTag token = true → ∀ name ∈ stack, isFrame name = true) ∧
        HasSkeleton (feed stack token).2 later

/-- What every element of the skeleton is: hidden, no void one, no root of foreign content, and
neither implying an end nor having its end implied. -/
theorem frame_facts {name : Text} (frame : isFrame name = true) :
    isImplicit name = true ∧ Element.isVoid name = false ∧ Element.isForeignRoot name = false ∧
      Element.impliedEnds name = [] := by
  have table : ∀ name ∈ frameNames, isImplicit name = true ∧ Element.isVoid name = false ∧
      Element.isForeignRoot name = false ∧ Element.impliedEnds name = [] := by
    decide
  exact table name (List.contains_iff_mem.1 frame)

/-- No start tag implies the end of an element of the skeleton. -/
theorem frame_notMem_impliedEnds {name : Text} (frame : isFrame name = true) (other : Text) :
    name ∉ Element.impliedEnds other := by
  have table : ∀ entry ∈ Element.impliedEndTable, ∀ name ∈ entry.2, isFrame name = false := by
    decide
  intro inside
  rw [Element.impliedEnds] at inside
  split at inside
  · next entry found =>
      rw [table entry (List.mem_of_find?_eq_some found) name inside] at frame
      cases frame
  · cases inside

/-! ## Reading without the skeleton -/

section
variable {inner outer left : OpenElements}

/-- The skeleton does not matter for what a start tag implies. -/
theorem impliedlyClosed_over {name : Text} (leftFrame : ∀ other ∈ left, isFrame other = true)
    (stands : impliedlyClosed name (inner ++ outer) = []) :
    impliedlyClosed name (inner ++ left) = [] := by
  cases inner with
  | cons first inner =>
      rw [impliedlyClosed, List.cons_append, List.takeWhile_cons] at stands ⊢
      split at stands
      · cases stands
      · next other => rw [if_neg other]
  | nil =>
      cases left with
      | nil => rfl
      | cons first left =>
          have missing := frame_notMem_impliedEnds (leftFrame first List.mem_cons_self) name
          rw [List.nil_append, impliedlyClosed, List.takeWhile_cons, if_neg]
          rwa [List.contains_iff_mem]

/-- The skeleton does not matter for whether content is foreign. -/
theorem any_isForeignRoot_over (outerFrame : ∀ other ∈ outer, isFrame other = true) :
    (inner ++ outer).any Element.isForeignRoot = inner.any Element.isForeignRoot := by
  have none : outer.any Element.isForeignRoot = false := by
    rw [List.any_eq_false]
    intro other member
    rw [(frame_facts (outerFrame other member)).2.2.1]
    exact Bool.false_ne_true
  rw [List.any_append, none, Bool.or_false]

/-- The closes of the skeleton are not seen. -/
theorem strokes_closeAll_over (outerFrame : ∀ other ∈ outer, isFrame other = true) :
    (closeAll (inner ++ outer)).flatMap (strokes isImplicit) =
      (closeAll inner).flatMap (strokes isImplicit) := by
  have none : (closeAll outer).flatMap (strokes isImplicit) = [] := by
    rw [List.flatMap_eq_nil_iff]
    intro event member
    obtain ⟨name, inside, rfl⟩ := List.mem_map.1 member
    rw [strokes, if_pos (frame_facts (outerFrame name inside)).1]
  rw [Event.closeAll_append, List.flatMap_append, none, List.append_nil]

/-- A tag outside the skeleton is read alike whatever skeleton is open. -/
theorem exists_feed_over (homely : ∀ name ∈ inner, isFrame name = false)
    (outerFrame : ∀ other ∈ outer, isFrame other = true)
    (leftFrame : ∀ other ∈ left, isFrame other = true) {token : Token}
    (noFrame : isFrameTag token = false) (explicit : IsExplicitAt (inner ++ outer) token) :
    ∃ events inner', feed (inner ++ outer) token = (events, inner' ++ outer) ∧
      feed (inner ++ left) token = (events, inner' ++ left) ∧
      IsExplicitAt (inner ++ left) token ∧ ∀ name ∈ inner', isFrame name = false := by
  cases token with
  | doctype body => exact ⟨[], inner, rfl, rfl, trivial, homely⟩
  | comment body => exact ⟨[.comment body], inner, rfl, rfl, trivial, homely⟩
  | cdata body => exact ⟨[.cdata body], inner, rfl, rfl, trivial, homely⟩
  | text body => exact ⟨_, inner, rfl, rfl, trivial, homely⟩
  | endTag name =>
      cases inner with
      | nil =>
          obtain ⟨later, rfl⟩ := List.head?_eq_some_iff.1 explicit
          rw [isFrameTag, outerFrame name List.mem_cons_self] at noFrame
          cases noFrame
      | cons first inner =>
          obtain rfl : first = name := Option.some.inj explicit
          exact ⟨_, inner, Event.closeTag_innermost _ _, Event.closeTag_innermost _ _, rfl,
            fun other member => homely other (List.mem_cons_of_mem _ member)⟩
  | startTag name attributes selfClosing =>
      have stands : impliedlyClosed name (inner ++ outer) = [] := explicit
      have standsLeft := impliedlyClosed_over leftFrame stands
      have atOnce : closedAtOnce name selfClosing (inner ++ left) =
          closedAtOnce name selfClosing (inner ++ outer) := by
        rw [closedAtOnce, closedAtOnce, afterImplied_of_stands stands,
          afterImplied_of_stands standsLeft, isForeign, isForeign,
          any_isForeignRoot_over outerFrame, any_isForeignRoot_over leftFrame]
      have fed := feed_of_stands stands attributes selfClosing
      have fedLeft := feed_of_stands standsLeft attributes selfClosing
      rw [atOnce] at fedLeft
      cases closes : closedAtOnce name selfClosing (inner ++ outer) with
      | true =>
          rw [closes, if_pos rfl] at fed fedLeft
          exact ⟨_, inner, fed, fedLeft, standsLeft, homely⟩
      | false =>
          rw [closes, if_neg Bool.false_ne_true] at fed fedLeft
          exact ⟨_, name :: inner, fed, fedLeft, standsLeft,
            List.forall_mem_cons.2 ⟨noFrame, homely⟩⟩

/-- A start tag of the skeleton opens its element on the rest of the skeleton. -/
theorem feed_frame {name : Text} (frame : isFrame name = true)
    (outerFrame : ∀ other ∈ outer, isFrame other = true) (attributes : List (Text × Option Text))
    (selfClosing : Bool) :
    feed outer (.startTag name attributes selfClosing) =
      ([opening name attributes], name :: outer) := by
  obtain ⟨_, noVoid, noRoot, none⟩ := frame_facts frame
  have stands : impliedlyClosed name outer = [] := by
    rw [impliedlyClosed, none]
    cases outer <;> rfl
  have anyForeign : ([] ++ outer).any Element.isForeignRoot = false :=
    any_isForeignRoot_over outerFrame
  rw [List.nil_append] at anyForeign
  have stays : closedAtOnce name selfClosing outer = false := by
    rw [closedAtOnce, noVoid, afterImplied_of_stands stands, isForeign, noRoot,
      anyForeign]
    simp
  rw [feed_of_stands stands, stays, if_neg Bool.false_ne_true]

/-- Where only the skeleton may be open, nothing else is. -/
theorem eq_nil_of_frames (homely : ∀ name ∈ inner, isFrame name = false)
    (frames : ∀ name ∈ inner ++ outer, isFrame name = true) : inner = [] := by
  cases inner with
  | nil => rfl
  | cons first inner =>
      have both := frames first List.mem_cons_self
      rw [homely first List.mem_cons_self] at both
      cases both

/-- What opens an element of the skeleton is not seen. -/
theorem strokes_frame_start {name : Text} (frame : isFrame name = true)
    (outerFrame : ∀ other ∈ outer, isFrame other = true) (attributes : List (Text × Option Text))
    (selfClosing : Bool) (later : List Token) :
    (ofTokensWithin outer (.startTag name attributes selfClosing :: later)).flatMap
        (strokes isImplicit) =
      (ofTokensWithin (name :: outer) later).flatMap (strokes isImplicit) := by
  have hidden : strokes isImplicit (opening name attributes) = [] := by
    rw [opening, strokes, if_pos (frame_facts frame).1]
  rw [ofTokensWithin, feed_frame frame outerFrame, List.singleton_append, List.flatMap_cons,
    hidden, List.nil_append]

/-- Nor is what closes one. -/
theorem strokes_frame_end {name : Text} (frame : isFrame name = true) (later : List Token) :
    (ofTokensWithin (name :: outer) (.endTag name :: later)).flatMap (strokes isImplicit) =
      (ofTokensWithin outer later).flatMap (strokes isImplicit) := by
  have hidden : strokes isImplicit (.elementClose name) = [] := by
    rw [strokes, if_pos (frame_facts frame).1]
  rw [ofTokensWithin, feed, Event.closeTag_innermost, List.singleton_append, List.flatMap_cons,
    hidden, List.nil_append]

/-- A tag outside the skeleton stays. -/
theorem unframed_cons_of_stays {token : Token} (noFrame : isFrameTag token = false)
    (later : List Token) : unframed (token :: later) = token :: unframed later := by
  refine List.filter_cons_of_pos ?_
  cases token with
  | startTag name attributes selfClosing | endTag name =>
      rw [isFrameTag] at noFrame
      simp [isBareFrameTag, noFrame]
  | doctype | comment | cdata | text => rfl

/-- Without the tags of the skeleton the other tokens stay explicit, and the same is seen. The
reader of all tokens has a skeleton open, and the other one what is left of it: the elements whose
start tags have attributes, which stay open up to the end. -/
theorem unframed_over {tokens : List Token} {inner outer left : OpenElements}
    (homely : ∀ name ∈ inner, isFrame name = false)
    (outerFrame : ∀ other ∈ outer, isFrame other = true)
    (leftFrame : ∀ other ∈ left, isFrame other = true)
    (explicit : Explicit (inner ++ outer) tokens)
    (skeleton : HasSkeleton (inner ++ outer) tokens) :
    Explicit (inner ++ left) (unframed tokens) ∧
      (ofTokensWithin (inner ++ left) (unframed tokens)).flatMap (strokes isImplicit) =
        (ofTokensWithin (inner ++ outer) tokens).flatMap (strokes isImplicit) := by
  induction tokens generalizing inner outer left with
  | nil =>
      refine ⟨trivial, ?_⟩
      rw [unframed, List.filter_nil, ofTokensWithin, ofTokensWithin,
        strokes_closeAll_over leftFrame, strokes_closeAll_over outerFrame]
  | cons token tokens ih =>
      obtain ⟨here, later⟩ := explicit
      obtain ⟨inSkeleton, further⟩ := skeleton
      cases frame : isFrameTag token with
      | false =>
          obtain ⟨events, inner', fed, fedLeft, hereLeft, homely'⟩ :=
            exists_feed_over homely outerFrame leftFrame frame here
          rw [fed] at later further
          obtain ⟨explicitLeft, same⟩ := ih homely' outerFrame leftFrame later further
          rw [unframed_cons_of_stays frame, Explicit, ofTokensWithin, ofTokensWithin, fed, fedLeft,
            List.flatMap_append, List.flatMap_append, same]
          exact ⟨⟨hereLeft, explicitLeft⟩, rfl⟩
      | true =>
          obtain rfl := eq_nil_of_frames homely (inSkeleton frame)
          rw [List.nil_append] at here later further
          cases token with
          | doctype | comment | cdata | text => cases frame
          | endTag name =>
              rw [isFrameTag] at frame
              obtain ⟨outer, rfl⟩ := List.head?_eq_some_iff.1 here
              rw [feed, Event.closeTag_innermost] at later further
              have gone : unframed (.endTag name :: tokens) = unframed tokens :=
                List.filter_cons_of_neg (by simp [isBareFrameTag, frame])
              rw [gone, List.nil_append, List.nil_append, strokes_frame_end frame]
              exact @ih [] _ _ homely (List.forall_mem_cons.1 outerFrame).2 leftFrame later further
          | startTag name attributes selfClosing =>
              rw [isFrameTag] at frame
              rw [feed_frame frame outerFrame] at later further
              have outerFrame' : ∀ other ∈ name :: outer, isFrame other = true :=
                List.forall_mem_cons.2 ⟨frame, outerFrame⟩
              rw [List.nil_append, List.nil_append, strokes_frame_start frame outerFrame]
              by_cases bare : attributes = []
              · have gone : unframed (.startTag name attributes selfClosing :: tokens) =
                    unframed tokens :=
                  List.filter_cons_of_neg (by simp [isBareFrameTag, bare, frame])
                rw [gone]
                exact @ih [] _ _ homely outerFrame' leftFrame later further
              · have stays : unframed (.startTag name attributes selfClosing :: tokens) =
                    .startTag name attributes selfClosing :: unframed tokens :=
                  List.filter_cons_of_pos (by simp [isBareFrameTag, bare])
                have leftFrame' : ∀ other ∈ name :: left, isFrame other = true :=
                  List.forall_mem_cons.2 ⟨frame, leftFrame⟩
                obtain ⟨explicitLeft, same⟩ :=
                  @ih [] _ _ homely outerFrame' leftFrame' later further
                rw [stays, strokes_frame_start frame leftFrame]
                refine ⟨⟨?_, ?_⟩, same⟩
                · rw [IsExplicitAt, impliedlyClosed, (frame_facts frame).2.2.2]
                  cases left <;> rfl
                · rw [feed_frame frame leftFrame]
                  exact explicitLeft

end

end HtmlMinifier.OptionalTag

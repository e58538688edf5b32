/-
# Elements that are read the same inside any others

An element that keeps its text, in which every end tag is heeded, is read the same wherever it
stands, and so are the elements inside it. Tokens made of such elements and of ordinary ones are
framed: what is read of them above an element that keeps its text does not depend on what lies
below.
-/
import HtmlMinifier.Proofs.Event.Heeded

namespace HtmlMinifier.Event

/-- Whether tokens that are heeded above an element that keeps its text are read alike whatever
lies below that element, and leave no element open that keeps its text. -/
def Framed (tokens : List Token) : Prop :=
  ∀ ⦃name : Text⦄, preserves name = true → ∀ ⦃inner : OpenElements⦄, IsClear inner →
    heedsAll (inner ++ [name]) tokens = true → ∀ ⦃outer : OpenElements⦄,
      OpensPlainly (inner ++ name :: outer) tokens →
        feedAll (inner ++ name :: outer) tokens =
            ((feedAll inner tokens).1, (feedAll inner tokens).2 ++ name :: outer) ∧
          IsClear (feedAll inner tokens).2

theorem isClear_nil : IsClear [] := List.forall_mem_nil _

theorem framed_of_ordinary {tokens : List Token} (ordinary : ∀ token ∈ tokens, IsOrdinary token) :
    Framed tokens :=
  fun _ keeps _ clear heeded _ plainly =>
    ⟨feedAll_frame keeps ordinary heeded plainly, clear.feedAll ordinary⟩

theorem Framed.append {first second : List Token} (framed : Framed first)
    (behind : Framed second) :
    Framed (first ++ second) := by
  intro name keeps inner clear heeded outer plainly
  rw [heedsAll_append, Bool.and_eq_true] at heeded
  have firstPlainly : OpensPlainly (inner ++ name :: outer) first :=
    plainly.mono (fun _ => id) fun _ => List.mem_append_left second
  obtain ⟨whole, clearBehind⟩ := framed keeps clear heeded.1 firstPlainly
  have alone := (framed keeps clear heeded.1 firstPlainly.above).1
  have secondPlainly := plainly.feedAll
  have further := heeded.2
  rw [whole] at secondPlainly
  rw [alone] at further
  obtain ⟨rest, clearLast⟩ := behind keeps clearBehind further secondPlainly
  rw [feedAll_append, feedAll_append, whole, rest]
  exact ⟨rfl, clearLast⟩

/-! ## An element by itself -/

/-- The end tag of an element closes what was opened inside it. -/
theorem closeTag_of_notMem {name : Text} {inner : OpenElements} (notMem : name ∉ inner)
    (outer : OpenElements) :
    closeTag name (inner ++ name :: outer) = (closeAll (inner ++ [name]), outer) := by
  have isOpen : (inner ++ name :: outer).contains name = true :=
    List.contains_iff_mem.2 (List.mem_append_right inner List.mem_cons_self)
  have others : ∀ other ∈ inner, decide (other ≠ name) = true := by
    intro other member
    exact decide_eq_true fun same => notMem (same ▸ member)
  rw [closeTag, if_pos isOpen, List.takeWhile_append_of_pos others,
    List.dropWhile_append_of_pos others,
    List.takeWhile_cons_of_neg (by simp), List.dropWhile_cons_of_neg (by simp), List.append_nil,
    List.tail_cons]

/-- The tokens of an element that keeps its text. -/
def elementTokens (name : Text) (attributes : List (Text × Option Text)) (selfClosing : Bool)
    (inner : List Token) : List Token :=
  .startTag name attributes selfClosing :: (inner ++ [.endTag name])

/-- The events of an element by itself. -/
def elementEvents (name : Text) (attributes : List (Text × Option Text)) (inner : List Token) :
    List Event :=
  opening name attributes :: (ofTokensWithin [] inner ++ [.elementClose name])

/-- The elements are found that keep their text, an element in front of those inside it. -/
theorem preservedElements_elementEvents_append {name : Text} (keeps : preserves name = true)
    (attributes : List (Text × Option Text)) (inner : List Token) (later : List Event) :
    preservedElements (elementEvents name attributes inner ++ later) =
      elementEvents name attributes inner ::
        (preservedElements (ofTokensWithin [] inner) ++ preservedElements later) := by
  have complete := walk_ofTokensWithin [] inner
  rw [elementEvents, List.cons_append, List.append_assoc, List.singleton_append, opening,
    preservedElements_element complete, if_pos keeps, preservedElements_append complete]
  rfl

section
variable {name : Text} (keeps : preserves name = true) {attributes : List (Text × Option Text)}
  {selfClosing : Bool} {inner : List Token} (framed : Framed inner)
  (heeded : heedsAll [] (elementTokens name attributes selfClosing inner) = true)
include keeps framed heeded

/-- An element that keeps its text is read alike with any elements open, and leaves none of its own
open. -/
theorem feedAll_element {stack : OpenElements}
    (plainly : OpensPlainly stack (elementTokens name attributes selfClosing inner)) :
    feedAll stack (elementTokens name attributes selfClosing inner) =
      (closeAll (impliedlyClosed name stack) ++ elementEvents name attributes inner,
        afterImplied name stack) := by
  have opens : ∀ stack, OpensPlainly stack (elementTokens name attributes selfClosing inner) →
      feed stack (.startTag name attributes selfClosing) =
        (closeAll (impliedlyClosed name stack) ++ [opening name attributes],
          name :: afterImplied name stack) := by
    intro stack plainly
    exact openTag_of_stays (plainly.closedAtOnce.trans (isVoid_of_preserves keeps))
  have alone : OpensPlainly [] (elementTokens name attributes selfClosing inner) :=
    plainly.mono (fun _ inside => by cases inside) fun _ => id
  have inside : OpensPlainly (name :: afterImplied name stack) inner := by
    have behind := plainly.feed
    rw [opens stack plainly] at behind
    exact behind.mono (fun _ => id) fun _ => List.mem_append_left _
  rw [elementTokens, heedsAll_cons, Bool.and_eq_true, opens [] alone, heedsAll_append,
    Bool.and_eq_true] at heeded
  obtain ⟨whole, clear⟩ := framed keeps isClear_nil heeded.2.1 inside
  rw [List.nil_append] at whole
  have notMem : name ∉ (feedAll [] inner).2 := by
    intro member
    rw [clear name member] at keeps
    cases keeps
  have closes : feedAll ((feedAll [] inner).2 ++ name :: afterImplied name stack) [.endTag name] =
      (closeAll ((feedAll [] inner).2 ++ [name]), afterImplied name stack) := by
    rw [feedAll_cons, feed, closeTag_of_notMem notMem, feedAll_nil, List.append_nil]
  rw [elementTokens, feedAll_cons, opens stack plainly, feedAll_append, whole, closes,
    elementEvents,
    ofTokensWithin_eq_feedAll, closeAll_append]
  simp only [List.append_assoc, List.singleton_append]
  rfl

/-- An element that keeps its text is framed. -/
theorem framed_element : Framed (elementTokens name attributes selfClosing inner) := by
  intro other keepsOther above clear _ outer plainly
  obtain ⟨implied, left⟩ := impliedlyClosed_frame keepsOther name above outer
  have alone := plainly.mono (fun _ => List.mem_append_left _) fun _ => id
  rw [feedAll_element keeps framed heeded plainly, feedAll_element keeps framed heeded alone,
    implied, left]
  exact ⟨rfl, fun name member => clear name ((List.dropWhile_suffix _).subset member)⟩

end

end HtmlMinifier.Event

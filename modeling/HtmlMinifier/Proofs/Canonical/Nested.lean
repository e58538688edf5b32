/-
# Streams of elements inside each other

A legible stream is a sequence of elements, text and comments, and every element that it leaves
open is closed again behind a sequence of the same kind. Without raw text and comments to be kept,
this is the shape that a writer is followed along.
-/
import HtmlMinifier.Proofs.Canonical.PlainWriting
import HtmlMinifier.Proofs.Event.Legible

namespace HtmlMinifier.Canonical

open Event (Balanced IsContainer Legible OpenElements)
open Token (IsTagName IsAttributeName)

/-- A complete stream, element by element. -/
inductive Nested : List Event → Prop
  | nil : Nested []
  | characters (text : Text) {later : List Event} : Nested later →
    Nested (.characters text :: later)
  | cdata (text : Text) {later : List Event} : Nested later → Nested (.cdata text :: later)
  | comment {body : Text} {later : List Event} (dropped : isConditional body = false) :
      Nested later → Nested (.comment body :: later)
  | void {name : Text} {given : List (Text × Text)} {later : List Event} (named : IsTagName name)
      (isVoid : Element.isVoid name = true) (attributeNames : ∀ attr ∈ given,
        IsAttributeName attr.1) :
      Nested later → Nested (.elementOpen name given :: .elementClose name :: later)
  | verbatim {name : Text} {given : List (Text × Text)} (body : Text) {later : List Event}
      (markup : IsMarkupName name) (isVerbatim : Element.isVerbatim name = true)
      (attributeNames : ∀ attr ∈ given, IsAttributeName attr.1) :
      Nested later → Nested (.elementOpen name given ::
        ((if body = [] then [] else [.characters body]) ++ .elementClose name :: later))
  | container {name : Text} {given : List (Text × Text)} {inner later : List Event}
      (markup : IsMarkupName name) (container : IsContainer name)
      (attributeNames : ∀ attr ∈ given, IsAttributeName attr.1) :
      Nested inner → Nested later →
        Nested (.elementOpen name given :: (inner ++ .elementClose name :: later))

/-- The body of a verbatim element is a complete stream. -/
theorem nested_body (body : Text) : Nested (if body = [] then [] else [.characters body]) := by
  split
  · exact .nil
  · exact .characters body .nil

/-- A stream that closes these elements one after the other, and is complete in between. -/
def Nests : OpenElements → List Event → Prop
  | [], events => Nested events
  | name :: stack, events =>
      ∃ inner later, events = inner ++ .elementClose name :: later ∧ Nested inner ∧
        Nests stack later

/-- What may stand in front of a complete stream may stand in front of one that closes elements. -/
theorem Nests.append (front : List Event) (grows : ∀ later, Nested later → Nested (front ++ later))
    {stack : OpenElements} {events : List Event} (nests : Nests stack events) :
    Nests stack (front ++ events) := by
  cases stack with
  | nil => exact grows events nests
  | cons name stack =>
      obtain ⟨inner, later, rfl, nested, further⟩ := nests
      exact ⟨front ++ inner, later, (List.append_assoc front inner _).symm, grows inner nested,
        further⟩

/-- A legible stream of plain events closes what is open, and is complete in between. -/
theorem nests_of_legible {stack : OpenElements} {events : List Event}
    (legible : Legible IsContainer stack events) (plain : ∀ event ∈ events, IsPlainEvent event) :
    Nests stack events := by
  induction legible with
  | done => exact .nil
  | @opened stack name attributes later container fits attributeNames _ ih =>
      obtain ⟨inner, further, rfl, nested, nests⟩ :=
        ih fun event member => plain event (List.mem_cons_of_mem _ member)
      obtain ⟨markup, _⟩ : IsMarkupName name ∧ _ := plain _ List.mem_cons_self
      have grows : ∀ last, Nested last →
          Nested ((.elementOpen name attributes :: (inner ++ [.elementClose name])) ++ last) := by
        intro last complete
        rw [List.cons_append, List.append_assoc]
        exact .container markup container attributeNames nested complete
      have whole := nests.append _ grows
      rwa [List.cons_append, List.append_assoc] at whole
  | void named isVoid fits attributeNames _ ih =>
      have nests := ih fun event member =>
        plain event (List.mem_cons_of_mem _ (List.mem_cons_of_mem _ member))
      exact nests.append [_, _] fun last complete => .void named isVoid attributeNames complete
  | @verbatim stack name attributes body later named isVerbatim fits attributeNames avoids _ ih =>
      have nests := ih fun event member => plain event
        (List.mem_cons_of_mem _ (List.mem_append_right _ (List.mem_cons_of_mem _ member)))
      obtain ⟨markup, _⟩ : IsMarkupName name ∧ _ := plain _ List.mem_cons_self
      have grows : ∀ last, Nested last → Nested ((.elementOpen name attributes ::
          ((if body = [] then [] else [.characters body]) ++ [.elementClose name])) ++ last) := by
        intro last complete
        rw [List.cons_append, List.append_assoc]
        exact .verbatim body markup isVerbatim attributeNames complete
      have whole := nests.append _ grows
      rwa [List.cons_append, List.append_assoc] at whole
  | closed container _ ih =>
      exact ⟨[], _, rfl, .nil, ih fun event member => plain event (List.mem_cons_of_mem _ member)⟩
  | @characters stack text later _ ih =>
      have nests := ih fun event member => plain event (List.mem_cons_of_mem _ member)
      exact nests.append [_] fun last complete => .characters text complete
  | @cdata stack text later _ ih =>
      have nests := ih fun event member => plain event (List.mem_cons_of_mem _ member)
      exact nests.append [_] fun last complete => .cdata text complete
  | comment avoids _ ih =>
      have nests := ih fun event member => plain event (List.mem_cons_of_mem _ member)
      have dropped : isConditional _ = false := plain _ List.mem_cons_self
      exact nests.append [_] fun last complete => .comment dropped complete

/-- A complete stream may stand in front of any balanced one. -/
theorem Nested.balanced_append {events : List Event} (nested : Nested events)
    {stack : OpenElements}
    {later : List Event} (balanced : Balanced stack later) : Balanced stack (events ++ later) := by
  induction nested generalizing stack later with
  | nil => exact balanced
  | characters text _ ih => exact .characters (ih balanced)
  | cdata text _ ih => exact .cdata (ih balanced)
  | comment dropped _ ih => exact .comment (ih balanced)
  | void named isVoid attributeNames _ ih => exact .opened _ named.ne_nil (.closed (ih balanced))
  | verbatim body markup isVerbatim attributeNames _ ih =>
      rw [List.cons_append, List.append_assoc]
      apply Balanced.opened _ markup.named.ne_nil
      split
      · exact .closed (ih balanced)
      · exact .characters (.closed (ih balanced))
  | container markup container attributeNames _ _ ihInner ih =>
      rw [List.cons_append, List.append_assoc]
      exact .opened _ markup.named.ne_nil (ihInner (.closed (ih balanced)))

theorem Nested.balanced {events : List Event} (nested : Nested events) : Balanced [] events := by
  have whole := nested.balanced_append Balanced.done
  rwa [List.append_nil] at whole

/-- An element around a complete stream is balanced. -/
theorem Nested.balanced_element {events : List Event} (nested : Nested events) {name : Text}
    (named : IsTagName name) (given : List (Text × Text)) :
    Balanced [] (.elementOpen name given :: (events ++ [.elementClose name])) :=
  .opened given named.ne_nil (nested.balanced_append (.closed .done))

end HtmlMinifier.Canonical

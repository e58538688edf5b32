/-
# Event streams that the builder makes

A stream is legible if it has the shape that the builder gives it. Void elements are opened and
closed in one go, and so are verbatim elements whose tags do not close themselves; no start tag
implies the end of the element around it, and no text is hidden in a comment or behind an end tag.
The stack of open elements is the whole invariant: each token adds events that lead from the stack
before it to the stack after it, and the end of the tokens closes what is left.

A verbatim element whose tag closes itself is an element like any other and swallows what follows
it when it is written, and an attribute value that ends with a slash may swallow the end of its
tag. Both are excluded where a written stream is to be read back as it was.
-/
import HtmlMinifier.Proofs.Event.Balanced
import HtmlMinifier.Reference.Basic

namespace HtmlMinifier.Event

open Token (IsTagName IsAttributeName AvoidsEndTag Stream)

/-- An element that the builder leaves open behind its tag. -/
structure StaysOpen (name : Text) : Prop where
  named : IsTagName name
  noVoid : Element.isVoid name = false

/-- An element that stays open and has markup inside. -/
structure IsContainer (name : Text) : Prop extends StaysOpen name where
  noVerbatim : Element.isVerbatim name = false

/-- An attribute that is written in a way that can be read back. -/
structure IsLegibleAttribute (given : Text × Text) : Prop where
  named : IsAttributeName given.1
  noSlash : (Reference.normalizeAttribute given.2).getLast? ≠ some '/'

/-- A stream as the builder makes it while these elements are open. The elements that it leaves
open are of a certain kind. -/
inductive Legible (stays : Text → Prop) : OpenElements → List Event → Prop
  | done : Legible stays [] []
  | opened {stack : OpenElements} {name : Text} {attributes : List (Text × Text)}
      {later : List Event}
      (container : stays name) (fits : impliedlyClosed name stack = [])
      (attributeNames : ∀ given ∈ attributes, IsAttributeName given.1) :
      Legible stays (name :: stack) later →
        Legible stays stack (.elementOpen name attributes :: later)
  | void {stack : OpenElements} {name : Text} {attributes : List (Text × Text)}
      {later : List Event}
      (named : IsTagName name) (isVoid : Element.isVoid name = true)
      (fits : impliedlyClosed name stack = [])
      (attributeNames : ∀ given ∈ attributes, IsAttributeName given.1) :
      Legible stays stack later →
        Legible stays stack (.elementOpen name attributes :: .elementClose name :: later)
  | verbatim {stack : OpenElements} {name : Text} {attributes : List (Text × Text)} {body : Text}
      {later : List Event} (named : IsTagName name) (isVerbatim : Element.isVerbatim name = true)
      (fits : impliedlyClosed name stack = [])
      (attributeNames : ∀ given ∈ attributes, IsAttributeName given.1)
      (avoids : AvoidsEndTag name body) :
      Legible stays stack later →
        Legible stays stack (.elementOpen name attributes ::
          ((if body = [] then [] else [.characters body]) ++ .elementClose name :: later))
  | closed {stack : OpenElements} {name : Text} {later : List Event} (container : stays name) :
      Legible stays stack later → Legible stays (name :: stack) (.elementClose name :: later)
  | characters {stack : OpenElements} {text : Text} {later : List Event} :
      Legible stays stack later → Legible stays stack (.characters text :: later)
  | cdata {stack : OpenElements} {text : Text} {later : List Event} :
      Legible stays stack later → Legible stays stack (.cdata text :: later)
  | comment {stack : OpenElements} {text : Text} {later : List Event}
      (avoids : Text.Avoids "-->".toList text) :
      Legible stays stack later → Legible stays stack (.comment text :: later)

/-- A legible stream closes what it opens. -/
theorem Legible.balanced {stays : Text → Prop} (named : ∀ name, stays name → name ≠ [])
    {stack : OpenElements} {events : List Event} (legible : Legible stays stack events) :
    Balanced stack events := by
  induction legible with
  | done => exact .done
  | opened container _ _ _ ih => exact .opened _ (named _ container) ih
  | void isName _ _ _ _ ih => exact .opened _ isName.ne_nil (.closed ih)
  | @verbatim stack name attributes body later isName _ _ _ _ _ ih =>
      apply Balanced.opened _ isName.ne_nil
      split
      · exact .closed ih
      · exact .characters (.closed ih)
  | closed _ _ ih => exact .closed ih
  | characters _ ih => exact .characters ih
  | cdata _ ih => exact .cdata ih
  | comment _ _ ih => exact .comment ih

/-- A tag of which a legible stream is built. -/
structure IsLegibleTag (name : Text) (attributes : List (Text × Option Text))
    (selfClosing : Bool) :
    Prop where
  noVerbatim : Element.isVerbatim name = true → selfClosing = false
  noSlash : ∀ given ∈ attributes, ∀ value, given.2 = some value →
    (Reference.normalizeAttribute value).getLast? ≠ some '/'

/-- No tag of a verbatim element closes itself, and no attribute value ends with a slash. -/
def HasLegibleTags (tokens : List Token) : Prop :=
  ∀ name attributes selfClosing, .startTag name attributes selfClosing ∈ tokens →
    IsLegibleTag name attributes selfClosing

instance (name : Text) (attributes : List (Text × Option Text)) (selfClosing : Bool) :
    Decidable (IsLegibleTag name attributes selfClosing) :=
  decidable_of_iff ((Element.isVerbatim name = true → selfClosing = false) ∧
      ∀ given ∈ attributes, ∀ value ∈ given.2,
        (Reference.normalizeAttribute value).getLast? ≠ some '/')
    ⟨fun legible => ⟨legible.1, legible.2⟩, fun legible => ⟨legible.noVerbatim, legible.noSlash⟩⟩

instance : DecidablePred HasLegibleTags := fun tokens =>
  decidable_of_iff ((tokens.all fun
      | .startTag name attributes selfClosing => decide (IsLegibleTag name attributes selfClosing)
      | _ => true) = true) <| by
    rw [List.all_eq_true]
    constructor
    · intro legible name attributes selfClosing inside
      exact of_decide_eq_true (legible _ inside)
    · intro legible token inside
      cases token with
      | startTag name attributes selfClosing => exact decide_eq_true (legible _ _ _ inside)
      | doctype | endTag | comment | cdata | text => rfl

/-- The attributes of a tag are legible. -/
theorem isLegibleAttribute_of_tag {attributes : List (Text × Option Text)}
    (named : ∀ given ∈ attributes, IsAttributeName given.1)
    (noSlash : ∀ given ∈ attributes, ∀ value, given.2 = some value →
      (Reference.normalizeAttribute value).getLast? ≠ some '/') :
    ∀ given ∈ attributes.map fun given => (given.1, given.2.getD []),
    IsLegibleAttribute given := by
  intro read member
  obtain ⟨given, inside, rfl⟩ := List.mem_map.1 member
  refine ⟨named given inside, ?_⟩
  cases same : given.2 with
  | none =>
      change (Reference.normalizeAttribute []).getLast? ≠ some '/'
      rw [Reference.normalizeAttribute, Reference.decode]
      exact (Option.some_ne_none _).symm
  | some value => exact noSlash given inside value same

/-- What stays open implies no end any more. -/
theorem impliedlyClosed_afterImplied (name : Text) (stack : OpenElements) :
    impliedlyClosed name (afterImplied name stack) = [] := by
  rw [impliedlyClosed, afterImplied]
  induction stack with
  | nil => rfl
  | cons current stack ih =>
      by_cases implied : (Element.impliedEnds name).contains current = true
      · rw [List.dropWhile_cons_of_pos implied, ih]
      · rw [List.dropWhile_cons_of_neg implied, List.takeWhile_cons_of_neg implied]

section
variable {stays : Text → Prop}

theorem legible_closeAll_append (names : OpenElements) {stack : OpenElements} {later : List Event}
    (stay : ∀ name ∈ names, stays name) (legible : Legible stays stack later) :
    Legible stays (names ++ stack) (closeAll names ++ later) := by
  induction names with
  | nil => exact legible
  | cons name names ih =>
      refine .closed (stay name List.mem_cons_self) (ih ?_)
      intro other member
      exact stay other (List.mem_cons_of_mem name member)

/-- What a start tag closes is written in front of what it opens. -/
theorem legible_impliedlyClosed_append (name : Text) {stack : OpenElements} {later : List Event}
    (stay : ∀ name ∈ stack, stays name) (legible : Legible stays (afterImplied name stack) later) :
    Legible stays stack (closeAll (impliedlyClosed name stack) ++ later) := by
  have closes := legible_closeAll_append (impliedlyClosed name stack)
    (fun other member => stay other ((List.takeWhile_prefix _).subset member)) legible
  rwa [impliedlyClosed_append_afterImplied] at closes

/-- The events of a tag in front of a legible stream. -/
theorem legible_openTag {name : Text} {attributes : List (Text × Option Text)} {selfClosing : Bool}
    {stack : OpenElements} {later : List Event} (named : IsTagName name)
    (attributeNames : ∀ given ∈ attributes, IsAttributeName given.1)
    (leftOpen : StaysOpen name → stays name) (stay : ∀ name ∈ stack, stays name)
    (legible : Legible stays (openTag name attributes selfClosing stack).2 later) :
    Legible stays stack ((openTag name attributes selfClosing stack).1 ++ later) := by
  have readNames : ∀ attr ∈ attributes.map fun given => (given.1, given.2.getD []),
      IsAttributeName attr.1 := by
    intro attr member
    obtain ⟨given, inside, rfl⟩ := List.mem_map.1 member
    exact attributeNames given inside
  have fits := impliedlyClosed_afterImplied name stack
  cases isVoid : Element.isVoid name with
  | true =>
      have atOnce : closedAtOnce name selfClosing stack = true := by
        rw [closedAtOnce, isVoid, Bool.true_or]
      rw [openTag_of_closedAtOnce atOnce] at legible ⊢
      rw [List.append_assoc]
      exact legible_impliedlyClosed_append name stay (.void named isVoid fits readNames legible)
  | false =>
      have container : stays name := leftOpen ⟨named, isVoid⟩
      cases atOnce : closedAtOnce name selfClosing stack with
      | true =>
          -- A foreign element that closes itself is written with an end tag of its own.
          rw [openTag_of_closedAtOnce atOnce] at legible ⊢
          rw [List.append_assoc]
          exact legible_impliedlyClosed_append name stay
            (.opened container fits readNames (.closed container legible))
      | false =>
          rw [openTag_of_stays atOnce] at legible ⊢
          rw [List.append_assoc]
          exact legible_impliedlyClosed_append name stay (.opened container fits readNames legible)

/-- The elements that are open after a start tag are of the kind that stays open. -/
theorem stays_of_mem_openTag {name : Text} (attributes : List (Text × Option Text))
    {selfClosing : Bool} {stack : OpenElements} (named : IsTagName name)
    (leftOpen : StaysOpen name → stays name) (stay : ∀ name ∈ stack, stays name) :
    ∀ other ∈ (openTag name attributes selfClosing stack).2, stays other := by
  have outer : ∀ other ∈ afterImplied name stack, stays other := fun other member =>
    stay other ((List.dropWhile_suffix _).subset member)
  cases atOnce : closedAtOnce name selfClosing stack with
  | true =>
      rw [openTag_of_closedAtOnce atOnce]
      exact outer
  | false =>
      rw [openTag_of_stays atOnce]
      rw [closedAtOnce, Bool.or_eq_false_iff] at atOnce
      intro other member
      rcases List.mem_cons.1 member with rfl | inside
      · exact leftOpen ⟨named, atOnce.1⟩
      · exact outer other inside

/-- The end tag of the innermost element closes it and nothing else. -/
theorem closeTag_innermost (name : Text) (outer : OpenElements) :
    closeTag name (name :: outer) = ([.elementClose name], outer) := by
  rw [closeTag, if_pos (by simp)]
  simp [closeAll]

/-- A verbatim element is opened, filled and closed by the tokens of its tags and its body. -/
theorem ofTokensWithin_verbatim {name : Text} (attributes : List (Text × Option Text))
    (body : Text)
    (stack : OpenElements) (later : List Token) (isVerbatim : Element.isVerbatim name = true) :
    ofTokensWithin stack (.startTag name attributes false ::
        ((if body = [] then [] else [.text body]) ++ .endTag name :: later)) =
      closeAll (impliedlyClosed name stack) ++ (opening name attributes ::
        ((if body = [] then [] else [.characters body]) ++ .elementClose name ::
          ofTokensWithin (afterImplied name stack) later)) := by
  have stays : closedAtOnce name false stack = false := by
    rw [closedAtOnce, Token.isVoid_of_isVerbatim isVerbatim]
    rfl
  rw [ofTokensWithin, feed, openTag_of_stays stays]
  by_cases none : body = []
  · rw [if_pos none, if_pos none, List.nil_append, ofTokensWithin, feed, closeTag_innermost]
    simp
  · rw [if_neg none, if_neg none, List.singleton_append, ofTokensWithin, feed, if_neg none,
      ofTokensWithin, feed, closeTag_innermost]
    simp

theorem stays_of_mem_closeTag (name : Text) {stack : OpenElements}
    (stay : ∀ name ∈ stack, stays name) :
    ∀ other ∈ (closeTag name stack).2, stays other := by
  intro other member
  rw [closeTag] at member
  split at member
  · exact stay other ((List.dropWhile_suffix _).subset ((List.tail_suffix _).subset member))
  · exact stay other member

/-- The events of an end tag in front of a legible stream. -/
theorem legible_closeTag {name : Text} {stack : OpenElements} {later : List Event}
    (stay : ∀ name ∈ stack, stays name) (legible : Legible stays (closeTag name stack).2 later) :
    Legible stays stack ((closeTag name stack).1 ++ later) := by
  unfold closeTag at *
  split at legible
  · next isOpen =>
      rw [if_pos isOpen]
      have parts := takeWhile_append_tail_dropWhile isOpen
      have inner : ∀ other ∈ stack.takeWhile (· ≠ name) ++ [name], stays other := by
        intro other member
        rw [← parts] at stay
        exact stay other (List.mem_append_left _ member)
      have closes := legible_closeAll_append (stack.takeWhile (· ≠ name) ++ [name]) inner legible
      rwa [parts] at closes
  · next notOpen =>
      rw [if_neg notOpen]
      exact legible

/-- The events of a stream of tokens are legible. An element stays open unless it is void, or
verbatim and followed by its end tag. -/
theorem legible_ofTokensWithin {tokens : List Token} (stream : Stream tokens)
    (leftOpen : ∀ name attributes selfClosing, .startTag name attributes selfClosing ∈ tokens →
      (Element.isVerbatim name = true → selfClosing = true) → StaysOpen name → stays name)
    {stack : OpenElements} (stay : ∀ name ∈ stack, stays name) :
    Legible stays stack (ofTokensWithin stack tokens) := by
  have among : ∀ {first later : List Token}, (∀ token ∈ later, token ∈ first) →
      (∀ name attributes selfClosing, .startTag name attributes selfClosing ∈ first →
        (Element.isVerbatim name = true → selfClosing = true) → StaysOpen name → stays name) →
      ∀ name attributes selfClosing, .startTag name attributes selfClosing ∈ later →
        (Element.isVerbatim name = true → selfClosing = true) → StaysOpen name → stays name :=
    fun inside all name attributes selfClosing member =>
      all name attributes selfClosing (inside _ member)
  induction stream generalizing stack with
  | done =>
      have closes := legible_closeAll_append stack stay Legible.done
      rwa [List.append_nil, List.append_nil] at closes
  | doctype _ ih => exact ih (among (fun _ => List.mem_cons_of_mem _) leftOpen) stay
  | comment avoids _ ih =>
      exact .comment avoids (ih (among (fun _ => List.mem_cons_of_mem _) leftOpen) stay)
  | cdata _ ih => exact .cdata (ih (among (fun _ => List.mem_cons_of_mem _) leftOpen) stay)
  | text some _ ih =>
      rw [ofTokensWithin, feed, if_neg some]
      exact .characters (ih (among (fun _ => List.mem_cons_of_mem _) leftOpen) stay)
  | endTag named _ ih =>
      exact legible_closeTag stay
        (ih (among (fun _ => List.mem_cons_of_mem _) leftOpen) (stays_of_mem_closeTag _ stay))
  | @startTag name attributes selfClosing later named attributeNames plain _ ih =>
      have opens := leftOpen name attributes selfClosing List.mem_cons_self plain
      exact legible_openTag named attributeNames opens stay
        (ih (among (fun _ => List.mem_cons_of_mem _) leftOpen)
          (stays_of_mem_openTag attributes named opens stay))
  | @verbatim name attributes body later named attributeNames isVerbatim avoids _ ih =>
      have readNames : ∀ attr ∈ attributes.map fun given => (given.1, given.2.getD []),
          IsAttributeName attr.1 := by
        intro attr member
        obtain ⟨given, inside, rfl⟩ := List.mem_map.1 member
        exact attributeNames given inside
      rw [ofTokensWithin_verbatim attributes body stack later isVerbatim]
      apply legible_impliedlyClosed_append name stay
      refine .verbatim named isVerbatim (impliedlyClosed_afterImplied name stack) readNames avoids
        (ih (among (fun token member => ?_) leftOpen) fun other member => ?_)
      · exact List.mem_cons_of_mem _ (List.mem_append_right _ (List.mem_cons_of_mem _ member))
      · exact stay other ((List.dropWhile_suffix _).subset member)

end

/-! ## Texts that are read -/

/-- Every text is read as a legible stream behind the start of the document. -/
theorem legible_parse {stays : Text → Prop} {input : Text}
    (leftOpen : ∀ name attributes selfClosing,
      .startTag name attributes selfClosing ∈ Token.tokenize input →
        (Element.isVerbatim name = true → selfClosing = true) → StaysOpen name → stays name) :
    ∃ later, parse input = .documentStart :: later ∧ Legible stays [] later :=
  ⟨_, rfl, legible_ofTokensWithin (Token.stream_tokenize input) leftOpen
    fun _ none => absurd none List.not_mem_nil⟩

/-- Every text is read as a balanced stream behind the start of the document. -/
theorem balanced_parse (input : Text) :
    ∃ later, parse input = .documentStart :: later ∧ Balanced [] later := by
  obtain ⟨later, parsed, legible⟩ := @legible_parse StaysOpen input fun _ _ _ _ _ stays => stays
  exact ⟨later, parsed, legible.balanced fun name stays => stays.named.ne_nil⟩

/-- Where no verbatim element closes itself, only containers stay open. -/
theorem legible_of_noSelfClosing {input : Text}
    (noSelfClosing : ∀ name attributes,
      .startTag name attributes true ∈ Token.tokenize input → Element.isVerbatim name = false) :
    ∃ later, parse input = .documentStart :: later ∧ Legible IsContainer [] later := by
  apply legible_parse
  intro name attributes selfClosing member plain stays
  refine ⟨stays, ?_⟩
  cases isVerbatim : Element.isVerbatim name with
  | false => rfl
  | true =>
      rw [plain isVerbatim] at member
      rw [← isVerbatim, noSelfClosing name attributes member]

/-- The attributes of elements with legible tags are legible. -/
theorem isLegibleAttribute_of_mem_parse {input : Text}
    (tags : HasLegibleTags (Token.tokenize input))
    {name : Text} {attributes : List (Text × Text)}
    (member : .elementOpen name attributes ∈ parse input) :
    ∀ given ∈ attributes, IsLegibleAttribute given := by
  rcases List.mem_cons.1 member with same | later
  · cases same
  · obtain ⟨given, selfClosing, inside, rfl⟩ := exists_startTag_of_mem later
    exact isLegibleAttribute_of_tag
      (Token.named_of_mem (Token.stream_tokenize input) inside).2
      (tags name given selfClosing inside).noSlash

end HtmlMinifier.Event

/-
# Text that is kept as it is

The text of a `pre` and of a `textarea` is shown with its white space, so it should come through
minifying character by character. Such an element is found in a stream from its open to the close
that answers it, and its text is what its runs of characters stand for, in order, whatever tags and
comments stand between them.

A builder that meets an end tag without its element ignores it. A text in which that never happens
reads the same inside any other elements, which is what keeps it apart from its surroundings.
-/
import HtmlMinifier.Proofs.Event.Walk
import HtmlMinifier.Proofs.Reference.RoundTrip

namespace HtmlMinifier.Event

/-! ## Elements and their text -/

/-- The elements whose text is shown as it is. -/
def preservingNames : List Text := ["pre", "textarea"].map String.toList

/-- Whether the text of the element is shown as it is. -/
def preserves (name : Text) : Bool := preservingNames.contains name

/-- The events up to the close that leads out of the element around them, where so many elements
have been opened inside it. -/
def throughClose : Nat → List Event → List Event
  | _, [] => []
  | depth, .elementOpen name attributes :: later =>
      .elementOpen name attributes :: throughClose (depth + 1) later
  | 0, .elementClose name :: _ => [.elementClose name]
  | depth + 1, .elementClose name :: later => .elementClose name :: throughClose depth later
  | depth, event :: later => event :: throughClose depth later

/-- The elements of a stream whose text is shown as it is, in the order of their opens, each with
all events from its open to its close. -/
def preservedElements : List Event → List (List Event)
  | [] => []
  | .elementOpen name attributes :: later =>
      if preserves name then
        (.elementOpen name attributes :: throughClose 0 later) :: preservedElements later
      else preservedElements later
  | _ :: later => preservedElements later

/-- The text that events stand for behind the beginning of a run. References are decoded run by
run; a tag or a comment ends a run. -/
def contentFrom (run : Text) : List Event → Text
  | [] => Reference.decode run
  | .characters text :: later => contentFrom (run ++ text) later
  | .cdata text :: later => contentFrom (run ++ text) later
  | _ :: later => Reference.decode run ++ contentFrom [] later

theorem contentFrom_elementOpen (run name : Text) (attributes : List (Text × Text))
    (later : List Event) :
    contentFrom run (.elementOpen name attributes :: later) =
      Reference.decode run ++ contentFrom [] later := rfl

theorem contentFrom_elementClose (run name : Text) (later : List Event) :
    contentFrom run (.elementClose name :: later) = Reference.decode run ++ contentFrom [] later :=
  rfl

/-- The text that events stand for. -/
def content (events : List Event) : Text := contentFrom [] events

/-- The texts that are shown as they are, in the order of their elements. -/
def preservedTexts (events : List Event) : List Text := (preservedElements events).map content

/-! ## Finding elements -/

theorem prefix_throughClose (depth : Nat) (events : List Event) :
    throughClose depth events <+: events := by
  induction events generalizing depth with
  | nil => exact List.prefix_rfl
  | cons event events ih =>
      cases event with
      | elementOpen name attributes => exact List.prefix_cons_inj _ |>.2 (ih (depth + 1))
      | elementClose name =>
          cases depth with
          | zero => exact List.prefix_cons_inj _ |>.2 (List.nil_prefix)
          | succ depth => exact List.prefix_cons_inj _ |>.2 (ih depth)
      | documentStart | characters text | cdata text | comment body =>
          exact List.prefix_cons_inj _ |>.2 (ih depth)

/-- An element is a contiguous part of its stream. -/
theorem infix_of_mem_preservedElements {element events : List Event}
    (member : element ∈ preservedElements events) : element <:+: events := by
  induction events with
  | nil => cases member
  | cons event events ih =>
      have later : element ∈ preservedElements events → element <:+: event :: events :=
        fun inside =>
        (ih inside).trans (List.suffix_cons event events).isInfix
      cases event with
      | elementOpen name attributes =>
          rw [preservedElements] at member
          split at member
          · rcases List.mem_cons.1 member with rfl | inside
            · exact ((List.prefix_cons_inj _).2 (prefix_throughClose 0 events)).isInfix
            · exact later inside
          · exact later member
      | documentStart | elementClose name | characters text | cdata text | comment body =>
          exact later member

/-- A stream that leads from some open elements to others is passed through as a whole. -/
theorem throughClose_append {stack behind : OpenElements} {inner : List Event}
    (followed : walk stack inner = some behind) (depth : Nat) (later : List Event) :
    throughClose (depth + stack.length) (inner ++ later) =
      inner ++ throughClose (depth + behind.length) later := by
  induction inner generalizing stack with
  | nil =>
      cases followed
      rfl
  | cons event inner ih =>
      rw [walk_cons, Option.bind_eq_some_iff] at followed
      obtain ⟨next, entered, further⟩ := followed
      cases event with
      | elementOpen name attributes =>
          cases entered
          exact congrArg (_ :: ·) (ih further)
      | elementClose name =>
          rw [enter] at entered
          split at entered
          · next innermost =>
              obtain ⟨outer, rfl⟩ := List.head?_eq_some_iff.1 innermost
              cases entered
              exact congrArg (_ :: ·) (ih further)
          · cases entered
      | documentStart | characters text | cdata text | comment body =>
          cases entered
          exact congrArg (_ :: ·) (ih further)

/-- A complete stream between its tags is an element with the elements inside it. -/
theorem preservedElements_element {name : Text} {inner : List Event}
    (complete : walk [] inner = some []) (attributes : List (Text × Text)) (later : List Event) :
    preservedElements (.elementOpen name attributes :: (inner ++ .elementClose name :: later)) =
      (if preserves name then [.elementOpen name attributes :: (inner ++ [.elementClose name])]
      else []) ++
        preservedElements (inner ++ .elementClose name :: later) := by
  have through := throughClose_append complete 0 (.elementClose name :: later)
  rw [preservedElements]
  split
  · rw [show throughClose 0 (inner ++ _) = _ from through]
    rfl
  · rfl

/-- What closes the element around it does so whatever follows. -/
theorem throughClose_append_of_closes {stack : OpenElements} {events : List Event}
    (followed : walk stack events = some []) {depth : Nat} (inside : depth < stack.length)
    (later : List Event) : throughClose depth (events ++ later) = throughClose depth events := by
  induction events generalizing stack depth with
  | nil =>
      cases followed
      cases inside
  | cons event events ih =>
      rw [walk_cons, Option.bind_eq_some_iff] at followed
      obtain ⟨next, entered, further⟩ := followed
      cases event with
      | elementOpen name attributes =>
          cases entered
          exact congrArg (_ :: ·) (ih further (Nat.succ_lt_succ inside))
      | elementClose name =>
          rw [enter] at entered
          split at entered
          · next innermost =>
              obtain ⟨outer, rfl⟩ := List.head?_eq_some_iff.1 innermost
              cases entered
              cases depth with
              | zero => rfl
              | succ depth => exact congrArg (_ :: ·) (ih further (Nat.lt_of_succ_lt_succ inside))
          · cases entered
      | documentStart | characters text | cdata text | comment body =>
          cases entered
          exact congrArg (_ :: ·) (ih further inside)

/-- Behind a stream that closes all elements the elements are found anew. -/
theorem preservedElements_append {stack : OpenElements} {events : List Event}
    (followed : walk stack events = some []) (later : List Event) :
    preservedElements (events ++ later) = preservedElements events ++ preservedElements later := by
  induction events generalizing stack with
  | nil => rfl
  | cons event events ih =>
      rw [walk_cons, Option.bind_eq_some_iff] at followed
      obtain ⟨next, entered, further⟩ := followed
      cases event with
      | elementOpen name attributes =>
          cases entered
          rw [List.cons_append, preservedElements, preservedElements, ih further,
            throughClose_append_of_closes further (Nat.succ_pos _)]
          split <;> rfl
      | documentStart | elementClose name | characters text | cdata text | comment body =>
          exact ih further

theorem preservedElements_closeAll_append (names : List Text) (later : List Event) :
    preservedElements (closeAll names ++ later) = preservedElements later := by
  induction names with
  | nil => rfl
  | cons name names ih => exact ih

/-! ## Text in parts -/

/-- Whether events tell a text. Behind a run that is not over, a first part of what they tell is
told for sure, and the rest is a run that is not over either. -/
def Tells (events : List Event) (text : Text) : Prop :=
  ∀ run : Text, ∃ told behind : Text, told ++ behind = run ++ text ∧ ∀ later,
    contentFrom (Reference.encode run) (events ++ later) =
      told ++ contentFrom (Reference.encode behind) later

theorem tells_nil : Tells [] [] :=
  fun run => ⟨[], run, by rw [List.nil_append, List.append_nil], fun _ => rfl⟩

theorem Tells.append {first second : List Event} {text later : Text} (tells : Tells first text)
    (behind : Tells second later) : Tells (first ++ second) (text ++ later) := by
  intro run
  obtain ⟨told, rest, parts, read⟩ := tells run
  obtain ⟨further, last, moreParts, more⟩ := behind rest
  refine ⟨told ++ further, last, ?_, fun events => ?_⟩
  · rw [List.append_assoc, moreParts, ← List.append_assoc, parts, List.append_assoc]
  · rw [List.append_assoc, read, more, List.append_assoc]

/-- Tags tell nothing. -/
theorem tells_tag {event : Event}
    (tag : (∃ name attributes, event = .elementOpen name attributes) ∨
    ∃ name, event = .elementClose name) : Tells [event] [] := by
  intro run
  refine ⟨run, [], rfl, fun later => ?_⟩
  have whole : contentFrom (Reference.encode run) (event :: later) =
      Reference.decode (Reference.encode run) ++ contentFrom [] later := by
    rcases tag with ⟨name, attributes, rfl⟩ | ⟨name, rfl⟩ <;> rfl
  rw [List.singleton_append, whole, Reference.decode_encode]
  rfl

theorem tells_closeAll (names : List Text) : Tells (closeAll names) [] := by
  induction names with
  | nil => exact tells_nil
  | cons name names ih => exact (tells_tag (.inr ⟨name, rfl⟩)).append ih

theorem tells_startTag (stack : OpenElements) (name : Text)
    (attributes : List (Text × Option Text))
    (selfClosing : Bool) : Tells (feed stack (.startTag name attributes selfClosing)).1 [] := by
  have closes := tells_closeAll (impliedlyClosed name stack)
  have opens : Tells [opening name attributes] [] := tells_tag (.inl ⟨_, _, rfl⟩)
  rw [feed]
  cases atOnce : closedAtOnce name selfClosing stack with
  | true =>
      rw [openTag_of_closedAtOnce atOnce]
      exact closes.append (opens.append (tells_tag (.inr ⟨name, rfl⟩)))
  | false =>
      rw [openTag_of_stays atOnce]
      exact closes.append opens

theorem tells_endTag (stack : OpenElements) (name : Text) :
    Tells (feed stack (.endTag name)).1 [] := by
  rw [feed, closeTag]
  split
  · exact tells_closeAll _
  · exact tells_nil

/-- The text that is told is the text that events stand for. -/
theorem Tells.content_eq {events : List Event} {text : Text} (tells : Tells events text) :
    content events = text := by
  obtain ⟨told, behind, parts, read⟩ := tells []
  have whole := read []
  rw [List.append_nil] at whole
  rw [content, show [] = Reference.encode [] from rfl, whole, contentFrom, Reference.decode_encode,
    parts,
    List.nil_append]

/-! ## Characters by themselves -/

/-- A text as tokens of one character each. -/
def charTokens (text : Text) : List Token := text.map fun c => .text [c]

/-- A token with every character of a text by itself. -/
def tokenChars : Token → List Token
  | .text body => charTokens body
  | token => [token]

/-- An event with every character of a text by itself. -/
def eventChars : Event → List Event
  | .characters text => text.map fun c => .characters [c]
  | event => [event]

@[simp]
theorem charTokens_append (first second : Text) :
    charTokens (first ++ second) = charTokens first ++ charTokens second :=
  List.map_append

theorem contentFrom_chars_append (run text : Text) (later : List Event) :
    contentFrom run (text.map (fun c => .characters [c]) ++ later) =
    contentFrom (run ++ text) later := by
  induction text generalizing run with
  | nil => rw [List.map_nil, List.nil_append, List.append_nil]
  | cons c text ih =>
      rw [List.map_cons, List.cons_append, contentFrom, ih, List.append_assoc,
        List.singleton_append]

/-- Characters tell what their text stands for. -/
theorem tells_characters (text : Text) :
    Tells ((Reference.encode text).map fun c => .characters [c]) text := by
  intro run
  refine ⟨[], run ++ text, rfl, fun later => ?_⟩
  rw [contentFrom_chars_append, Reference.encode, Reference.encode, Reference.encode,
    List.flatMap_append]
  rfl

theorem contentFrom_flatMap_chars (run : Text) (events : List Event) :
    contentFrom run (events.flatMap eventChars) = contentFrom run events := by
  induction events generalizing run with
  | nil => rfl
  | cons event events ih =>
      rw [List.flatMap_cons]
      cases event with
      | characters text => rw [eventChars, contentFrom_chars_append, ih, contentFrom]
      | cdata text => exact ih (run ++ text)
      | documentStart | elementOpen name attributes | elementClose name | comment body =>
          exact congrArg (Reference.decode run ++ ·) (ih [])

theorem throughClose_chars_append (depth : Nat) (text : Text) (later : List Event) :
    throughClose depth (text.map (fun c => .characters [c]) ++ later) =
      text.map (fun c => .characters [c]) ++ throughClose depth later := by
  induction text with
  | nil => rfl
  | cons c text ih => exact congrArg (_ :: ·) ih

theorem throughClose_flatMap_chars (depth : Nat) (events : List Event) :
    throughClose depth (events.flatMap eventChars) = (throughClose depth events).flatMap
    eventChars := by
  induction events generalizing depth with
  | nil => rfl
  | cons event events ih =>
      rw [List.flatMap_cons]
      cases event with
      | elementOpen name attributes => exact congrArg (_ :: ·) (ih (depth + 1))
      | elementClose name =>
          cases depth with
          | zero => rfl
          | succ depth => exact congrArg (_ :: ·) (ih depth)
      | characters text =>
          rw [eventChars, throughClose_chars_append, ih]
          rfl
      | documentStart | cdata text | comment body => exact congrArg (_ :: ·) (ih depth)

theorem preservedElements_chars_append (text : Text) (later : List Event) :
    preservedElements (text.map (fun c => .characters [c]) ++ later) =
    preservedElements later := by
  induction text with
  | nil => rfl
  | cons c text ih => exact ih

theorem preservedElements_flatMap_chars (events : List Event) :
    preservedElements (events.flatMap eventChars) =
      (preservedElements events).map fun element => element.flatMap eventChars := by
  induction events with
  | nil => rfl
  | cons event events ih =>
      rw [List.flatMap_cons]
      cases event with
      | elementOpen name attributes =>
          change preservedElements (.elementOpen name attributes :: events.flatMap eventChars) = _
          rw [preservedElements, preservedElements, ih, throughClose_flatMap_chars]
          split <;> rfl
      | characters text =>
          rw [eventChars, preservedElements_chars_append, ih]
          rfl
      | documentStart | elementClose name | cdata text | comment body => exact ih

/-- The texts that are shown as they are do not depend on how text is cut. -/
theorem preservedTexts_flatMap_chars (events : List Event) :
    preservedTexts (events.flatMap eventChars) = preservedTexts events := by
  rw [preservedTexts, preservedElements_flatMap_chars, List.map_map, preservedTexts]
  exact List.map_congr_left fun element _ => contentFrom_flatMap_chars [] element

end HtmlMinifier.Event

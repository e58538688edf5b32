/-
# What a reader sees in events

Two documents read the same if they have the same elements and the same words in the same order.
Some elements are hidden, because their tags may be missing from a document: those of the document
skeleton, and for some readers column groups and table bodies. Blanks and the borders between
pieces of text are passed over as well.

Comparing readings is comparing their strokes: every visible event by itself and every character by
itself. Strokes are easier to follow through a list of tokens, because nothing has to be joined.
-/
import HtmlMinifier.Proofs.Event.Balanced

namespace HtmlMinifier.Event

/-- Elements that a document has whether or not their tags are written. -/
def implicitNames : List Text :=
  ["html", "head", "body", "colgroup", "tbody"].map String.toList

/-- Whether a document has an element whether or not its tags are written. -/
def isImplicit (name : Text) : Bool := implicitNames.contains name

/-- The characters of a text that are no blanks. -/
def solid (text : Text) : Text := text.filter fun c => !Text.isBlank c

/-- An event as it is seen, if it is seen at all. -/
def seen? (hides : Text → Bool) : Event → Option Event
  | .elementOpen name attributes =>
      if hides name then none else some (.elementOpen name attributes)
  | .elementClose name => if hides name then none else some (.elementClose name)
  | .characters text => if solid text = [] then none else some (.characters (solid text))
  | event => some event

/-- Put a text in front of events, as one with the text that they begin with. -/
def joinText (text : Text) : List Event → List Event
  | .characters more :: later => .characters (text ++ more) :: later
  | events => .characters text :: events

/-- Events in which no two pieces of text stand side by side. -/
def joined : List Event → List Event
  | [] => []
  | .characters text :: later => joinText text (joined later)
  | event :: later => event :: joined later

/-- What a reader sees in events. -/
def reading (hides : Text → Bool) (events : List Event) : List Event :=
  joined (events.filterMap (seen? hides))

/-! ## Strokes -/

/-- A text as events of one character each, blanks left out. -/
def letters (text : Text) : List Event := (solid text).map fun c => .characters [c]

/-- An event as it is seen, with every character by itself. -/
def strokes (hides : Text → Bool) : Event → List Event
  | .elementOpen name attributes => if hides name then [] else [.elementOpen name attributes]
  | .elementClose name => if hides name then [] else [.elementClose name]
  | .characters text => letters text
  | event => [event]

variable {hides : Text → Bool}

@[simp]
theorem solid_append (first second : Text) :
    solid (first ++ second) = solid first ++ solid second :=
  List.filter_append first second

theorem solid_solid (text : Text) : solid (solid text) = solid text := by
  rw [solid, solid, List.filter_filter]
  simp

@[simp]
theorem letters_append (first second : Text) :
    letters (first ++ second) = letters first ++ letters second := by
  rw [letters, solid_append, List.map_append, ← letters, ← letters]

@[simp]
theorem letters_nil : letters [] = [] := rfl

theorem flatMap_strokes_joinText (text : Text) (events : List Event) :
    (joinText text events).flatMap (strokes hides) =
      letters text ++ events.flatMap (strokes hides) := by
  unfold joinText
  split
  · rw [List.flatMap_cons, List.flatMap_cons, strokes, letters_append, strokes, List.append_assoc]
  · rw [List.flatMap_cons, strokes]

theorem flatMap_strokes_joined (events : List Event) :
    (joined events).flatMap (strokes hides) = events.flatMap (strokes hides) := by
  induction events with
  | nil => rfl
  | cons event events ih =>
      cases event with
      | characters text =>
          rw [joined, flatMap_strokes_joinText, ih, List.flatMap_cons, strokes]
      | documentStart | elementOpen name attributes | elementClose name | cdata text
      | comment text =>
          rw [joined, List.flatMap_cons, List.flatMap_cons, ih]
          intro text same
          cases same

theorem flatMap_strokes_filterMap_seen (events : List Event) :
    (events.filterMap (seen? hides)).flatMap (strokes hides) = events.flatMap (strokes hides) := by
  induction events with
  | nil => rfl
  | cons event events ih =>
      have alone : (seen? hides event).toList.flatMap (strokes hides) = strokes hides event := by
        cases event with
        | elementOpen name attributes | elementClose name =>
            cases hidden : hides name <;> simp [seen?, strokes, hidden]
        | characters text =>
            by_cases none : solid text = []
            · simp [seen?, strokes, letters, none]
            · simp [seen?, strokes, letters, none, solid_solid]
        | documentStart | cdata text | comment text => rfl
      have parts : (event :: events).filterMap (seen? hides) =
          (seen? hides event).toList ++ events.filterMap (seen? hides) := by
        rw [List.filterMap_cons]
        cases seen? hides event <;> rfl
      rw [parts, List.flatMap_append, alone, ih, List.flatMap_cons]

/-- A reading has the strokes of the events it is a reading of. -/
theorem flatMap_strokes_reading (events : List Event) :
    (reading hides events).flatMap (strokes hides) = events.flatMap (strokes hides) := by
  rw [reading, flatMap_strokes_joined, flatMap_strokes_filterMap_seen]

theorem joinText_joinText (first second : Text) (events : List Event) :
    joinText first (joinText second events) = joinText (first ++ second) events := by
  cases events with
  | nil => rfl
  | cons event events =>
      cases event with
      | characters text => simp [joinText]
      | documentStart | elementOpen name attributes | elementClose name | cdata text
      | comment text => rfl

/-- Characters that stand side by side are joined to their text. -/
theorem joined_letters_append (text : Text) (events : List Event) :
    joined (letters text ++ events) =
      if solid text = [] then joined events else joinText (solid text) (joined events) := by
  unfold letters
  induction solid text with
  | nil => rfl
  | cons c later ih =>
      rw [List.map_cons, List.cons_append, joined, ih, if_neg (List.cons_ne_nil c later)]
      split
      · next none => rw [none]
      · rw [joinText_joinText, List.singleton_append]

/-- A reading is put together from strokes. -/
theorem joined_flatMap_strokes (events : List Event) :
    joined (events.flatMap (strokes hides)) = reading hides events := by
  induction events with
  | nil => rfl
  | cons event events ih =>
      rw [reading] at ih ⊢
      rw [List.flatMap_cons, List.filterMap_cons]
      cases event with
      | elementOpen name attributes | elementClose name =>
          cases hidden : hides name with
          | true => simp [strokes, seen?, hidden, ih]
          | false => simp [strokes, seen?, hidden, joined, ih]
      | characters text =>
          rw [strokes, joined_letters_append, ih]
          by_cases none : solid text = []
          · simp [seen?, none]
          · simp [seen?, none, joined]
      | documentStart | cdata text | comment text => simp [strokes, seen?, joined, ih]

/-- Readings are the same exactly if strokes are. -/
theorem reading_eq_iff {first second : List Event} :
    reading hides first = reading hides second ↔
      first.flatMap (strokes hides) = second.flatMap (strokes hides) := by
  constructor
  · intro same
    rw [← flatMap_strokes_reading, same, flatMap_strokes_reading]
  · intro same
    rw [← joined_flatMap_strokes, same, joined_flatMap_strokes]

/-! ## Strokes of tokens -/

/-- A text as tokens of one character each, blanks left out. -/
def letterTokens (text : Text) : List Token := (solid text).map fun c => .text [c]

@[simp]
theorem letterTokens_append (first second : Text) :
    letterTokens (first ++ second) = letterTokens first ++ letterTokens second := by
  rw [letterTokens, solid_append, List.map_append, ← letterTokens, ← letterTokens]

@[simp]
theorem letterTokens_nil : letterTokens [] = [] := rfl

/-- A token with every character of a text by itself. -/
def tokenStrokes : Token → List Token
  | .text body => letterTokens body
  | token => [token]

/-- The tokens of a text with every character by itself, blanks left out. -/
def tokensOf (input : Text) : List Token := (Token.tokenize input).flatMap tokenStrokes

/-- The characters of a text are built into their strokes. -/
theorem strokes_ofTokensWithin_letterTokens (stack : OpenElements) (text : Text)
    (later : List Token) :
    (ofTokensWithin stack (letterTokens text ++ later)).flatMap (strokes hides) =
      letters text ++ (ofTokensWithin stack later).flatMap (strokes hides) := by
  have blankless : ∀ c ∈ solid text, Text.isBlank c = false := by
    intro c inside
    simpa using (List.mem_filter.1 inside).2
  unfold letterTokens
  rw [letters]
  generalize solid text = shown at blankless
  induction shown with
  | nil => rfl
  | cons c shown ih =>
      have alone : letters [c] = [.characters [c]] := by
        simp [letters, solid, blankless c List.mem_cons_self]
      rw [List.map_cons, List.cons_append, ofTokensWithin, feed, if_neg (List.cons_ne_nil c []),
        List.singleton_append, List.flatMap_cons, strokes, alone,
        ih fun d inside => blankless d (List.mem_cons_of_mem c inside), List.map_cons]
      rfl

/-- Tokens are built into the same strokes when every character stands by itself. -/
theorem strokes_ofTokensWithin (stack : OpenElements) (tokens : List Token) :
    (ofTokensWithin stack (tokens.flatMap tokenStrokes)).flatMap (strokes hides) =
      (ofTokensWithin stack tokens).flatMap (strokes hides) := by
  induction tokens generalizing stack with
  | nil => rfl
  | cons token tokens ih =>
      rw [List.flatMap_cons]
      cases token with
      | text body =>
          rw [tokenStrokes, strokes_ofTokensWithin_letterTokens, ih, ofTokensWithin, feed,
            List.flatMap_append]
          by_cases none : body = []
          · rw [if_pos none, none]
            rfl
          · rw [if_neg none, List.flatMap_singleton, strokes]
      | doctype body | startTag name attributes selfClosing | endTag name | comment body
      | cdata body =>
          rw [tokenStrokes, List.singleton_append, ofTokensWithin, ofTokensWithin,
            List.flatMap_append, List.flatMap_append, ih]
          intro body same
          cases same

/-- The strokes of a text are those of its tokens. -/
theorem strokes_parse (input : Text) : (parse input).flatMap (strokes hides) =
    .documentStart :: (ofTokensWithin [] (tokensOf input)).flatMap (strokes hides) := by
  rw [parse, ofTokens, List.flatMap_cons, tokensOf, strokes_ofTokensWithin]
  rfl

end HtmlMinifier.Event

/-
# Streams that say the same

Producers are free in how they tell a document. Names may be in any case, text may come in any
number of pieces, cut wherever the producer likes, and a CDATA section is text. What all tellings
of a document have in common is its logical stream, and a writer that has been started cannot tell
a stream from its logical one: text waits until it is complete before anything looks at it, and
every name is put in lower case before anything is done with it.
-/
import HtmlMinifier.Minifier
import HtmlMinifier.Proofs.Text.Letters

namespace HtmlMinifier.Event

/-! ## The logical stream -/

/-- An event with its names in lower case. A CDATA section is read as text. -/
def folded : Event → Event
  | .elementOpen name attributes =>
      .elementOpen (Text.lower name) (attributes.map fun attr => (Text.lower attr.1, attr.2))
  | .elementClose name => .elementClose (Text.lower name)
  | .cdata text => .characters text
  | .documentStart => .documentStart
  | .characters text => .characters text
  | .comment text => .comment text

/-- Put an event in front of a stream whose runs of text are whole. Text becomes one with the run
that it stands in front of, and empty text is left out. -/
def join : Event → List Event → List Event
  | .characters [], later => later
  | .characters (c :: text), .characters more :: later => .characters (c :: text ++ more) :: later
  | event, later => event :: later

/-- What a stream says, however it says it: names in lower case, and every run of text in one
piece. -/
def logical (events : List Event) : List Event := (events.map folded).foldr join []

@[simp]
theorem logical_nil : logical [] = [] := rfl

@[simp]
theorem logical_cons (event : Event) (later : List Event) :
    logical (event :: later) = join (folded event) (logical later) := rfl

theorem join_characters_characters (first second : Text) (runs : List Event) :
    join (.characters first) (join (.characters second) runs) =
      join (.characters (first ++ second)) runs := by
  cases first with
  | nil => rfl
  | cons c first =>
      cases second with
      | nil => rw [List.append_nil, join]
      | cons d second =>
          cases runs with
          | nil => rfl
          | cons run runs =>
              cases run with
              | characters more =>
                  show Event.characters (c :: first ++ (d :: second ++ more)) :: runs =
                    .characters (c :: first ++ d :: second ++ more) :: runs
                  rw [List.append_assoc]
              | documentStart => rfl
              | elementOpen name attributes => rfl
              | elementClose name => rfl
              | cdata text => rfl
              | comment text => rfl

/-- A run of text may be cut in two anywhere. -/
theorem logical_split (earlier later : List Event) (first second : Text) :
    logical (earlier ++ .characters first :: .characters second :: later) =
      logical (earlier ++ .characters (first ++ second) :: later) := by
  induction earlier with
  | nil => exact join_characters_characters first second (logical later)
  | cons event earlier ih => exact congrArg (join (folded event)) ih

end HtmlMinifier.Event

namespace HtmlMinifier.Canonical

open Event (folded join logical)

/-! ## What a writer sees of a stream -/

/-- Attributes are put in order by their names in lower case, so their names may be in any case. -/
theorem sortedAttributes_lower (given : List (Text × Text)) :
    sortedAttributes (given.map fun attr => (Text.lower attr.1, attr.2)) =
    sortedAttributes given := by
  have sameNames : (fun attr : Text × Text => decide (attr.1 ≠ [])) ∘
      (fun attr : Text × Text => (Text.lower attr.1, attr.2)) =
        fun attr : Text × Text => decide (attr.1 ≠ []) := by
    funext attr
    exact decide_eq_decide.2 (not_congr List.map_eq_nil_iff)
  rw [sortedAttributes, List.filter_map, sameNames, List.foldl_map, sortedAttributes]
  simp only [Text.lower_lower]

namespace Writer

variable (options : Options) (writer : Writer)

/-- A writer puts names in lower case itself, and takes a CDATA section as text. -/
theorem push_folded (event : Event) :
    writer.push options (folded event) = writer.push options event := by
  cases event with
  | elementOpen name attributes =>
      have named : Text.lower name = [] ↔ name = [] := List.map_eq_nil_iff
      have attributesAlike : ∀ name : Text,
          writer.openElement options name (attributes.map fun attr => (Text.lower attr.1,
            attr.2)) =
            writer.openElement options name attributes := by
        intro name
        rw [openElement, openElement, canonicalAttributes, canonicalAttributes,
          sortedAttributes_lower]
      rw [folded, push, push, Text.lower_lower, attributesAlike]
      simp only [named]
  | elementClose name =>
      rw [folded, push, push, Text.lower_lower]
  | documentStart | characters text | cdata text | comment text => rfl

@[simp]
theorem characters_nil : writer.characters [] = writer := by
  rw [characters, List.append_nil]

/-- Text that comes in two pieces waits as one. -/
theorem characters_characters (first second : Text) :
    (writer.characters first).characters second = writer.characters (first ++ second) := by
  rw [characters, characters, characters, List.append_assoc]

end Writer

namespace Draft

variable (options : Options)

theorem pushAll_cons (draft : Draft) (event : Event) (later : List Event) :
    draft.pushAll options (event :: later) =
      (draft.push options event).bind fun next => next.pushAll options later :=
  List.foldlM_cons

/-- A started draft lets text wait. -/
theorem pushAll_characters (writer : Writer) (text : Text) (later : List Event) :
    pushAll options (some writer) (.characters text :: later) =
      pushAll options (some (writer.characters text)) later :=
  rfl

/-- Once a draft is started, joining text changes nothing. -/
theorem pushAll_join (writer : Writer) (event : Event) (later : List Event) :
    pushAll options (some writer) (join event later) = pushAll options (some writer)
    (event :: later) := by
  fun_cases join event later with
  | case1 => rw [pushAll_characters, Writer.characters_nil]
  | case2 c text more later =>
      rw [pushAll_characters, pushAll_characters, pushAll_characters, Writer.characters_characters]
  | case3 => rfl

/-- A started draft takes a logical stream as it takes the stream itself, and refuses it with the
same error. -/
theorem pushAll_logical (writer : Writer) (events : List Event) :
    pushAll options (some writer) (logical events) = pushAll options (some writer) events := by
  induction events generalizing writer with
  | nil => rfl
  | cons event later ih =>
      rw [Event.logical_cons, pushAll_join, pushAll_cons, pushAll_cons, push, push,
        Writer.push_folded]
      cases writer.push options event with
      | error error => rfl
      | ok next => exact ih next

end Draft

/-- A stream that starts a document is written as its logical stream is. -/
theorem serialize_logical (options : Options) {events : List Event}
    (started : events.head? = some .documentStart) :
    serialize options (logical events) = serialize options events := by
  obtain ⟨later, rfl⟩ := List.head?_eq_some_iff.1 started
  have begun : logical (.documentStart :: later) = .documentStart :: logical later := rfl
  rw [serialize, serialize, begun, Draft.pushAll_cons, Draft.pushAll_cons]
  show (Draft.pushAll options (some Writer.start) (logical later)).bind Draft.finish = _
  rw [Draft.pushAll_logical]
  rfl

end HtmlMinifier.Canonical

namespace HtmlMinifier.Minifier

open Event (logical)

/-- Streams that start a document and say the same are minified alike: to the same text, or with
the same error. -/
theorem minifyEvents_eq_of_logical_eq (minifier : Minifier) {first second : List Event}
    (firstStarted : first.head? = some .documentStart)
    (secondStarted : second.head? = some .documentStart)
    (same : logical first = logical second) :
    minifier.minifyEvents first = minifier.minifyEvents second := by
  have written : Canonical.serialize minifier.options first =
      Canonical.serialize minifier.options second := by
    rw [← Canonical.serialize_logical minifier.options firstStarted, same,
      Canonical.serialize_logical minifier.options secondStarted]
  rw [minifyEvents, minifyEvents, written]

/-- A reference and a run of blanks are cut in two, a CDATA section stands in for text, and the
names are in capitals. -/
theorem minifyEvents_retold :
    (Minifier.ofSettings {}).minifyEvents
        [.documentStart, .elementOpen "P".toList [("ID".toList, "x".toList)],
          .characters "a &a".toList, .characters [], .cdata "mp; ".toList,
          .characters "  b".toList,
          .elementClose "P".toList] =
      (Minifier.ofSettings {}).minifyEvents
        [.documentStart, .elementOpen "p".toList [("id".toList, "x".toList)],
          .characters "a &amp;   b".toList, .elementClose "p".toList] :=
  minifyEvents_eq_of_logical_eq (Minifier.ofSettings {}) rfl rfl (by decide)

end HtmlMinifier.Minifier

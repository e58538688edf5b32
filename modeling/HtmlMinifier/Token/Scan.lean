/-
# Reading markup as tokens

`tokenize` cuts the input into constructs from the left. A construct is a comment, a CDATA section,
a doctype, an end tag, a start tag or a run of text, and each reader hands on what follows the
construct it has read. Nothing is an error: a construct without its terminator runs to the end of
the input, and a `<` that opens nothing is text.

The lemmas say that every reader hands on less than it was given, which is what makes `tokenize`
end.
-/
import HtmlMinifier.Element

namespace HtmlMinifier

/-- One piece of markup as its author wrote it. Names are in lower case, but character references
in text and in attribute values are left alone: they are decoded once, when the canonical document
is written, because decoding here as well would decode them twice. A value of `none` belongs to an
attribute that was written without one, which is not the same as an empty value. -/
inductive Token where
  | doctype (body : Text)
  | startTag (name : Text) (attributes : List (Text × Option Text)) (selfClosing : Bool)
  | endTag (name : Text)
  | comment (body : Text)
  | cdata (body : Text)
  | text (body : Text)
  deriving DecidableEq, Repr

namespace Token

/-- The characters of a tag name. -/
def isNameChar (c : Char) : Bool :=
  c.isAlphanum || c = '-' || c = '_' || c = ':'

/-- The characters of an attribute name: everything but the blanks and what has a meaning of its
own inside a tag. -/
def isAttributeChar (c : Char) : Bool :=
  !(Text.isBlank c || c = '/' || c = '>' || c = '=' || c = '"' || c = '\'' || c = '<')

/-! ## What a `<` opens -/

/-- The kinds of construct that begin with `<`. -/
inductive Opening where
  | comment
  | cdata
  | doctype
  | bogusComment
  | endTag
  | startTag
  deriving DecidableEq, Repr

/-- The kind of construct at the head of a text, if one begins there. A `<` before anything else,
such as a blank or a digit, begins none. -/
def Opening.of? : Text → Option Opening
  | '<' :: c :: rest =>
      if c = '!' then
        if Text.startsFolded "--".toList rest then some .comment
        else if Text.startsFolded "[CDATA[".toList rest then some .cdata
        else if Text.startsFolded "doctype".toList rest then some .doctype
        else some .bogusComment
      else if c = '?' then some .bogusComment
      else if c = '/' then
        if (rest.take 1).any Char.isAlpha then some .endTag else none
      else if c.isAlpha then some .startTag
      else none
  | _ => none

/-- The longest run of text at the head of the input, up to the first construct. -/
def readText : Text → Text × Text
  | [] => ([], [])
  | c :: input =>
      if (Opening.of? (c :: input)).isSome then ([], c :: input)
      else
        let later := readText input
        (c :: later.1, later.2)

/-! ## Start tags -/

/-- An attribute value without quotes ends at a blank, at `>` and at a `/>` that closes the tag. -/
def readUnquoted : Text → Text × Text
  | [] => ([], [])
  | '/' :: '>' :: input => ([], '/' :: '>' :: input)
  | c :: input =>
      if Text.isBlank c || c = '>' then ([], c :: input)
      else
        let later := readUnquoted input
        (c :: later.1, later.2)

/-- The value after the `=` of an attribute. A quote runs to the next quote of its kind. -/
def readValue (input : Text) : Text × Text :=
  match Text.trimStart input with
  | '"' :: quoted => Text.splitAt ['"'] quoted
  | '\'' :: quoted => Text.splitAt ['\''] quoted
  | unquoted => readUnquoted unquoted

/-- An attribute at the head of the input: its name and, after a `=`, its value. Blanks may stand
before and after the `=`. -/
def readAttribute (input : Text) : (Text × Option Text) × Text :=
  let name := Text.lower (input.takeWhile isAttributeChar)
  match Text.trimStart (input.dropWhile isAttributeChar) with
  | '=' :: valued =>
      let value := readValue valued
      ((name, some value.1), value.2)
  | rest => ((name, none), rest)

theorem length_trimStart_le (input : Text) : (Text.trimStart input).length ≤ input.length :=
  (List.dropWhile_suffix Text.isBlank).length_le

theorem length_readUnquoted_le (input : Text) : (readUnquoted input).2.length ≤ input.length := by
  fun_induction readUnquoted input with
  | case1 => simp
  | case2 => simp
  | case3 => simp
  | case4 c input _ _ later ih => simp only [later, List.length_cons]; omega

theorem length_readValue_le (input : Text) : (readValue input).2.length ≤ input.length := by
  have trimmed := length_trimStart_le input
  unfold readValue
  split
  · next quoted same =>
      have := Text.length_splitAt_le ['"'] quoted
      simp only [same, List.length_cons] at trimmed
      omega
  · next quoted same =>
      have := Text.length_splitAt_le ['\''] quoted
      simp only [same, List.length_cons] at trimmed
      omega
  · have := length_readUnquoted_le (Text.trimStart input)
    omega

theorem length_readAttribute_le (input : Text) :
    (readAttribute input).2.length ≤ (input.dropWhile isAttributeChar).length := by
  have trimmed := length_trimStart_le (input.dropWhile isAttributeChar)
  unfold readAttribute
  split
  · next valued same =>
      have := length_readValue_le valued
      simp only [same, List.length_cons] at trimmed
      dsimp only
      omega
  · exact trimmed

/-- What stands between the name of a start tag and its end: the attributes in order, duplicates
included, whether the tag closes itself, and the input after the tag. -/
structure TagInside where
  attributes : List (Text × Option Text)
  selfClosing : Bool
  rest : Text

/-- Read a start tag from behind its name. A character that begins no attribute, such as a stray
quote or `=`, is skipped. -/
def readAttributes (input : Text) : TagInside :=
  match _same : Text.trimStart input with
  | [] => ⟨[], false, []⟩
  | '>' :: rest => ⟨[], false, rest⟩
  | '/' :: '>' :: rest => ⟨[], true, rest⟩
  | c :: rest =>
      if _named : isAttributeChar c = true then
        let found := readAttribute (c :: rest)
        let later := readAttributes found.2
        ⟨found.1 :: later.attributes, later.selfClosing, later.rest⟩
      else readAttributes rest
termination_by input.length
decreasing_by
  · have trimmed := length_trimStart_le input
    have shorter := length_readAttribute_le (c :: rest)
    have tail := (List.dropWhile_suffix (l := rest) isAttributeChar).length_le
    simp only [_same, List.length_cons] at trimmed
    simp only [List.dropWhile_cons, _named, if_true] at shorter
    omega
  · have trimmed := length_trimStart_le input
    simp only [_same, List.length_cons] at trimmed
    omega

theorem length_readAttributes_le (input : Text) :
    (readAttributes input).rest.length ≤ input.length := by
  have trimmed := length_trimStart_le input
  fun_induction readAttributes input with
  | case1 input same => simp
  | case2 input rest same => simp only [same, List.length_cons] at trimmed; dsimp only; omega
  | case3 input rest same => simp only [same, List.length_cons] at trimmed; dsimp only; omega
  | case4 input c rest _ _ same named found later ih =>
      have shorter := length_readAttribute_le (c :: rest)
      have tail := (List.dropWhile_suffix (l := rest) isAttributeChar).length_le
      have further := ih (length_trimStart_le _)
      simp only [same, List.length_cons] at trimmed
      simp only [List.dropWhile_cons, named, if_true] at shorter
      simp only [later, found] at *
      omega
  | case5 input c rest _ _ same _ ih =>
      have further := ih (length_trimStart_le _)
      simp only [same, List.length_cons] at trimmed
      omega

/-! ## Verbatim bodies -/

/-- What follows the end tag of `name` at the head of the input. Only blanks may stand between the
name and the `>`. -/
def dropEndTag? (name input : Text) : Option Text :=
  match Text.dropFolded? ('<' :: '/' :: name) input with
  | none => none
  | some inside =>
      match Text.trimStart inside with
      | '>' :: rest => some rest
      | _ => none

/-- The body of a verbatim element up to its first end tag, and what follows that tag. Without an
end tag the body is all that is left. -/
def readVerbatim (name : Text) : Text → Text × Text
  | [] => ([], [])
  | c :: input =>
      match dropEndTag? name (c :: input) with
      | some rest => ([], rest)
      | none =>
          let later := readVerbatim name input
          (c :: later.1, later.2)

theorem length_of_dropEndTag? {name input rest : Text}
    (found : dropEndTag? name input = some rest) :
    rest.length < input.length := by
  unfold dropEndTag? at found
  split at found
  · simp at found
  · next inside literal =>
      have dropped := Text.length_of_dropFolded? literal
      have trimmed := length_trimStart_le inside
      split at found
      · next rest' same =>
          simp only [Option.some.injEq] at found
          subst found
          simp only [same, List.length_cons] at trimmed dropped
          omega
      · simp at found

theorem length_readVerbatim_le (name input : Text) :
    (readVerbatim name input).2.length ≤ input.length := by
  induction input with
  | nil => simp [readVerbatim]
  | cons c input ih =>
      simp only [readVerbatim]
      split
      · next rest found => have := length_of_dropEndTag? found; dsimp only; omega
      · simp only [List.length_cons]; omega

/-! ## Constructs -/

/-- A start tag, with the body and the end tag of a verbatim element. `input` begins at the name. A
void element counts as closing itself, however it is written. -/
def readStartTag (input : Text) : List Token × Text :=
  let name := Text.lower (input.takeWhile isNameChar)
  let inside := readAttributes (input.dropWhile isNameChar)
  let tag := startTag name inside.attributes (inside.selfClosing || Element.isVoid name)
  if Element.isVerbatim name && !inside.selfClosing then
    let body := readVerbatim name inside.rest
    (tag :: (if body.1 = [] then [] else [text body.1]) ++ [endTag name], body.2)
  else ([tag], inside.rest)

/-- An end tag runs to the first `>`; what stands between its name and that `>` is ignored. `input`
begins at the name. -/
def readEndTag (input : Text) : List Token × Text :=
  ([endTag (Text.lower (input.takeWhile isNameChar))],
    (Text.splitAt ['>'] (input.dropWhile isNameChar)).2)

/-- The tokens of the first construct of the input, and the input after it. -/
def readConstruct (input : Text) : List Token × Text :=
  match Opening.of? input with
  | none =>
      let run := readText input
      ([text run.1], run.2)
  | some .comment =>
      let body := Text.splitAt "-->".toList (input.drop 4)
      ([comment body.1], body.2)
  | some .cdata =>
      let body := Text.splitAt "]]>".toList (input.drop 9)
      ([cdata body.1], body.2)
  | some .doctype =>
      let body := Text.splitAt ['>'] (input.drop 2)
      ([doctype (Text.trimWhiteSpace body.1)], body.2)
  | some .bogusComment =>
      let body := Text.splitAt ['>'] (input.drop 2)
      ([comment body.1], body.2)
  | some .endTag => readEndTag (input.drop 2)
  | some .startTag => readStartTag (input.drop 1)

theorem length_readText_le (input : Text) : (readText input).2.length ≤ input.length := by
  induction input with
  | nil => simp [readText]
  | cons c input ih =>
      simp only [readText]
      split
      · simp
      · simp only [List.length_cons]; omega

theorem length_readStartTag_le (input : Text) : (readStartTag input).2.length ≤ input.length := by
  have names := (List.dropWhile_suffix (l := input) isNameChar).length_le
  have inside := length_readAttributes_le (input.dropWhile isNameChar)
  simp only [readStartTag]
  split
  · have := length_readVerbatim_le (Text.lower (input.takeWhile isNameChar))
      (readAttributes (input.dropWhile isNameChar)).rest
    dsimp only
    omega
  · dsimp only
    omega

theorem length_readEndTag_le (input : Text) : (readEndTag input).2.length ≤ input.length := by
  have names := (List.dropWhile_suffix (l := input) isNameChar).length_le
  have := Text.length_splitAt_le ['>'] (input.dropWhile isNameChar)
  simp only [readEndTag]
  omega

/-- A construct that begins with `<` has more characters than its `<`. -/
theorem two_le_length_of_opening {input : Text} {opening : Opening}
    (opens : Opening.of? input = some opening) : 2 ≤ input.length := by
  match input with
  | [] => simp [Opening.of?] at opens
  | [_] => simp [Opening.of?] at opens
  | _ :: _ :: _ => simp

/-- Every construct takes at least one character. -/
theorem length_readConstruct_lt (c : Char) (input : Text) :
    (readConstruct (c :: input)).2.length < (c :: input).length := by
  cases opens : Opening.of? (c :: input) with
  | none =>
      have := length_readText_le input
      simp only [readConstruct, opens, readText, Option.isSome_none, Bool.false_eq_true, if_false,
        List.length_cons]
      omega
  | some opening =>
      have longer := two_le_length_of_opening opens
      cases opening with
      | comment =>
          have := Text.length_splitAt_le "-->".toList ((c :: input).drop 4)
          simp only [readConstruct, opens, List.length_drop] at *
          omega
      | cdata =>
          have := Text.length_splitAt_le "]]>".toList ((c :: input).drop 9)
          simp only [readConstruct, opens, List.length_drop] at *
          omega
      | doctype | bogusComment =>
          have := Text.length_splitAt_le ['>'] ((c :: input).drop 2)
          simp only [readConstruct, opens, List.length_drop] at *
          omega
      | endTag =>
          have := length_readEndTag_le ((c :: input).drop 2)
          simp only [readConstruct, opens, List.length_drop] at *
          omega
      | startTag =>
          have := length_readStartTag_le ((c :: input).drop 1)
          simp only [readConstruct, opens, List.length_drop] at *
          omega

/-- The tokens of a text. -/
def tokenize : Text → List Token
  | [] => []
  | c :: input =>
      (readConstruct (c :: input)).1 ++ tokenize (readConstruct (c :: input)).2
termination_by input => input.length
decreasing_by exact length_readConstruct_lt c input

end Token

end HtmlMinifier

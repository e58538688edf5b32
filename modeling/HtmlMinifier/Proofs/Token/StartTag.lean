/-
# Start tags are read back as they are written

Every attribute is written behind one space, and what follows it is another space or the bracket
that ends the tag, so each reader stops where the writer did. A value must not end with a slash:
without quotes and at the end of its tag it would be read as the end of a tag that closes itself.
-/
import HtmlMinifier.Canonical.Attribute
import HtmlMinifier.Proofs.Text.Blanks
import HtmlMinifier.Proofs.Text.Occurrence
import HtmlMinifier.Proofs.Token.Name

namespace HtmlMinifier.Token

open Canonical (needsQuotes renderAttribute)

/-! ## What is skipped -/

theorem isBlank_of_isAttributeChar {c : Char} (named : isAttributeChar c = true) :
    Text.isBlank c = false := by
  unfold isAttributeChar at named
  cases blank : Text.isBlank c with
  | false => rfl
  | true =>
      rw [blank] at named
      exact absurd named (by simp)

theorem trimStart_cons {c : Char} (solid : Text.isBlank c = false) (text : Text) :
    Text.trimStart (c :: text) = c :: text := by
  rw [Text.trimStart, List.dropWhile_cons_of_neg (by simp [solid])]

@[simp]
theorem trimStart_space (text : Text) : Text.trimStart (' ' :: text) = Text.trimStart text := rfl

/-- What is skipped once is skipped for good. -/
theorem trimStart_trimStart (text : Text) :
    Text.trimStart (Text.trimStart text) = Text.trimStart text :=
  List.dropWhile_idempotent Text.isBlank text

/-- Blanks in front of an attribute are skipped. -/
theorem readAttributes_congr {first second : Text}
    (same : Text.trimStart first = Text.trimStart second) :
    readAttributes first = readAttributes second := by
  rw [readAttributes.eq_def first, readAttributes.eq_def second, same]

/-- A bracket ends the tag. -/
theorem readAttributes_close (rest : Text) : readAttributes ('>' :: rest) = ⟨[], false, rest⟩ := by
  rw [readAttributes.eq_def, trimStart_cons (by decide)]
  rfl

/-- An attribute is read where its name begins. -/
theorem readAttributes_named {c : Char} (named : isAttributeChar c = true) (rest : Text) :
    readAttributes (c :: rest) =
      let found := readAttribute (c :: rest)
      let later := readAttributes found.2
      ⟨found.1 :: later.attributes, later.selfClosing, later.rest⟩ := by
  have begins := trimStart_cons (isBlank_of_isAttributeChar named) rest
  rw [readAttributes.eq_def]
  split
  · next same =>
      rw [begins] at same
      cases same
  · next same =>
      rw [begins] at same
      cases same
      cases named
  · next same =>
      rw [begins] at same
      cases same
      cases named
  · next same =>
      rw [begins] at same
      cases same
      rw [dif_pos named]

/-! ## Values -/

/-- A value without quotes is read up to what stops it, unless its last slash and a bracket behind
it make up the end of a tag. -/
theorem readUnquoted_append {value stop : Text}
    (plain : ∀ c ∈ value, Text.isBlank c = false ∧ c ≠ '>')
    (stops : readUnquoted stop = ([], stop))
    (noSlash : stop.head? = some '>' → value.getLast? ≠ some '/') :
    readUnquoted (value ++ stop) = (value, stop) := by
  induction value with
  | nil => exact stops
  | cons d value ih =>
      have goesOn : readUnquoted (value ++ stop) = (value, stop) := by
        apply ih
        · intro e inside
          exact plain e (List.mem_cons_of_mem d inside)
        · intro bracket last
          apply noSlash bracket
          rw [List.getLast?_cons, last]
          rfl
      obtain ⟨solid, noBracket⟩ := plain d List.mem_cons_self
      rw [List.cons_append, readUnquoted.eq_def]
      split
      · next same => cases same
      · next same =>
          -- The bracket behind the slash would be in the value, or the slash would end it.
          exfalso
          obtain ⟨slash, behind⟩ := List.cons.inj same
          cases value with
          | nil =>
              rw [List.nil_append] at behind
              exact noSlash (by rw [behind]; rfl) (by rw [slash]; rfl)
          | cons e value => exact (plain e (by simp)).2 (List.cons.inj behind).1
      · next same =>
          cases same
          have inside : ¬(Text.isBlank d || decide (d = '>')) = true := by
            rw [solid, Bool.false_or, decide_eq_true_iff]
            exact noBracket
          rw [if_neg inside, goesOn]

/-- A blank or a bracket stops a value without quotes. -/
theorem readUnquoted_of_stops {c : Char} (stops : Text.isBlank c = true ∨ c = '>') (rest : Text) :
    readUnquoted (c :: rest) = ([], c :: rest) := by
  have ends : (Text.isBlank c || c = '>') = true := by
    rw [Bool.or_eq_true, decide_eq_true_iff]
    exact stops
  rw [readUnquoted.eq_def]
  split
  · next same => cases same
  · next same => rw [← same]
  · next same =>
      cases same
      rw [if_pos ends]

/-- The characters of a value that is written without quotes. -/
theorem plain_of_not_needsQuotes {value : Text} (unquoted : needsQuotes value = false) :
    value ≠ [] ∧ ∀ c ∈ value, Text.isBlank c = false ∧ c ≠ '>' ∧ c ≠ '"' ∧ c ≠ '\'' := by
  rw [needsQuotes, Bool.or_eq_false_iff, decide_eq_false_iff_not, List.any_eq_false] at unquoted
  obtain ⟨some, plain⟩ := unquoted
  refine ⟨some, fun c inside => ?_⟩
  have simple := plain c inside
  refine ⟨?_, ?_, ?_, ?_⟩
  · cases blank : Text.isBlank c with
    | false => rfl
    | true => exact absurd (by simp [blank]) simple
  · rintro rfl
    exact simple rfl
  · rintro rfl
    exact simple rfl
  · rintro rfl
    exact simple rfl

/-- A value that does not begin with a quote is read without quotes. -/
theorem readValue_cons {c : Char} (solid : Text.isBlank c = false) (noDouble : c ≠ '"')
    (noSingle : c ≠ '\'') (rest : Text) : readValue (c :: rest) = readUnquoted (c :: rest) := by
  rw [readValue, trimStart_cons solid]
  split
  · next same => exact absurd (List.cons.inj same).1 noDouble
  · next same => exact absurd (List.cons.inj same).1 noSingle
  · rfl

/-- A value as it is written: in quotes if it must be. -/
def valueText (value : Text) : Text :=
  if needsQuotes value then '"' :: value ++ ['"'] else value

/-- A written value is read up to what ends it. -/
theorem readValue_append {value stop : Text} (noQuote : ∀ c ∈ value, c ≠ '"')
    (stops : readUnquoted stop = ([], stop))
    (noSlash : needsQuotes value = false → stop.head? = some '>' → value.getLast? ≠ some '/') :
    readValue (valueText value ++ stop) = (value, stop) := by
  rw [valueText]
  cases quoted : needsQuotes value with
  | true =>
      have free : ∀ d ∈ value, d.toLower ≠ ('"' : Char).toLower := by
        intro d inside same
        exact noQuote d inside ((Text.toLower_eq_iff (by decide) (by decide) d).1 same)
      have parts : '"' :: value ++ ['"'] ++ stop = '"' :: (value ++ '"' :: stop) := by simp
      rw [if_pos rfl, parts, readValue, trimStart_cons (by decide)]
      exact Text.splitAt_singleton_append stop free
  | false =>
      obtain ⟨some, each⟩ := plain_of_not_needsQuotes quoted
      have whole := readUnquoted_append (fun d inside => ⟨(each d inside).1, (each d inside).2.1⟩)
        stops (noSlash quoted)
      obtain ⟨d, later, rfl⟩ := List.exists_cons_of_ne_nil some
      obtain ⟨solid, _, noDouble, noSingle⟩ := each d List.mem_cons_self
      rw [if_neg Bool.false_ne_true, List.cons_append, readValue_cons solid noDouble noSingle,
        ← List.cons_append, whole]

/-! ## Attributes -/

/-- The attributes that a writer writes. -/
structure IsEncodedAttribute (attr : Text × Option Text) : Prop where
  named : IsAttributeName attr.1
  noQuote : ∀ value, attr.2 = some value → ∀ c ∈ value, c ≠ '"'
  noBracket : ∀ value, attr.2 = some value → ∀ c ∈ value, c ≠ '<'

/-- The attributes that are read back as they are written. -/
structure IsWrittenAttribute (attr : Text × Option Text) :
    Prop extends IsEncodedAttribute attr where
  noSlash : ∀ value, attr.2 = some value → value.getLast? ≠ some '/'

/-- An attribute as it is written behind its space. -/
def attributeText (attr : Text × Option Text) : Text :=
  match attr.2 with
  | none => attr.1
  | some value => attr.1 ++ '=' :: valueText value

theorem renderAttribute_eq_cons (attr : Text × Option Text) :
    renderAttribute attr = ' ' :: attributeText attr := by
  obtain ⟨name, value⟩ := attr
  cases value with
  | none => rfl
  | some value =>
      simp only [renderAttribute, attributeText, valueText]
      split
      · simp
      · simp

/-- No bracket is written in an attribute. -/
theorem IsEncodedAttribute.ne_bracket {attr : Text × Option Text}
    (encoded : IsEncodedAttribute attr) : ∀ c ∈ attributeText attr, c ≠ '<' := by
  have inName : ∀ c ∈ attr.1, c ≠ '<' := by
    rintro c inside rfl
    exact absurd (encoded.named.chars '<' inside) (by decide)
  intro c inside
  unfold attributeText at inside
  split at inside
  · exact inName c inside
  · next value same =>
      rcases List.mem_append.1 inside with name | behind
      · exact inName c name
      · have inValue := encoded.noBracket value same c
        rw [valueText] at behind
        split at behind
        · simp only [List.cons_append, List.mem_cons, List.mem_append, List.not_mem_nil,
            or_false] at behind
          rcases behind with rfl | rfl | value | rfl
          · decide
          · decide
          · exact inValue value
          · decide
        · rcases List.mem_cons.1 behind with rfl | value
          · decide
          · exact inValue value

/-- What stands behind the name of a written tag: its attributes and the bracket. -/
def tagTail (attributes : List (Text × Option Text)) (rest : Text) : Text :=
  attributes.flatMap renderAttribute ++ '>' :: rest

@[simp]
theorem tagTail_nil (rest : Text) : tagTail [] rest = '>' :: rest := rfl

@[simp]
theorem tagTail_cons (attr : Text × Option Text) (attributes : List (Text × Option Text))
    (rest : Text) :
    tagTail (attr :: attributes) rest = ' ' ::
    (attributeText attr ++ tagTail attributes rest) := by
  rw [tagTail, List.flatMap_cons, renderAttribute_eq_cons, List.append_assoc, ← tagTail,
    List.cons_append]

/-- An attribute begins with a character of its name. -/
theorem IsEncodedAttribute.attributeText_eq_cons {attr : Text × Option Text}
    (written : IsEncodedAttribute attr) :
    ∃ c later, attributeText attr = c :: later ∧ isAttributeChar c = true := by
  obtain ⟨c, name, same⟩ := List.exists_cons_of_ne_nil written.named.some
  have named : isAttributeChar c = true := written.named.chars c (by rw [same]; simp)
  unfold attributeText
  split
  · exact ⟨c, name, same, named⟩
  · rw [same]
    exact ⟨c, _, rfl, named⟩

/-- What follows an attribute begins with a space or a bracket, and behind blanks it goes on with
anything but a value. -/
theorem tagTail_eq_cons {attributes : List (Text × Option Text)}
    (safe : ∀ attr ∈ attributes, IsEncodedAttribute attr) (rest : Text) :
    (∃ c later, tagTail attributes rest = c :: later ∧ (Text.isBlank c = true ∨ c = '>')) ∧
      ∃ c later, Text.trimStart (tagTail attributes rest) = c :: later ∧ c ≠ '=' := by
  cases attributes with
  | nil => exact ⟨⟨'>', rest, rfl, .inr rfl⟩, ⟨'>', rest, rfl, by decide⟩⟩
  | cons attr attributes =>
      obtain ⟨c, later, same, named⟩ := (safe attr List.mem_cons_self).attributeText_eq_cons
      refine ⟨⟨' ', _, tagTail_cons attr attributes rest, .inl rfl⟩, ?_⟩
      rw [tagTail_cons, trimStart_space, same, List.cons_append,
        trimStart_cons (isBlank_of_isAttributeChar named)]
      refine ⟨c, _, rfl, ?_⟩
      rintro rfl
      exact absurd named (by decide)

/-- A written attribute is read back, and what follows it is left, blanks aside. Only at the end of
a tag can a slash at the end of its value be taken for another thing. -/
theorem readAttribute_append {attr : Text × Option Text} (written : IsEncodedAttribute attr)
    {attributes : List (Text × Option Text)}
    (safe : ∀ later ∈ attributes, IsEncodedAttribute later)
    (noSlash : attributes = [] → ∀ value, attr.2 = some value → needsQuotes value = false →
      value.getLast? ≠ some '/') (rest : Text) :
    (readAttribute (attributeText attr ++ tagTail attributes rest)).1 = attr ∧
      Text.trimStart (readAttribute (attributeText attr ++ tagTail attributes rest)).2 =
        Text.trimStart (tagTail attributes rest) := by
  obtain ⟨name, value⟩ := attr
  obtain ⟨named, noQuote, _⟩ := written
  obtain ⟨⟨c, later, same, ends⟩, d, behind, trimmed, noValue⟩ := tagTail_eq_cons safe rest
  cases value with
  | none =>
      have stops : ∀ e, (tagTail attributes rest).head? = some e → isAttributeChar e = false := by
        intro e first
        rw [same] at first
        cases first
        rcases ends with blank | rfl
        · rw [isAttributeChar, blank]
          rfl
        · decide
      obtain ⟨taken, dropped⟩ := Text.takeWhile_append_of_stops named.chars stops
      change (readAttribute (name ++ tagTail attributes rest)).1 = _ ∧
        Text.trimStart (readAttribute (name ++ tagTail attributes rest)).2 = _
      simp only [readAttribute, taken, dropped, named.lower, trimmed]
      split
      · next equals => exact absurd (List.cons.inj equals).1 noValue
      · refine ⟨rfl, ?_⟩
        rw [← trimmed, trimStart_trimStart]
  | some value =>
      have stops : ∀ e, ('=' :: (valueText value ++ tagTail attributes rest)).head? = some e →
          isAttributeChar e = false := by
        intro e first
        cases first
        decide
      obtain ⟨taken, dropped⟩ := Text.takeWhile_append_of_stops named.chars stops
      have free : needsQuotes value = false → (tagTail attributes rest).head? = some '>' →
          value.getLast? ≠ some '/' := by
        intro unquoted bracket
        cases attributes with
        | nil => exact noSlash rfl value rfl unquoted
        | cons attr attributes =>
            rw [tagTail_cons] at bracket
            cases bracket
      have found := readValue_append (noQuote value rfl)
        (by rw [same]; exact readUnquoted_of_stops ends later) free
      have parts : attributeText (name, some value) ++ tagTail attributes rest =
          name ++ '=' :: (valueText value ++ tagTail attributes rest) := by
        rw [attributeText, List.append_assoc, List.cons_append]
      rw [parts]
      have marked := fun text => trimStart_cons (show Text.isBlank '=' = false by decide) text
      simp only [readAttribute, taken, dropped, named.lower, marked, found]
      exact ⟨trivial, trivial⟩

/-- The attributes of a written tag begin with the first of them. -/
theorem readAttributes_tagTail_cons {attr : Text × Option Text} (written : IsEncodedAttribute attr)
    {attributes : List (Text × Option Text)}
    (safe : ∀ later ∈ attributes, IsEncodedAttribute later)
    (noSlash : attributes = [] → ∀ value, attr.2 = some value → needsQuotes value = false →
      value.getLast? ≠ some '/') (rest : Text) :
    readAttributes (tagTail (attr :: attributes) rest) =
      let later := readAttributes (tagTail attributes rest)
      ⟨attr :: later.attributes, later.selfClosing, later.rest⟩ := by
  obtain ⟨found, behind⟩ := readAttribute_append written safe noSlash rest
  obtain ⟨c, text, same, named⟩ := written.attributeText_eq_cons
  have skipped : readAttributes (tagTail (attr :: attributes) rest) =
      readAttributes (attributeText attr ++ tagTail attributes rest) := by
    apply readAttributes_congr
    rw [tagTail_cons, trimStart_space]
  rw [same] at found behind skipped
  rw [skipped, List.cons_append, readAttributes_named named]
  rw [List.cons_append] at found behind
  simp only [found, readAttributes_congr behind]

/-! ## A slash at the end of a tag -/

/-- A value without quotes loses a slash right in front of the bracket, and the tag closes
itself. -/
theorem readAttributes_slash {name value : Text} (named : IsAttributeName name)
    (unquoted : needsQuotes (value ++ ['/']) = false) (rest : Text) :
    readAttributes (tagTail [(name, some (value ++ ['/']))] rest) =
      ⟨[(name, some value)], true, rest⟩ := by
  have closes : readAttributes ('/' :: '>' :: rest) = ⟨[], true, rest⟩ := by
    rw [readAttributes.eq_def, trimStart_cons (by decide)]
    rfl
  have stops : readUnquoted ('/' :: '>' :: rest) = ([], '/' :: '>' :: rest) := by
    rw [readUnquoted.eq_def]
    rfl
  obtain ⟨_, each⟩ := plain_of_not_needsQuotes unquoted
  have found : readValue (value ++ '/' :: '>' :: rest) = (value, '/' :: '>' :: rest) := by
    cases value with
    | nil =>
        rw [List.nil_append, readValue_cons (by decide) (by decide) (by decide), stops]
    | cons c value =>
        obtain ⟨solid, _, noDouble, noSingle⟩ := each c (by simp)
        have plain : ∀ d ∈ c :: value, Text.isBlank d = false ∧ d ≠ '>' := by
          intro d inside
          obtain ⟨solid, noBracket, _⟩ := each d (List.mem_append_left _ inside)
          exact ⟨solid, noBracket⟩
        rw [List.cons_append, readValue_cons solid noDouble noSingle, ← List.cons_append,
          readUnquoted_append plain stops (fun bracket => by cases bracket)]
  have equals : ∀ e, ('=' :: (value ++ '/' :: '>' :: rest)).head? = some e →
      isAttributeChar e = false := by
    intro e first
    cases first
    decide
  obtain ⟨taken, dropped⟩ := Text.takeWhile_append_of_stops named.chars equals
  have marked := fun text => trimStart_cons (show Text.isBlank '=' = false by decide) text
  have read : readAttribute (name ++ '=' :: (value ++ '/' :: '>' :: rest)) =
      ((name, some value), '/' :: '>' :: rest) := by
    simp only [readAttribute, taken, dropped, named.lower, marked, found]
  have parts : tagTail [(name, some (value ++ ['/']))] rest =
      ' ' :: (name ++ '=' :: (value ++ '/' :: '>' :: rest)) := by
    have asIs : valueText (value ++ ['/']) = value ++ ['/'] := by
      rw [valueText, unquoted, if_neg Bool.false_ne_true]
    have written : attributeText (name, some (value ++ ['/'])) = name ++ '=' ::
        (value ++ ['/']) := by
      rw [attributeText]
      exact congrArg (fun text => name ++ '=' :: text) asIs
    rw [tagTail_cons, tagTail_nil, written]
    simp
  obtain ⟨c, text, same⟩ := List.exists_cons_of_ne_nil named.some
  have begins : isAttributeChar c = true := named.chars c (by rw [same]; simp)
  rw [parts, readAttributes_congr (trimStart_space _)]
  rw [same, List.cons_append] at read ⊢
  rw [readAttributes_named begins, read]
  simp only [closes]

/-- What the last attribute is does not matter to those in front of it. -/
theorem readAttributes_tagTail_concat {front : List (Text × Option Text)}
    {last : Text × Option Text}
    (encoded : ∀ attr ∈ front ++ [last], IsEncodedAttribute attr) (rest : Text) :
    readAttributes (tagTail (front ++ [last]) rest) =
      let later := readAttributes (tagTail [last] rest)
      ⟨front ++ later.attributes, later.selfClosing, later.rest⟩ := by
  induction front with
  | nil => rfl
  | cons attr front ih =>
      have behind : ∀ other ∈ front ++ [last], IsEncodedAttribute other := fun other member =>
        encoded other (List.mem_cons_of_mem attr member)
      rw [List.cons_append, readAttributes_tagTail_cons (encoded attr List.mem_cons_self) behind
        (fun none => absurd none (by simp)), ih behind]
      rfl

/-- The last of the attributes of a tag is written without quotes and ends with a slash. -/
def EndsInSlash (attributes : List (Text × Option Text)) : Prop :=
  ∃ front name value, attributes = front ++ [(name, some (value ++ ['/']))] ∧
    needsQuotes (value ++ ['/']) = false

/-- The attributes of a tag that does not end in a slash are read back. -/
theorem readAttributes_of_not_endsInSlash {attributes : List (Text × Option Text)}
    (encoded : ∀ attr ∈ attributes, IsEncodedAttribute attr) (noSlash : ¬EndsInSlash attributes)
    (rest : Text) : readAttributes (tagTail attributes rest) = ⟨attributes, false, rest⟩ := by
  rcases List.eq_nil_or_concat attributes with rfl | ⟨front, last, rfl⟩
  · exact readAttributes_close rest
  · rw [List.concat_eq_append] at encoded noSlash ⊢
    have written : IsEncodedAttribute last := encoded last (by simp)
    have alone : readAttributes (tagTail [last] rest) = ⟨[last], false, rest⟩ := by
      rw [readAttributes_tagTail_cons written (List.forall_mem_nil _), tagTail_nil,
        readAttributes_close]
      intro _ value same unquoted ends
      obtain ⟨text, rfl⟩ := List.getLast?_eq_some_iff.1 ends
      obtain ⟨name, _⟩ := last
      cases same
      exact noSlash ⟨front, name, text, rfl, unquoted⟩
    rw [readAttributes_tagTail_concat encoded, alone]

/-- Of a tag that ends in a slash the last value loses it, and the tag closes itself. -/
theorem readAttributes_of_slash {front : List (Text × Option Text)} {name value : Text}
    (encoded : ∀ attr ∈ front ++ [(name, some (value ++ ['/']))], IsEncodedAttribute attr)
    (unquoted : needsQuotes (value ++ ['/']) = false) (rest : Text) :
    readAttributes (tagTail (front ++ [(name, some (value ++ ['/']))]) rest) =
      ⟨front ++ [(name, some value)], true, rest⟩ := by
  have written : IsEncodedAttribute (name, some (value ++ ['/'])) := encoded _ (by simp)
  rw [readAttributes_tagTail_concat encoded, readAttributes_slash written.named unquoted]

/-- The attributes of a tag without a value that ends with a slash are read back. -/
theorem readAttributes_tagTail {attributes : List (Text × Option Text)}
    (safe : ∀ attr ∈ attributes, IsWrittenAttribute attr) (rest : Text) :
    readAttributes (tagTail attributes rest) = ⟨attributes, false, rest⟩ := by
  refine readAttributes_of_not_endsInSlash (fun attr member =>
    (safe attr member).toIsEncodedAttribute)
    ?_ rest
  rintro ⟨front, name, value, rfl, _⟩
  have written : IsWrittenAttribute (name, some (value ++ ['/'])) := safe _ (by simp)
  exact written.noSlash _ rfl List.getLast?_concat

/-- Whatever the attributes of a written tag are, the tag is read up to its bracket, in the same
way in front of every text. -/
theorem exists_readAttributes_tagTail {attributes : List (Text × Option Text)}
    (safe : ∀ attr ∈ attributes, IsEncodedAttribute attr) :
    ∃ read selfClosing, ∀ rest,
      readAttributes (tagTail attributes rest) = ⟨read, selfClosing, rest⟩ := by
  by_cases slash : EndsInSlash attributes
  · obtain ⟨front, name, value, rfl, unquoted⟩ := slash
    exact ⟨front ++ [(name, some value)], true, readAttributes_of_slash safe unquoted⟩
  · exact ⟨attributes, false, readAttributes_of_not_endsInSlash safe slash⟩

/-! ## A slash at the end of the text of a tag -/

/-- Only a value without quotes ends the text of an attribute with a slash. -/
theorem getLast?_attributeText_iff {attr : Text × Option Text}
    (encoded : IsEncodedAttribute attr) :
    (attributeText attr).getLast? = some '/' ↔
      ∃ name value, attr = (name, some (value ++ ['/'])) ∧ needsQuotes (value ++ ['/']) =
      false := by
  obtain ⟨name, value⟩ := attr
  cases value with
  | none =>
      refine ⟨fun ends => ?_, fun ⟨_, _, same, _⟩ => nomatch same⟩
      exact absurd (encoded.named.chars '/' (List.mem_of_getLast? ends)) (by decide)
  | some value =>
      have text : attributeText (name, some value) = name ++ ['='] ++ valueText value := by
        simp [attributeText]
      rw [text]
      cases quoted : needsQuotes value with
      | true =>
          have ends : (name ++ ['='] ++ valueText value).getLast? = some '"' := by
            rw [valueText, quoted, if_pos rfl, ← List.append_assoc, List.getLast?_concat]
          rw [ends]
          refine ⟨fun same => absurd same (by decide), ?_⟩
          rintro ⟨_, front, same, unquoted⟩
          cases same
          rw [quoted] at unquoted
          cases unquoted
      | false =>
          obtain ⟨solid, _⟩ := plain_of_not_needsQuotes quoted
          rw [valueText, quoted, if_neg Bool.false_ne_true, List.getLast?_append_of_ne_nil _ solid,
            List.getLast?_eq_some_iff]
          constructor
          · rintro ⟨front, rfl⟩
            exact ⟨name, front, rfl, quoted⟩
          · rintro ⟨_, front, same, _⟩
            cases same
            exact ⟨front, rfl⟩

/-- A tag ends in a slash if its text does. -/
theorem getLast?_append_flatMap_iff {front : Text} (noSlash : front.getLast? ≠ some '/')
    {attributes : List (Text × Option Text)}
    (encoded : ∀ attr ∈ attributes, IsEncodedAttribute attr) :
    (front ++ attributes.flatMap renderAttribute).getLast? = some '/' ↔
    EndsInSlash attributes := by
  rcases List.eq_nil_or_concat attributes with rfl | ⟨earlier, last, rfl⟩
  · rw [List.flatMap_nil, List.append_nil]
    exact ⟨fun ends => absurd ends noSlash, fun ⟨_, _, _, parts, _⟩ => absurd parts (by simp)⟩
  · rw [List.concat_eq_append] at encoded ⊢
    have written : IsEncodedAttribute last := encoded last (by simp)
    have solid : attributeText last ≠ [] := by
      obtain ⟨c, later, same, _⟩ := written.attributeText_eq_cons
      rw [same]
      exact List.cons_ne_nil c later
    have text : front ++ (earlier ++ [last]).flatMap renderAttribute =
        front ++ earlier.flatMap renderAttribute ++ [' '] ++ attributeText last := by
      simp [renderAttribute_eq_cons]
    rw [text, List.getLast?_append_of_ne_nil _ solid, getLast?_attributeText_iff written,
      EndsInSlash]
    constructor
    · rintro ⟨name, value, rfl, unquoted⟩
      exact ⟨earlier, name, value, rfl, unquoted⟩
    · rintro ⟨_, name, value, parts, unquoted⟩
      obtain ⟨_, same⟩ := List.append_inj' parts rfl
      exact ⟨name, value, (List.cons.inj same).1, unquoted⟩

end HtmlMinifier.Token

/-
# Where a start tag ends

A start tag ends with the first `>` that does not stand in a quoted value. A quote only opens a
value behind the name of an attribute and a `=`, so an automaton of five places tells of every
character whether it is quoted, without reading any attribute. The reader of attributes agrees with
the automaton: it hands on what follows the bracket that the automaton finds, and says that the tag
closes itself exactly if a slash stands in front of that bracket.
-/
import HtmlMinifier.Proofs.Text.Terminator
import HtmlMinifier.Proofs.Token.StartTag

namespace HtmlMinifier.Token

/-! ## Places in a tag -/

/-- A place in a start tag, behind the name of the tag. -/
inductive TagPlace where
  | between
  | named
  | equals
  | quoted (quote : Char)
  | unquoted
  deriving DecidableEq, Repr

namespace TagPlace

/-- Whether the place is in a quoted value. -/
def isQuoted : TagPlace → Bool
  | .quoted _ => true
  | _ => false

/-- The place behind one more character. Blanks may stand behind the name of an attribute and
behind its `=`, and a quote that stands anywhere else opens nothing. -/
def next : TagPlace → Char → TagPlace
  | .between, c => if isAttributeChar c then .named else .between
  | .named, c =>
      if isAttributeChar c || Text.isBlank c then .named else if c = '=' then .equals else .between
  | .equals, c =>
      if Text.isBlank c then .equals else if c = '"' || c = '\'' then .quoted c else .unquoted
  | .quoted quote, c => if c = quote then .between else .quoted quote
  | .unquoted, c => if Text.isBlank c then .between else .unquoted

/-- The place behind a text. -/
def after (place : TagPlace) (text : Text) : TagPlace := text.foldl next place

@[simp]
theorem after_nil (place : TagPlace) : place.after [] = place := rfl

@[simp]
theorem after_cons (place : TagPlace) (c : Char) (text : Text) :
    place.after (c :: text) = (place.next c).after text := rfl

theorem after_concat (place : TagPlace) (text : Text) (c : Char) :
    place.after (text ++ [c]) = (place.after text).next c :=
  List.foldl_concat next place c text

/-- What must have been read to come to a place from between two attributes. -/
inductive Reached : TagPlace → Text → Prop
  | between (text : Text) : Reached .between text
  | unquoted (text : Text) : Reached .unquoted text
  | named (before : Text) {c : Char} {gap : Text} (nameEnd : isAttributeChar c = true)
      (blanks : ∀ d ∈ gap, Text.isBlank d = true) : Reached .named (before ++ c :: gap)
  | equals {before gap : Text} (named : Reached .named before)
      (blanks : ∀ d ∈ gap, Text.isBlank d = true) : Reached .equals (before ++ '=' :: gap)
  | quoted {before value : Text} {quote : Char} (equals : Reached .equals before)
      (isQuote : quote = '"' ∨ quote = '\'') (inside : quote ∉ value) :
      Reached (.quoted quote) (before ++ quote :: value)

/-- One more character keeps a gap, which stands behind a mark, a gap if it is a blank. -/
theorem gap_concat {gap : Text} {c : Char} (blanks : ∀ d ∈ gap, Text.isBlank d = true)
    (blank : Text.isBlank c = true) : ∀ d ∈ gap ++ [c], Text.isBlank d = true := by
  intro d inside
  rcases List.mem_append.1 inside with earlier | last
  · exact blanks d earlier
  · rwa [List.mem_singleton.1 last]

/-- A quote is open only behind the name of an attribute, a `=` and the quote itself, with nothing
but blanks between them. -/
theorem reached_after (text : Text) : Reached (TagPlace.between.after text) text := by
  induction text using List.reverseRecOn with
  | nil => exact .between []
  | append_singleton text c ih =>
      rw [after_concat]
      have newName : isAttributeChar c = true → Reached .named (text ++ [c]) := fun named =>
        .named text named (by simp)
      generalize TagPlace.between.after text = place at ih
      cases ih with
      | between text =>
          rw [next]
          split
          · next named => exact newName named
          · exact .between _
      | unquoted text =>
          rw [next]
          split
          · exact .between _
          · exact .unquoted _
      | @named before d gap nameEnd blanks =>
          rw [next]
          split
          · next either =>
              rcases Bool.or_eq_true_iff.1 either with named | blank
              · exact newName named
              · rw [List.append_assoc, List.cons_append]
                exact .named before nameEnd (gap_concat blanks blank)
          · split
            · next equals =>
                rw [equals]
                exact .equals (.named before nameEnd blanks) (by simp)
            · exact .between _
      | @equals before gap named blanks =>
          rw [next]
          split
          · next blank =>
              rw [List.append_assoc, List.cons_append]
              exact .equals named (gap_concat blanks blank)
          · split
            · next isQuote =>
                rw [Bool.or_eq_true, decide_eq_true_iff, decide_eq_true_iff] at isQuote
                exact .quoted (.equals named blanks) isQuote (by simp)
            · exact .unquoted _
      | @quoted before value quote equals isQuote inside =>
          rw [next]
          split
          · exact .between _
          · next differs =>
              rw [List.append_assoc, List.cons_append]
              refine .quoted equals isQuote fun member => ?_
              rcases List.mem_append.1 member with earlier | last
              · exact inside earlier
              · exact differs (List.mem_singleton.1 last).symm

end TagPlace

/-! ## The end of a tag -/

/-- Every bracket of a text that is read from a place stands in a quoted value. -/
def HidesBrackets (place : TagPlace) (inside : Text) : Prop :=
  ∀ before behind, inside = before ++ '>' :: behind → (place.after before).isQuoted = true

/-- How a tag ends behind the text that is read of it: with a bracket that is not quoted, or
without one at the end of the text. `rest` is what follows the tag. -/
inductive TagEnds (place : TagPlace) (inside : Text) : (closing rest : Text) → Prop
  | closed (rest : Text) (free : (place.after inside).isQuoted = false) :
      TagEnds place inside ['>'] rest
  | cut : TagEnds place inside [] []

/-- Whether a tag is written as one that closes itself, with a slash in front of its bracket. -/
def isSelfClosed (inside closing : Text) : Bool := closing = ['>'] && inside.getLast? = some '/'

/-- Following a tag from a place leads to its end. `slash` says whether a slash stands right in
front of the place, `selfClosing` whether one stands in front of the bracket, and `rest` is what
follows. -/
inductive LeadsOut : TagPlace → (slash : Bool) → Text → (selfClosing : Bool) → (rest : Text) → Prop
  | closed {place : TagPlace} (slash : Bool) (rest : Text) (free : place.isQuoted = false) :
      LeadsOut place slash ('>' :: rest) slash rest
  | cut (place : TagPlace) (slash : Bool) : LeadsOut place slash [] false []
  | goesOn {place : TagPlace} (slash : Bool) {c : Char} {input rest : Text} {selfClosing : Bool}
      (hidden : c = '>' → place.isQuoted = true) :
      LeadsOut (place.next c) (c = '/') input selfClosing rest →
      LeadsOut place slash (c :: input) selfClosing rest

namespace LeadsOut

variable {place : TagPlace} {slash selfClosing : Bool} {input rest : Text}

/-- The end that is found this way is the end of the tag. -/
theorem exists_tagEnds (leads : LeadsOut place slash input selfClosing rest) :
    ∃ inside closing, input = inside ++ closing ++ rest ∧ HidesBrackets place inside ∧
      TagEnds place inside closing rest ∧
      selfClosing = (closing = ['>'] && (inside.getLast?.elim slash (· = '/'))) := by
  induction leads with
  | closed slash rest free =>
      refine ⟨[], ['>'], rfl, fun before behind parts => ?_, .closed rest free, ?_⟩
      · simp at parts
      · simp
  | cut place slash =>
      refine ⟨[], [], rfl, fun before behind parts => ?_, .cut, ?_⟩
      · simp at parts
      · simp
  | @goesOn place slash c input rest selfClosing hidden _ ih =>
      obtain ⟨inside, closing, parts, hides, ends, selfClosed⟩ := ih
      refine ⟨c :: inside, closing, by rw [parts]; rfl, fun before behind same => ?_, ?_, ?_⟩
      · cases before with
        | nil => exact hidden (List.cons.inj same).1
        | cons d before =>
            obtain ⟨rfl, later⟩ := List.cons.inj same
            exact hides before behind later
      · cases ends with
        | closed rest free => exact .closed rest free
        | cut => exact .cut
      · rw [selfClosed, List.getLast?_cons]
        cases inside.getLast? <;> rfl

/-- A slash in front of a place only counts if a bracket follows. -/
theorem of_slash (leads : LeadsOut place slash input selfClosing rest)
    (other : input.head? ≠ some '>') (otherSlash : Bool) :
    LeadsOut place otherSlash input selfClosing rest := by
  cases leads with
  | closed => exact absurd rfl other
  | cut => exact .cut place otherSlash
  | goesOn _ hidden later => exact .goesOn otherSlash hidden later

/-- Two places outside of quotes lead out in the same way if the next character leads from both to
the same place. -/
theorem of_next {other : TagPlace} (leads : LeadsOut place slash input selfClosing rest)
    (free : place.isQuoted = false) (otherFree : other.isQuoted = false)
    (agree : ∀ c, input.head? = some c → c ≠ '>' → other.next c = place.next c) :
    LeadsOut other slash input selfClosing rest := by
  cases leads with
  | closed _ rest _ => exact .closed slash rest otherFree
  | cut => exact .cut other slash
  | @goesOn _ _ c _ _ _ hidden later =>
      have plain : c ≠ '>' := by
        intro bracket
        rw [hidden bracket] at free
        cases free
      refine .goesOn slash (fun bracket => absurd bracket plain) ?_
      rw [agree c rfl plain]
      exact later

/-- Characters that leave the place as it is, and are neither a bracket nor a slash, may stand in
front. -/
theorem of_dropWhile {kind : Char → Bool}
    (stays : ∀ c, kind c = true → place.next c = place ∧ c ≠ '>' ∧ c ≠ '/')
    (leads : LeadsOut place false (input.dropWhile kind) selfClosing rest) :
    LeadsOut place false input selfClosing rest := by
  induction input with
  | nil => exact leads
  | cons c input ih =>
      by_cases ofKind : kind c = true
      · obtain ⟨same, noBracket, noSlash⟩ := stays c ofKind
        rw [List.dropWhile_cons_of_pos ofKind] at leads
        refine .goesOn false (fun bracket => absurd bracket noBracket) ?_
        rw [same, decide_eq_false noSlash]
        exact ih leads
      · rwa [List.dropWhile_cons_of_neg ofKind] at leads

end LeadsOut

/-! ## What the readers hand on -/

section

variable {selfClosing : Bool} {rest : Text}

theorem ne_of_isBlank {c : Char} (blank : Text.isBlank c = true) : c ≠ '>' ∧ c ≠ '/' := by
  constructor
  · rintro rfl
    exact absurd blank (by decide)
  · rintro rfl
    exact absurd blank (by decide)

theorem ne_of_isAttributeChar {c : Char} (named : isAttributeChar c = true) :
    c ≠ '>' ∧ c ≠ '/' := by
  constructor
  · rintro rfl
    exact absurd named (by decide)
  · rintro rfl
    exact absurd named (by decide)

/-- Behind the blanks of a text stands no blank. -/
theorem isBlank_of_trimStart {input later : Text} {c : Char}
    (same : Text.trimStart input = c :: later) :
    Text.isBlank c = false := by
  have first := List.head?_dropWhile_not Text.isBlank input
  rw [show input.dropWhile Text.isBlank = c :: later from same] at first
  simpa using first

/-- A value in quotes leads out of the quotes. -/
theorem leadsOut_quoted {quote : Char} (isQuote : quote = '"' ∨ quote = '\'') {input : Text}
    (leads : LeadsOut .between false (Text.splitAt [quote] input).2 selfClosing rest)
    (slash : Bool) :
    LeadsOut (.quoted quote) slash input selfClosing rest := by
  have letterless : quote.isLower = false ∧ quote.toLower = quote ∧ quote ≠ '/' := by
    rcases isQuote with rfl | rfl <;> decide
  induction input generalizing slash with
  | nil =>
      cases leads
      exact .cut _ slash
  | cons c input ih =>
      rw [Text.splitAt, Text.dropFolded?_cons_cons, Text.dropFolded?_nil, letterless.2.1] at leads
      refine .goesOn slash (fun _ => rfl) ?_
      by_cases same : c = quote
      · rw [same, letterless.2.1, if_pos rfl] at leads
        rw [TagPlace.next, if_pos same, same, decide_eq_false letterless.2.2]
        exact leads
      · have differs : quote ≠ c.toLower := fun folded =>
          same ((Text.toLower_eq_iff letterless.1 letterless.2.1 c).1 folded.symm)
        rw [if_neg differs] at leads
        rw [TagPlace.next, if_neg same]
        exact ih leads _

/-- A value without quotes leads to what ends it. -/
theorem leadsOut_unquoted {input : Text}
    (leads : LeadsOut .between false (readUnquoted input).2 selfClosing rest) :
    LeadsOut .unquoted false input selfClosing rest := by
  fun_induction readUnquoted input with
  | case1 =>
      cases leads
      exact .cut _ false
  | case2 input =>
      -- The bracket behind the slash ends the tag, whether the slash is read as part of the value
      -- or not.
      cases leads with
      | goesOn _ _ later =>
          cases later with
          | closed _ _ _ =>
              exact .goesOn false (fun bracket => absurd bracket (by decide)) (.closed _ _ rfl)
          | goesOn _ hidden _ => exact absurd (hidden rfl) (by decide)
  | case3 c input _ stops =>
      refine leads.of_next rfl rfl fun d first noBracket => ?_
      cases first
      rw [Bool.or_eq_true, decide_eq_true_iff] at stops
      have blank := stops.resolve_right noBracket
      have unnamed : isAttributeChar c = false := by
        rw [isAttributeChar, blank]
        rfl
      rw [TagPlace.next, TagPlace.next, if_pos blank, unnamed, if_neg Bool.false_ne_true]
  | case4 c input notClosing stops later ih =>
      rw [Bool.or_eq_true, decide_eq_true_iff, not_or] at stops
      refine .goesOn false (fun bracket => absurd bracket stops.2) ?_
      rw [TagPlace.next, if_neg stops.1]
      by_cases slash : c = '/'
      · refine (ih leads).of_slash (fun bracket => ?_) _
        obtain ⟨behind, same⟩ := List.head?_eq_some_iff.1 bracket
        exact notClosing behind slash same
      · rw [decide_eq_false slash]
        exact ih leads

/-- A value leads out of itself, whether it is quoted or not. -/
theorem leadsOut_value {input : Text}
    (leads : LeadsOut .between false (readValue input).2 selfClosing rest) :
    LeadsOut .equals false input selfClosing rest := by
  have staysAtBlank : ∀ c, Text.isBlank c = true → TagPlace.next .equals c = .equals ∧ c ≠ '>' ∧
      c ≠ '/' :=
    fun c blank => ⟨if_pos blank, ne_of_isBlank blank⟩
  refine LeadsOut.of_dropWhile staysAtBlank ?_
  change LeadsOut .equals false (Text.trimStart input) selfClosing rest
  unfold readValue at leads
  split at leads
  · next quoted same =>
      rw [same]
      exact .goesOn false (fun bracket => absurd bracket (by decide))
        (leadsOut_quoted (.inl rfl) leads _)
  · next quoted same =>
      rw [same]
      exact .goesOn false (fun bracket => absurd bracket (by decide))
        (leadsOut_quoted (.inr rfl) leads _)
  · next noDouble noSingle =>
      refine (leadsOut_unquoted leads).of_next rfl rfl fun c first _ => ?_
      obtain ⟨later, same⟩ := List.head?_eq_some_iff.1 first
      have solid := isBlank_of_trimStart same
      have noQuote : (c = '"' || c = '\'') = false := by
        rw [Bool.or_eq_false_iff, decide_eq_false_iff_not, decide_eq_false_iff_not]
        constructor
        · rintro rfl
          exact noDouble later same
        · rintro rfl
          exact noSingle later same
      rw [TagPlace.next, TagPlace.next, solid, noQuote]
      rfl

/-- An attribute leads to what follows it. -/
theorem leadsOut_attribute {c : Char} (named : isAttributeChar c = true) {input : Text}
    (leads : LeadsOut .between false (readAttribute (c :: input)).2 selfClosing rest) :
    LeadsOut .named false input selfClosing rest := by
  have staysAtChar : ∀ d, isAttributeChar d = true → TagPlace.next .named d = .named ∧ d ≠ '>' ∧
      d ≠ '/' :=
    fun d char => ⟨if_pos (by rw [char]; rfl), ne_of_isAttributeChar char⟩
  have staysAtBlank : ∀ d, Text.isBlank d = true → TagPlace.next .named d = .named ∧ d ≠ '>' ∧
      d ≠ '/' :=
    fun d blank => ⟨if_pos (by rw [blank, Bool.or_true]), ne_of_isBlank blank⟩
  refine LeadsOut.of_dropWhile staysAtChar (LeadsOut.of_dropWhile staysAtBlank ?_)
  change LeadsOut .named false (Text.trimStart (input.dropWhile isAttributeChar)) selfClosing rest
  unfold readAttribute at leads
  rw [List.dropWhile_cons_of_pos named] at leads
  split at leads
  · next valued same =>
      rw [same]
      exact .goesOn false (fun bracket => absurd bracket (by decide)) (leadsOut_value leads)
  · next noValue =>
      refine leads.of_next rfl rfl fun d first _ => ?_
      obtain ⟨later, same⟩ := List.head?_eq_some_iff.1 first
      have solid := isBlank_of_trimStart same
      have noEquals : d ≠ '=' := by
        rintro rfl
        exact noValue later same
      rw [TagPlace.next, TagPlace.next, solid, if_neg noEquals, Bool.or_false]

/-- The reader of attributes hands on what follows the tag. -/
theorem leadsOut_readAttributes (input : Text) :
    LeadsOut .between false input (readAttributes input).selfClosing
    (readAttributes input).rest := by
  have staysAtBlank : ∀ c, Text.isBlank c = true →
      TagPlace.next .between c = .between ∧ c ≠ '>' ∧ c ≠ '/' := by
    intro c blank
    refine ⟨if_neg ?_, ne_of_isBlank blank⟩
    rw [isAttributeChar, blank]
    exact Bool.false_ne_true
  fun_induction readAttributes input with
  | case1 input same =>
      refine LeadsOut.of_dropWhile staysAtBlank ?_
      rw [show input.dropWhile Text.isBlank = [] from same]
      exact .cut _ false
  | case2 input rest same =>
      refine LeadsOut.of_dropWhile staysAtBlank ?_
      rw [show input.dropWhile Text.isBlank = '>' :: rest from same]
      exact .closed false rest rfl
  | case3 input rest same =>
      refine LeadsOut.of_dropWhile staysAtBlank ?_
      rw [show input.dropWhile Text.isBlank = '/' :: '>' :: rest from same]
      exact .goesOn false (fun bracket => absurd bracket (by decide)) (.closed true rest rfl)
  | case4 input c rest noBracket _ same named found later ih =>
      refine LeadsOut.of_dropWhile staysAtBlank ?_
      rw [show input.dropWhile Text.isBlank = c :: rest from same]
      obtain ⟨plain, noSlash⟩ := ne_of_isAttributeChar named
      refine .goesOn false (fun bracket => absurd bracket plain) ?_
      rw [TagPlace.next, if_pos named, decide_eq_false noSlash]
      exact leadsOut_attribute named ih
  | case5 input c rest noBracket notClosing same unnamed ih =>
      refine LeadsOut.of_dropWhile staysAtBlank ?_
      rw [show input.dropWhile Text.isBlank = c :: rest from same]
      refine .goesOn false (fun bracket => absurd bracket noBracket) ?_
      rw [TagPlace.next, if_neg unnamed]
      by_cases slash : c = '/'
      · refine ih.of_slash (fun bracket => ?_) _
        obtain ⟨behind, following⟩ := List.head?_eq_some_iff.1 bracket
        exact notClosing behind slash following
      · rw [decide_eq_false slash]
        exact ih

end

/-- Behind its name a start tag is read up to the bracket that ends it, or to the end of the
input. -/
theorem exists_tagEnds_readAttributes (input : Text) :
    ∃ inside closing, input = inside ++ closing ++ (readAttributes input).rest ∧
      HidesBrackets .between inside ∧ TagEnds .between inside closing (readAttributes input).rest ∧
      (readAttributes input).selfClosing = isSelfClosed inside closing := by
  obtain ⟨inside, closing, parts, hides, ends, selfClosed⟩ :=
    (leadsOut_readAttributes input).exists_tagEnds
  refine ⟨inside, closing, parts, hides, ends, ?_⟩
  rw [selfClosed, isSelfClosed]
  cases inside.getLast? with
  | none => rfl
  | some c => simp only [Option.elim_some, Option.some.injEq]

end HtmlMinifier.Token

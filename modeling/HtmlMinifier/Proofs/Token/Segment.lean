/-
# A text is its segments

The reader cuts a text into segments and leaves nothing out: a run of text, a comment, a CDATA
section, a doctype, an end tag, a start tag, or a start tag with its verbatim body and the end tag
of that. Here a segment is described by what it looks like, without any reader: by the mark that
opens it, by the body that ends in front of its first terminator, and for a start tag by the first
bracket that is not quoted. A terminator is missing only if the body runs to the end of the text.

Every segment is read by itself as it is read in its place, so the tokens of a text are those of
its segments.
-/
import HtmlMinifier.Proofs.Token.Local
import HtmlMinifier.Proofs.Token.Opening

namespace HtmlMinifier.Token

/-! ## End tags as terminators -/

/-- The spellings of an end tag of an element: its name in any case, blanks and the bracket. -/
def IsEndTagOf (name mark : Text) : Prop :=
  ∃ word blanks, Text.lower word = '<' :: '/' :: name ∧ (∀ c ∈ blanks, Text.isBlank c = true) ∧
    mark = word ++ blanks ++ ['>']

/-- A body is read up to a place where its end tag can be dropped. -/
theorem readVerbatim_eq_cutAt (name text : Text) :
    readVerbatim name text = Text.cutAt (dropEndTag? name) text := by
  induction text with
  | nil => rfl
  | cons c text ih =>
      rw [readVerbatim, ih]
      rfl

/-- The bracket of an end tag is its only one. -/
theorem ne_bracket_of_endTag {name word blanks : Text} (named : IsTagName name)
    (spelled : Text.lower word = '<' :: '/' :: name)
    (blank : ∀ c ∈ blanks, Text.isBlank c = true) :
    ∀ c ∈ word ++ blanks, c ≠ '>' := by
  rintro c inside rfl
  rcases List.mem_append.1 inside with inWord | inBlanks
  · have folded : '>' ∈ Text.lower word := List.mem_map.2 ⟨'>', inWord, by decide⟩
    rw [spelled] at folded
    have inName : '>' ∈ name := by simpa using folded
    exact absurd (named.chars '>' inName) (by decide)
  · exact absurd (blank '>' inBlanks) (by decide)

/-- What is dropped behind a verbatim body is an end tag of its element. -/
theorem recognizes_endTag {name : Text} (named : IsTagName name) :
    Text.Recognizes (dropEndTag? name) (IsEndTagOf name) where
  drop_iff text rest := by
    have lower : Text.lower ('<' :: '/' :: name) = '<' :: '/' :: name := by
      rw [Text.lower_cons, Text.lower_cons, named.lower]
      rfl
    rw [dropEndTag?_eq_some_iff]
    constructor
    · rintro ⟨inside, literal, same⟩
      obtain ⟨word, spelled, parts⟩ := Text.dropFolded?_eq_some_iff.1 literal
      have blanks : inside.takeWhile Text.isBlank ++ '>' :: rest = inside := by
        rw [← same]
        exact List.takeWhile_append_dropWhile
      refine ⟨_, ⟨word, inside.takeWhile Text.isBlank, by rw [spelled, lower],
        List.all_eq_true.1 List.all_takeWhile, rfl⟩, ?_⟩
      rw [List.append_assoc, List.append_assoc, List.singleton_append, blanks]
      exact parts
    · rintro ⟨mark, ⟨word, blanks, spelled, blank, rfl⟩, rfl⟩
      refine ⟨blanks ++ '>' :: rest,
        Text.dropFolded?_eq_some_iff.2 ⟨word, by rw [spelled, lower], by simp⟩, ?_⟩
      exact (Text.takeWhile_append_of_stops blank fun c first => by cases first; decide).2
  some := by
    rintro mark ⟨word, blanks, _, _, rfl⟩
    simp
  whole := by
    rintro mark before inner behind ⟨word, blanks, spelled, blank, rfl⟩ ⟨_, _, _, _, rfl⟩ parts
    rcases List.eq_nil_or_concat behind with none | ⟨more, last, rfl⟩
    · exact none
    · -- The bracket of the inner end tag would be a second one of the outer.
      rw [List.concat_eq_append, ← List.append_assoc] at parts
      have front := (List.append_inj' parts rfl).1
      refine absurd rfl (ne_bracket_of_endTag named spelled blank '>' ?_)
      rw [front]
      simp

/-! ## Segments -/

/-- A name is spelled at the head of a tag, up to a character that belongs to no name. -/
structure IsSpelledName (name behind : Text) : Prop where
  letter : ∃ c later, name = c :: later ∧ c.isAlpha = true
  chars : ∀ c ∈ name, isNameChar c = true
  ends : ∀ c, behind.head? = some c → isNameChar c = false

/-- A segment of a text that goes on with `rest`, and what is read of it. -/
inductive IsSegment (rest : Text) : Text → List Token → Prop
  | text {body : Text} (some : body ≠ [])
      (plain : ∀ earlier later, later ≠ [] → body = earlier ++ later →
        Opening.of? (later ++ rest) = none)
      (ends : rest = [] ∨ (Opening.of? rest).isSome = true) :
      IsSegment rest body [.text body]
  | comment {body closing : Text} (ends : Text.Ends (· = "-->".toList) body closing rest) :
      IsSegment rest ("<!--".toList ++ body ++ closing) [.comment body]
  | cdata {word body closing : Text} (spelled : Text.lower word = "[cdata[".toList)
      (ends : Text.Ends (· = "]]>".toList) body closing rest) :
      IsSegment rest ("<!".toList ++ word ++ body ++ closing) [.cdata body]
  | doctype {word inside closing : Text} (spelled : Text.lower word = "doctype".toList)
      (ends : Text.Ends (· = ['>']) (word ++ inside) closing rest) :
      IsSegment rest ("<!".toList ++ (word ++ inside) ++ closing)
        [.doctype (Text.trimWhiteSpace (word ++ inside))]
  | bogusComment {mark : Char} {body closing : Text}
      (opens : Opening.of? ('<' :: mark :: body ++ closing) = some .bogusComment)
      (ends : Text.Ends (· = ['>']) body closing rest) :
      IsSegment rest ('<' :: mark :: body ++ closing) [.comment body]
  | endTag {name inside closing : Text} (spelled : IsSpelledName name inside)
      (ends : Text.Ends (· = ['>']) (name ++ inside) closing rest) :
      IsSegment rest ("</".toList ++ (name ++ inside) ++ closing) [.endTag (Text.lower name)]
  | startTag {name inside closing : Text} (attributes : List (Text × Option Text))
      (spelled : IsSpelledName name (inside ++ closing)) (hides : HidesBrackets .between inside)
      (ends : TagEnds .between inside closing rest)
      (plain : Element.isVerbatim (Text.lower name) = true → isSelfClosed inside closing = true) :
      IsSegment rest ('<' :: name ++ inside ++ closing)
        [.startTag (Text.lower name) attributes
          (isSelfClosed inside closing || Element.isVoid (Text.lower name))]
  | verbatim {name inside closing body endTag : Text} (attributes : List (Text × Option Text))
      (spelled : IsSpelledName name (inside ++ closing)) (hides : HidesBrackets .between inside)
      (tagEnds : TagEnds .between inside closing (body ++ endTag ++ rest))
      (isVerbatim : Element.isVerbatim (Text.lower name) = true)
      (isOpen : isSelfClosed inside closing = false)
      (ends : Text.Ends (IsEndTagOf (Text.lower name)) body endTag rest) :
      IsSegment rest ('<' :: name ++ inside ++ closing ++ body ++ endTag)
        (.startTag (Text.lower name) attributes false ::
          ((if body = [] then [] else [.text body]) ++ [.endTag (Text.lower name)]))

/-- A first segment of a text: what is read of it is read in its place and by itself. -/
def BeginsWith (input : Text) (read : List Token × Text) : Prop :=
  ∃ segment, input = segment ++ read.2 ∧ IsSegment read.2 segment read.1 ∧
    (read.2 ≠ [] → readConstruct segment = (read.1, []))

/-! ## Runs of text -/

/-- A run of text ends where the first construct begins, and nothing begins earlier. -/
theorem readText_parts (input : Text) :
    input = (readText input).1 ++ (readText input).2 ∧
      (∀ earlier later, later ≠ [] → (readText input).1 = earlier ++ later →
        Opening.of? (later ++ (readText input).2) = none) ∧
      ((readText input).2 = [] ∨ (Opening.of? (readText input).2).isSome = true) := by
  have noneIn : ∀ {earlier later : Text}, later ≠ [] → [] ≠ earlier ++ later := by
    intro earlier later some parts
    exact some (List.append_eq_nil_iff.1 parts.symm).2
  induction input with
  | nil => exact ⟨rfl, fun earlier later some parts => absurd parts (noneIn some), .inl rfl⟩
  | cons c input ih =>
      rw [readText]
      split
      · next opens =>
          exact ⟨rfl, fun earlier later some parts => absurd parts (noneIn some), .inr opens⟩
      · next nothing =>
          obtain ⟨parts, plain, ends⟩ := ih
          refine ⟨congrArg (List.cons c) parts, fun earlier later some same => ?_, ends⟩
          cases earlier with
          | nil =>
              rw [List.nil_append] at same
              rw [← same]
              change Opening.of? (c :: ((readText input).1 ++ (readText input).2)) = none
              rw [← parts]
              simpa using nothing
          | cons d earlier => exact plain earlier later some (List.cons.inj same).2

/-- A text in which nothing opens is one run. -/
theorem readText_of_plain {body : Text}
    (plain : ∀ earlier later, later ≠ [] → body = earlier ++ later → Opening.of? later = none) :
    readText body = (body, []) := by
  induction body with
  | nil => rfl
  | cons c body ih =>
      have nothing := plain [] (c :: body) (List.cons_ne_nil c body) rfl
      rw [readText, nothing, ih fun earlier later some parts =>
        plain (c :: earlier) later some (congrArg (List.cons c) parts)]
      rfl

/-- Where nothing opens, a run of text begins. -/
theorem beginsWith_text {c : Char} {input : Text} (nothing : Opening.of? (c :: input) = none) :
    BeginsWith (c :: input) (readConstruct (c :: input)) := by
  obtain ⟨parts, plain, ends⟩ := readText_parts (c :: input)
  have some := readText_fst_ne_nil nothing
  rw [readConstruct, nothing]
  refine ⟨_, parts, .text some plain ends, fun _ => ?_⟩
  have alone : ∀ earlier later, later ≠ [] → (readText (c :: input)).1 = earlier ++ later →
      Opening.of? later = none := fun earlier later some same =>
    opening_none_of_append (plain earlier later some same)
  have nothingAlone := alone [] _ some rfl
  rw [readConstruct, nothingAlone]
  simp only [readText_of_plain alone]

/-! ## Declarations and end tags -/

/-- A construct begins a text if it is read up to its terminator wherever the text is cut behind
its body. -/
theorem beginsWith_of_splitAt (token : Text → Token) {front stop inside : Text} (some : stop ≠ [])
    (caseless : Text.IsCaseless stop)
    (reads : ∀ text, (Text.splitAt stop inside).1 <+: text → text <+: inside →
      readConstruct (front ++ text) =
      ([token (Text.splitAt stop text).1], (Text.splitAt stop text).2))
    (segment : ∀ closing, (Text.splitAt stop inside).1 ++ closing <+: inside →
      Text.Ends (· = stop) (Text.splitAt stop inside).1 closing (Text.splitAt stop inside).2 →
      IsSegment (Text.splitAt stop inside).2 (front ++ (Text.splitAt stop inside).1 ++ closing)
        [token (Text.splitAt stop inside).1]) :
    BeginsWith (front ++ inside) (readConstruct (front ++ inside)) := by
  obtain ⟨closing, parts, ends⟩ := Text.exists_ends_splitAt some caseless inside
  rw [reads inside (Text.splitAt_fst_prefix stop inside) List.prefix_rfl]
  refine ⟨front ++ (Text.splitAt stop inside).1 ++ closing, ?_,
    segment closing ⟨_, parts.symm⟩ ends,
    fun more => ?_⟩
  · rw [List.append_assoc front, List.append_assoc front, ← parts]
  · have alone := ends.splitAt_append some caseless more []
    rw [List.append_nil] at alone
    rw [List.append_assoc, reads _ (List.prefix_append _ _) ⟨_, parts.symm⟩, alone]

theorem beginsWith_comment (inside : Text) :
    BeginsWith ("<!--".toList ++ inside) (readConstruct ("<!--".toList ++ inside)) := by
  refine beginsWith_of_splitAt .comment (show "-->".toList ≠ [] by decide) (by decide)
    (fun text _ _ => ?_) fun closing _ ends => .comment ends
  have opens : Opening.of? ("<!--".toList ++ text) = some .comment := opening_comment text
  rw [readConstruct, opens]
  rfl

theorem beginsWith_cdata {word : Text} (spelled : Text.lower word = "[cdata[".toList)
    (inside : Text) :
    BeginsWith ("<!".toList ++ word ++ inside)
    (readConstruct ("<!".toList ++ word ++ inside)) := by
  refine beginsWith_of_splitAt .cdata (show "]]>".toList ≠ [] by decide) (by decide)
    (fun text _ _ => ?_) fun closing _ ends => .cdata spelled ends
  have opens : Opening.of? ("<!".toList ++ word ++ text) = some .cdata := by
    rw [List.append_assoc]
    exact opening_cdata spelled text
  have length : word.length = 7 := by
    have same := congrArg List.length spelled
    rwa [Text.lower, List.length_map] at same
  have dropped : ("<!".toList ++ word ++ text).drop 9 = text := by
    exact List.drop_left' (by simp [length])
  rw [readConstruct, opens]
  simp only [dropped]

/-- A word without a bracket goes with the body. -/
theorem splitAt_append_of_free {word : Text} (free : ∀ c ∈ word, c ≠ '>') (text : Text) :
    Text.splitAt ['>'] (word ++ text) =
      (word ++ (Text.splitAt ['>'] text).1, (Text.splitAt ['>'] text).2) := by
  induction word with
  | nil => rfl
  | cons c word ih =>
      have differs : ('>' : Char).toLower ≠ c.toLower := fun same =>
        free c List.mem_cons_self ((Text.toLower_eq_iff (by decide) (by decide) c).1 same.symm)
      rw [List.cons_append, Text.splitAt, Text.dropFolded?_cons_cons, if_neg differs,
        ih fun d member => free d (List.mem_cons_of_mem c member)]
      rfl

theorem beginsWith_doctype {word : Text} (spelled : Text.lower word = "doctype".toList)
    (inside : Text) :
    BeginsWith ("<!".toList ++ (word ++ inside))
    (readConstruct ("<!".toList ++ (word ++ inside))) := by
  have free : ∀ c ∈ word, c ≠ '>' := by
    rintro c member rfl
    have folded : '>' ∈ Text.lower word := List.mem_map.2 ⟨'>', member, by decide⟩
    rw [spelled] at folded
    exact absurd folded (by decide)
  have body : (Text.splitAt ['>'] (word ++ inside)).1 = word ++ (Text.splitAt ['>'] inside).1 := by
    rw [splitAt_append_of_free free]
  refine beginsWith_of_splitAt (fun body => .doctype (Text.trimWhiteSpace body))
    (show ['>'] ≠ [] by decide) (by decide) (fun text begins _ => ?_) fun closing _ ends => ?_
  · rw [body] at begins
    obtain ⟨more, rfl⟩ := begins
    have opens : Opening.of? ("<!".toList ++ (word ++ (Text.splitAt ['>'] inside).1 ++ more)) =
        some .doctype := by
      rw [List.append_assoc]
      exact opening_doctype spelled _
    rw [readConstruct, opens]
    rfl
  · rw [body] at ends ⊢
    exact .doctype spelled ends

theorem beginsWith_bogusComment {mark : Char} {inside : Text}
    (opens : Opening.of? ('<' :: mark :: inside) = some .bogusComment) :
    BeginsWith ('<' :: mark :: inside) (readConstruct ('<' :: mark :: inside)) := by
  have cut : ∀ text, text <+: inside → Opening.of? ('<' :: mark :: text) = some .bogusComment := by
    rintro text ⟨more, rfl⟩
    exact opening_bogusComment_of_append opens
  change BeginsWith (['<', mark] ++ inside) (readConstruct (['<', mark] ++ inside))
  refine beginsWith_of_splitAt .comment (show ['>'] ≠ [] by decide) (by decide)
    (fun text _ within => ?_) fun closing within ends => .bogusComment (cut _ within) ends
  change readConstruct ('<' :: mark :: text) = _
  rw [readConstruct, cut text within]
  rfl

theorem beginsWith_endTag {name inside : Text} (spelled : IsSpelledName name inside) :
    BeginsWith ("</".toList ++ (name ++ inside))
    (readConstruct ("</".toList ++ (name ++ inside))) := by
  have free : ∀ c ∈ name, c ≠ '>' := by
    rintro c member rfl
    exact absurd (spelled.chars '>' member) (by decide)
  have body : Text.splitAt ['>'] (name ++ inside) =
      (name ++ (Text.splitAt ['>'] inside).1, (Text.splitAt ['>'] inside).2) :=
    splitAt_append_of_free free inside
  -- The body goes on behind the name as the input does, if it goes on at all.
  have headOf : ∀ text, text <+: inside → ∀ c, text.head? = some c → isNameChar c = false := by
    rintro text ⟨more, rfl⟩ c first
    obtain ⟨later, rfl⟩ := List.head?_eq_some_iff.1 first
    exact spelled.ends c rfl
  have nameOf : ∀ text, text <+: inside → (name ++ text).takeWhile isNameChar = name :=
    fun text within =>
    (Text.takeWhile_append_of_stops spelled.chars (headOf text within)).1
  refine beginsWith_of_splitAt (fun body => .endTag (Text.lower (body.takeWhile isNameChar)))
    (show ['>'] ≠ [] by decide) (by decide) (fun text begins within => ?_) fun closing _ ends => ?_
  · rw [body] at begins
    obtain ⟨more, rfl⟩ := begins
    rw [List.append_assoc, List.prefix_append_right_inj] at within
    rw [List.append_assoc]
    generalize (Text.splitAt ['>'] inside).1 ++ more = text at within
    have opens : Opening.of? ("</".toList ++ (name ++ text)) = some .endTag := by
      obtain ⟨c, later, rfl, alpha⟩ := spelled.letter
      exact opening_endTag alpha _
    have dropped := (Text.takeWhile_append_of_stops spelled.chars (headOf text within)).2
    have inBody := nameOf _ ((Text.splitAt_fst_prefix ['>'] text).trans within)
    rw [readConstruct, opens, splitAt_append_of_free free]
    change readEndTag (name ++ text) = _
    rw [readEndTag, nameOf text within, dropped, inBody]
  · have inBody := nameOf _ (Text.splitAt_fst_prefix ['>'] inside)
    rw [body] at ends ⊢
    simp only [inBody]
    exact .endTag ⟨spelled.letter, spelled.chars,
      headOf _ (Text.splitAt_fst_prefix ['>'] inside)⟩ ends

/-! ## Start tags -/

theorem IsSpelledName.isTagName {name behind : Text} (spelled : IsSpelledName name behind) :
    IsTagName (Text.lower name) := by
  obtain ⟨c, later, rfl, alpha⟩ := spelled.letter
  have whole := isTagName_takeWhile alpha later
  rwa [List.takeWhile_eq_self_iff.2 spelled.chars] at whole

/-- A name ends where its tag is cut off, too. -/
theorem IsSpelledName.of_append {name behind more : Text}
    (spelled : IsSpelledName name (behind ++ more)) :
    IsSpelledName name behind where
  letter := spelled.letter
  chars := spelled.chars
  ends c first := by
    obtain ⟨later, rfl⟩ := List.head?_eq_some_iff.1 first
    exact spelled.ends c rfl

section

variable {name behind : Text} (spelled : IsSpelledName name behind)

include spelled

/-- A start tag is read by its name and by what is read behind it. -/
theorem readConstruct_startTag {inside : TagInside} (read : readAttributes behind = inside) :
    readConstruct ('<' :: (name ++ behind)) =
      if Element.isVerbatim (Text.lower name) && !inside.selfClosing then
        let body := readVerbatim (Text.lower name) inside.rest
        (.startTag (Text.lower name) inside.attributes
            (inside.selfClosing || Element.isVoid (Text.lower name)) ::
          ((if body.1 = [] then [] else [.text body.1]) ++ [.endTag (Text.lower name)]), body.2)
      else
        ([.startTag (Text.lower name) inside.attributes
            (inside.selfClosing || Element.isVoid (Text.lower name))], inside.rest) := by
  have opens : Opening.of? ('<' :: (name ++ behind)) = some .startTag := by
    obtain ⟨c, later, rfl, alpha⟩ := spelled.letter
    exact opening_startTag alpha _
  obtain ⟨taken, dropped⟩ := Text.takeWhile_append_of_stops spelled.chars spelled.ends
  rw [readConstruct, opens]
  change readStartTag (name ++ behind) = _
  simp only [readStartTag, taken, dropped, read, List.cons_append]

theorem beginsWith_startTag :
    BeginsWith ('<' :: (name ++ behind)) (readConstruct ('<' :: (name ++ behind))) := by
  obtain ⟨tag, closing, parts, hides, tagEnds, selfClosed⟩ := exists_tagEnds_readAttributes behind
  have reads := readAttributes_append parts
  obtain ⟨inside, read⟩ : ∃ inside, readAttributes behind = inside := ⟨_, rfl⟩
  rw [readConstruct_startTag spelled read]
  rw [read] at parts tagEnds selfClosed reads
  have cut : IsSpelledName name (tag ++ closing) := by
    rw [parts] at spelled
    exact spelled.of_append
  split
  · next opensBody =>
      rw [Bool.and_eq_true, Bool.not_eq_true'] at opensBody
      obtain ⟨isVerbatim, isOpen⟩ := opensBody
      have recognizes := recognizes_endTag spelled.isTagName
      obtain ⟨endTag, bodyParts, ends⟩ := Text.exists_ends_cutAt recognizes inside.rest
      rw [← readVerbatim_eq_cutAt] at bodyParts ends
      obtain ⟨body, rest, verbatim⟩ : ∃ body rest,
          readVerbatim (Text.lower name) inside.rest = (body, rest) := ⟨_, _, rfl⟩
      rw [verbatim] at bodyParts ends
      rw [bodyParts] at parts tagEnds
      simp only [verbatim, isOpen, isVoid_of_isVerbatim isVerbatim, Bool.or_false]
      refine ⟨'<' :: name ++ tag ++ closing ++ body ++ endTag, by rw [parts]; simp,
        .verbatim _ cut hides tagEnds isVerbatim (by rw [← selfClosed, isOpen]) ends,
          fun more => ?_⟩
      -- The start tag and the body are read in front of nothing as they are read in front of the
      -- rest.
      have some : inside.rest ≠ [] := by
        rw [bodyParts]
        exact List.append_ne_nil_of_right_ne_nil _ more
      have bodyAlone := ends.cutAt_append recognizes more []
      rw [List.append_nil, ← readVerbatim_eq_cutAt] at bodyAlone
      have cutBody : IsSpelledName name (tag ++ closing ++ (body ++ endTag)) := by
        rw [parts, ← List.append_assoc _ (body ++ endTag)] at spelled
        exact spelled.of_append
      have whole := readConstruct_startTag cutBody (reads some (body ++ endTag))
      simp only [isVerbatim, isOpen, bodyAlone, isVoid_of_isVerbatim isVerbatim, Bool.or_false,
        Bool.not_false, Bool.and_true, if_true] at whole
      simpa using whole
  · next plain =>
      rw [selfClosed] at plain ⊢
      refine ⟨'<' :: name ++ tag ++ closing, by rw [parts]; simp,
        .startTag _ cut hides tagEnds fun isVerbatim => by simpa [isVerbatim] using plain,
          fun more => ?_⟩
      have alone := reads more []
      rw [List.append_nil] at alone
      have whole := readConstruct_startTag cut alone
      rw [selfClosed, if_neg plain] at whole
      simpa using whole

end

/-! ## The segmentation -/

/-- A tag spells its name with all the name characters at its head. -/
theorem isSpelledName_takeWhile {c : Char} (alpha : c.isAlpha = true) (input : Text) :
    IsSpelledName ((c :: input).takeWhile isNameChar) ((c :: input).dropWhile isNameChar) where
  letter := ⟨c, _, List.takeWhile_cons_of_pos (isNameChar_of_isAlpha alpha), alpha⟩
  chars := List.all_eq_true.1 List.all_takeWhile
  ends d first := by
    have stop := List.head?_dropWhile_not isNameChar (c :: input)
    rw [first] at stop
    simpa using stop

/-- Every text begins with a segment. -/
theorem beginsWith_readConstruct (c : Char) (input : Text) :
    BeginsWith (c :: input) (readConstruct (c :: input)) := by
  cases opens : Opening.of? (c :: input) with
  | none => exact beginsWith_text opens
  | some opening =>
      obtain ⟨mark, rest, same⟩ := exists_of_opening opens
      rw [same] at opens ⊢
      by_cases declares : mark = '!'
      · rw [declares] at opens ⊢
        rcases exists_of_declaration opens with
          ⟨_, inside, rfl⟩ | ⟨_, word, inside, spelled, rfl⟩ | ⟨_, word, inside, spelled,
            rfl⟩ | bogus
        · exact beginsWith_comment inside
        · have cdata := beginsWith_cdata spelled inside
          rwa [List.append_assoc] at cdata
        · exact beginsWith_doctype spelled inside
        · rw [bogus] at opens
          exact beginsWith_bogusComment opens
      · have whole : ∀ text : Text, text.takeWhile isNameChar ++
            text.dropWhile isNameChar = text :=
          fun text => List.takeWhile_append_dropWhile
        rcases opening_of_ne_mark opens declares with rfl | rfl | rfl
        · exact beginsWith_bogusComment opens
        · obtain ⟨d, inside, following, alpha⟩ := (isAlpha_of_opening opens).1 rfl
          have tag := beginsWith_endTag (isSpelledName_takeWhile alpha inside)
          rw [whole] at tag
          rw [following]
          exact tag
        · have tag := beginsWith_startTag
            (isSpelledName_takeWhile ((isAlpha_of_opening opens).2 rfl) rest)
          rwa [whole] at tag

/-- The tokens of a first segment are what is read of the text. -/
theorem tokenize_segment {c : Char} {input segment : Text}
    (parts : c :: input = segment ++ (readConstruct (c :: input)).2) (some : segment ≠ [])
    (alone : (readConstruct (c :: input)).2 ≠ [] →
      readConstruct segment = ((readConstruct (c :: input)).1, [])) :
    tokenize segment = (readConstruct (c :: input)).1 := by
  by_cases last : (readConstruct (c :: input)).2 = []
  · have whole : segment = c :: input := by
      rw [parts, last, List.append_nil]
    rw [whole, tokenize, last, tokenize, List.append_nil]
  · rw [tokenize_of_readConstruct some (alone last), tokenize, List.append_nil]

/-- A text is a sequence of segments, none of them empty, and its tokens are those of the segments,
each read by itself. -/
theorem tokenize_segmentation (input : Text) :
    ∃ segments : List Text, segments.flatten = input ∧ segments.flatMap tokenize = tokenize input ∧
      ∀ earlier segment later, segments = earlier ++ segment :: later →
        segment ≠ [] ∧ IsSegment later.flatten segment (tokenize segment) := by
  fun_induction tokenize input with
  | case1 => exact ⟨[], rfl, rfl, fun earlier segment later parts => by simp at parts⟩
  | case2 c input ih =>
      obtain ⟨segments, joined, tokens, each⟩ := ih
      obtain ⟨first, parts, isSegment, alone⟩ := beginsWith_readConstruct c input
      have some : first ≠ [] := by
        rintro rfl
        have shorter := length_readConstruct_lt c input
        rw [List.nil_append] at parts
        rw [← parts] at shorter
        exact Nat.lt_irrefl _ shorter
      have own := tokenize_segment parts some alone
      refine ⟨first :: segments, ?_, ?_, fun earlier segment later same => ?_⟩
      · rw [List.flatten_cons, joined, ← parts]
      · rw [List.flatMap_cons, own, tokens]
      · cases earlier with
        | nil =>
            obtain ⟨rfl, rfl⟩ := List.cons.inj same
            rw [own, joined]
            exact ⟨some, isSegment⟩
        | cons other earlier => exact each earlier segment later (List.cons.inj same).2

end HtmlMinifier.Token

/-
# Documents are read back

A document is read as the tokens of its marks and of the runs between them: a run has no bracket in
it, so it ends where the next mark begins, and a mark ends with its own bracket. The builder then
opens and closes nothing of its own accord, because no start tag of a document implies an end.
-/
import HtmlMinifier.Proofs.Canonical.FirstWriting
import HtmlMinifier.Proofs.Token.Opening

namespace HtmlMinifier.Canonical

open Event (IsContainer)
open Token (Opening IsTagName IsEncodedAttribute IsWrittenAttribute AvoidsEndTag tagTail endTagText
  opening_startTag opening_endTag opening_comment tokenize_of_readConstruct)

/-- The tokens of a run of text. -/
def runTokens (run : Text) : List Token := if run = [] then [] else [.text run]

/-- The tokens of a mark. -/
def Mark.tokens : Mark → List Token
  | .opening name attributes => [.startTag name attributes false]
  | .void name attributes => [.startTag name attributes true]
  | .verbatim name attributes body =>
      .startTag name attributes false :: (runTokens body ++ [.endTag name])
  | .closing name => [.endTag name]
  | .comment body => [.comment body]

/-- The tokens of a segment. -/
def Segment.tokens (segment : Segment) : List Token := runTokens segment.run ++ segment.mark.tokens

/-! ## One mark -/

theorem startTag_render_append (name : Text) (attributes : List (Text × Option Text))
    (rest : Text) :
    (Piece.startTag name attributes).render ++ rest = '<' ::
    (name ++ tagTail attributes rest) := by
  simp [Piece.render, tagTail]

/-- The name of a written tag ends where its attributes begin. -/
theorem takeWhile_name_append {name : Text} (named : IsTagName name)
    {attributes : List (Text × Option Text)} (safe : ∀ attr ∈ attributes, IsEncodedAttribute attr)
    (rest : Text) :
    (name ++ tagTail attributes rest).takeWhile Token.isNameChar = name ∧
      (name ++ tagTail attributes rest).dropWhile Token.isNameChar = tagTail attributes rest := by
  apply Text.takeWhile_append_of_stops named.chars
  intro d first
  obtain ⟨⟨c, later, same, ends⟩, _⟩ := Token.tagTail_eq_cons safe rest
  rw [same] at first
  cases first
  rcases ends with blank | rfl
  · cases named : Token.isNameChar d with
    | false => rfl
    | true =>
        rw [Token.isBlank_of_isNameChar named] at blank
        exact absurd blank Bool.false_ne_true
  · decide

/-- The reader takes a written start tag for one, whatever follows it. -/
theorem readConstruct_startTag_render {name : Text} (named : IsTagName name)
    (attributes : List (Text × Option Text)) (rest : Text) :
    Token.readConstruct ((Piece.startTag name attributes).render ++ rest) =
      Token.readStartTag (name ++ tagTail attributes rest) := by
  obtain ⟨c, later, same, alpha⟩ := named.letter
  have opens : Opening.of? ('<' :: (name ++ tagTail attributes rest)) = some .startTag := by
    rw [same]
    exact opening_startTag alpha _
  rw [startTag_render_append, Token.readConstruct, opens]
  rfl

/-- A start tag of an element that is not verbatim is read back. -/
theorem readStartTag_append {name : Text} (named : IsTagName name)
    (noVerbatim : Element.isVerbatim name = false) {attributes : List (Text × Option Text)}
    (safe : ∀ attr ∈ attributes, IsWrittenAttribute attr) (rest : Text) :
    Token.readStartTag (name ++ tagTail attributes rest) =
      ([.startTag name attributes (Element.isVoid name)], rest) := by
  obtain ⟨taken, dropped⟩ := takeWhile_name_append named
    (fun attr member => (safe attr member).toIsEncodedAttribute) rest
  simp only [Token.readStartTag, taken, dropped, named.lower,
    Token.readAttributes_tagTail safe rest, noVerbatim, Bool.false_and, Bool.false_or,
    Bool.false_eq_true, if_false]

/-- A verbatim element is read back with its body and its end tag. -/
theorem readStartTag_verbatim {name : Text} (named : IsTagName name)
    (isVerbatim : Element.isVerbatim name = true) {attributes : List (Text × Option Text)}
    (safe : ∀ attr ∈ attributes, IsWrittenAttribute attr) {body : Text}
    (avoids : AvoidsEndTag name body) (rest : Text) :
    Token.readStartTag (name ++ tagTail attributes (body ++ (endTagText name ++ rest))) =
      ((Mark.verbatim name attributes body).tokens, rest) := by
  obtain ⟨taken, dropped⟩ := takeWhile_name_append named
    (fun attr member => (safe attr member).toIsEncodedAttribute)
      (body ++ (endTagText name ++ rest))
  simp only [Token.readStartTag, taken, dropped, named.lower,
    Token.readAttributes_tagTail safe (body ++ (endTagText name ++ rest)), isVerbatim,
    Token.isVoid_of_isVerbatim isVerbatim, Bool.not_false, Bool.and_true, Bool.or_false, if_true,
    Token.readVerbatim_append named avoids rest, Mark.tokens, runTokens, List.cons_append]

/-- An end tag is read back. -/
theorem readEndTag_append {name : Text} (named : IsTagName name) (rest : Text) :
    Token.readEndTag (name ++ '>' :: rest) = ([.endTag name], rest) := by
  have stops : ∀ c, ('>' :: rest).head? = some c → Token.isNameChar c = false := by
    rintro c first
    cases first
    decide
  obtain ⟨taken, dropped⟩ := Text.takeWhile_append_of_stops named.chars stops
  have behind : Text.splitAt ['>'] ('>' :: rest) = ([], rest) := rfl
  rw [Token.readEndTag, taken, dropped, named.lower, behind]

/-- A mark is read back. -/
theorem readConstruct_render {collapseEmpty : Bool} {place : Place} {mark : Mark}
    (admitted : mark.Admitted place) (written : mark.IsWritten collapseEmpty) (rest : Text) :
    Token.readConstruct (mark.render ++ rest) = (mark.tokens, rest) := by
  cases admitted with
  | @opening name attributes container stands _ =>
      have tag := written name attributes rfl
      rw [Mark.render, readConstruct_startTag_render container.named,
        readStartTag_append container.named container.noVerbatim tag.safe, container.noVoid,
          Mark.tokens]
  | @void name attributes named isVoid stands _ =>
      have tag := written name attributes rfl
      have noVerbatim : Element.isVerbatim name = false := by
        cases isVerbatim : Element.isVerbatim name with
        | false => rfl
        | true =>
            rw [Token.isVoid_of_isVerbatim isVerbatim] at isVoid
            exact absurd isVoid Bool.false_ne_true
      rw [Mark.render, readConstruct_startTag_render named,
        readStartTag_append named noVerbatim tag.safe, isVoid, Mark.tokens]
  | @verbatim name attributes body named isVerbatim stands _ avoids fits =>
      have tag := written name attributes rfl
      have parts : (Mark.verbatim name attributes body).render ++ rest =
          (Piece.startTag name attributes).render ++ (body ++ (endTagText name ++ rest)) := by
        rw [Mark.render, List.append_assoc, List.append_assoc]
        rfl
      rw [parts, readConstruct_startTag_render named,
        readStartTag_verbatim named isVerbatim tag.safe avoids]
  | @closing name container current =>
      obtain ⟨c, later, same, alpha⟩ := container.named.letter
      have opens : Opening.of? ('<' :: '/' :: (name ++ '>' :: rest)) = some .endTag := by
        rw [same]
        exact opening_endTag alpha _
      have parts : (Mark.closing name).render ++ rest = '<' :: '/' :: (name ++ '>' :: rest) := by
        simp [Mark.render, Piece.render]
      rw [parts, Token.readConstruct, opens]
      simp only [List.drop_succ_cons, List.drop_zero]
      rw [readEndTag_append container.named, Mark.tokens]
  | @comment body avoids conditional =>
      have parts : (Mark.comment body).render ++ rest =
          "<!--".toList ++ (body ++ ("-->".toList ++ rest)) := by
        simp [Mark.render, Piece.render]
      have opens : Opening.of? ("<!--".toList ++ (body ++ ("-->".toList ++ rest))) =
          some .comment := opening_comment _
      rw [parts, Token.readConstruct, opens]
      have behind : ("<!--".toList ++ (body ++ ("-->".toList ++ rest))).drop 4 =
          body ++ ("-->".toList ++ rest) := rfl
      simp only [behind, Text.splitAt_commentEnd avoids, Mark.tokens]

theorem Mark.render_ne_nil (mark : Mark) : mark.render ≠ [] := by
  cases mark with
  | opening name attributes | void name attributes | closing name | comment body =>
      exact List.cons_ne_nil _ _
  | verbatim name attributes body => exact List.cons_ne_nil _ _

/-- What begins with a mark opens a construct. -/
theorem opening_isSome_render {collapseEmpty : Bool} {place : Place} {mark : Mark}
    (admitted : mark.Admitted place) (written : mark.IsWritten collapseEmpty) (rest : Text) :
    (Opening.of? (mark.render ++ rest)).isSome = true := by
  cases opens : Opening.of? (mark.render ++ rest) with
  | some opening => rfl
  | none =>
      exfalso
      have read := readConstruct_render admitted written rest
      rw [Token.readConstruct, opens] at read
      have tokens := congrArg Prod.fst read
      cases mark with
      | verbatim name attributes body => cases body <;> cases tokens
      | opening name attributes | void name attributes | closing name | comment body =>
          cases tokens

/-! ## Runs -/

/-- A run without brackets ends where a construct opens, or the text does. -/
theorem readText_append {run rest : Text} (solid : ∀ c ∈ run, c ≠ '<')
    (opens : rest = [] ∨ (Opening.of? rest).isSome = true) :
    Token.readText (run ++ rest) = (run, rest) := by
  induction run with
  | nil =>
      cases rest with
      | nil => rfl
      | cons c rest =>
          rcases opens with none | opens
          · cases none
          · rw [List.nil_append, Token.readText, if_pos opens]
  | cons c run ih =>
      have nothing : Opening.of? (c :: (run ++ rest)) = none :=
        Token.opening_of_ne_bracket (solid c List.mem_cons_self) _
      rw [List.cons_append, Token.readText, nothing,
        ih fun d inside => solid d (List.mem_cons_of_mem c inside)]
      rfl

/-- A run without brackets is one token, or none if it is empty. -/
theorem tokenize_run_append {run rest : Text} (solid : ∀ c ∈ run, c ≠ '<')
    (opens : rest = [] ∨ (Opening.of? rest).isSome = true) :
    Token.tokenize (run ++ rest) = runTokens run ++ Token.tokenize rest := by
  cases run with
  | nil => rfl
  | cons c run =>
      have nothing : Opening.of? (c :: (run ++ rest)) = none :=
        Token.opening_of_ne_bracket (solid c List.mem_cons_self) _
      apply tokenize_of_readConstruct (List.cons_ne_nil c _)
      change Token.readConstruct (c :: (run ++ rest)) = _
      rw [Token.readConstruct, nothing]
      simp only
      rw [← List.cons_append, readText_append solid opens]
      rfl

/-! ## Documents -/

/-- The elements around a text that stays open are containers. -/
def Place.IsContained (place : Place) : Prop := ∀ name ∈ place.ancestors, IsContainer name

theorem Place.isContained_start : Place.start.IsContained := fun _ member => nomatch member

theorem Mark.Admitted.isContained {place : Place} {mark : Mark}
    (admitted : mark.Admitted place) (contained : place.IsContained) :
    (place.after mark).IsContained := by
  cases admitted with
  | opening container stands encoded =>
      intro name member
      rcases List.mem_cons.1 member with rfl | outer
      · exact container
      · exact contained name outer
  | void named isVoid stands encoded => exact contained
  | verbatim named isVerbatim stands encoded avoids fits => exact contained
  | closing container current =>
      exact fun name member => contained name (List.mem_of_mem_tail member)
  | comment avoids conditional => exact contained

/-- The text of a container is markup. -/
theorem Place.IsContained.markup {place : Place} (contained : place.IsContained) :
    place.inRawText = false := by
  apply inRawText_of_markup
  intro current member
  have container : IsContainer current := contained current member
  cases raw : Element.isRawText current with
  | false => rfl
  | true =>
      exfalso
      have isVerbatim : Element.isVerbatim current = true := by
        simp only [Element.isRawText, Element.rawTextNames, List.contains_iff_mem, List.map_cons,
          List.map_nil, List.mem_cons, List.not_mem_nil, or_false] at raw
        rcases raw with rfl | rfl <;> decide
      rw [container.noVerbatim] at isVerbatim
      exact Bool.false_ne_true isVerbatim

/-- Laid segments and a run behind them are read as their tokens. -/
theorem tokenize_segments {collapseEmpty : Bool} {place final : Place} {segments : List Segment}
    (laid : Laid place segments final) (contained : place.IsContained)
    (written : ∀ segment ∈ segments, segment.mark.IsWritten collapseEmpty) {run : Text}
    (fits : final.Fits run) :
    Token.tokenize (renderSegments segments ++ run) =
      segments.flatMap Segment.tokens ++ runTokens run := by
  induction laid with
  | nil =>
      have whole := tokenize_run_append (fits.ne_bracket contained.markup) (.inl rfl)
      rw [List.append_nil, Token.tokenize, List.append_nil] at whole
      exact whole
  | @cons place final segment later runFits settled admitted _ ih =>
      have first := written segment List.mem_cons_self
      have opens := opening_isSome_render admitted first (renderSegments later ++ run)
      have read := tokenize_of_readConstruct
        (List.append_ne_nil_of_left_ne_nil segment.mark.render_ne_nil _)
        (readConstruct_render admitted first (renderSegments later ++ run))
      rw [renderSegments_cons, List.append_assoc, List.append_assoc,
        tokenize_run_append (runFits.ne_bracket contained.markup) (.inr opens), read,
        ih (admitted.isContained contained)
          (fun other inside => written other (List.mem_cons_of_mem segment inside)) fits,
        List.flatMap_cons, Segment.tokens]
      simp only [List.append_assoc]

/-- The tokens of a mark are built into its events, and the elements behind it stay open. -/
theorem ofTokensWithin_mark {place : Place} {mark : Mark} (admitted : mark.Admitted place)
    (later : List Token) :
    Event.ofTokensWithin place.ancestors (mark.tokens ++ later) =
      mark.events ++ Event.ofTokensWithin (place.after mark).ancestors later := by
  have stays : ∀ name, Event.impliedlyClosed name place.ancestors = [] →
      Event.afterImplied name place.ancestors = place.ancestors := by
    intro name stands
    have parts := Event.impliedlyClosed_append_afterImplied name place.ancestors
    rwa [stands, List.nil_append] at parts
  cases admitted with
  | @opening name attributes container stands encoded =>
      have atOnce : Event.closedAtOnce name false place.ancestors = false := by
        rw [Event.closedAtOnce, container.noVoid]
        rfl
      rw [Mark.tokens, List.singleton_append, Event.ofTokensWithin, Event.feed,
        Event.openTag_of_stays atOnce, stands, stays name stands]
      rfl
  | @void name attributes named isVoid stands encoded =>
      have atOnce : Event.closedAtOnce name true place.ancestors = true := by
        rw [Event.closedAtOnce, isVoid]
        rfl
      rw [Mark.tokens, List.singleton_append, Event.ofTokensWithin, Event.feed,
        Event.openTag_of_closedAtOnce atOnce, stands, stays name stands]
      rfl
  | @verbatim name attributes body named isVerbatim stands encoded avoids fits =>
      have whole := Event.ofTokensWithin_verbatim attributes body place.ancestors later isVerbatim
      rw [stands, stays name stands] at whole
      rw [Mark.tokens, runTokens, List.cons_append, List.append_assoc, List.singleton_append,
        whole,
        Mark.events, List.cons_append, List.append_assoc, List.singleton_append]
      rfl
  | @closing name container current =>
      obtain ⟨outer, around⟩ : ∃ outer, place.ancestors = name :: outer := by
        unfold Place.current? at current
        cases around : place.ancestors with
        | nil =>
            rw [around] at current
            cases current
        | cons first outer =>
            rw [around] at current
            cases current
            exact ⟨outer, rfl⟩
      rw [Mark.tokens, List.singleton_append, Event.ofTokensWithin, Event.feed, around,
        Event.closeTag_innermost, Place.after, around]
      rfl
  | comment avoids conditional => rfl

/-- The token of a run is built into its event. -/
theorem ofTokensWithin_run (stack : List Text) (run : Text) (later : List Token) :
    Event.ofTokensWithin stack (runTokens run ++ later) =
      (if run = [] then [] else [.characters run]) ++ Event.ofTokensWithin stack later := by
  by_cases none : run = []
  · rw [runTokens, if_pos none, if_pos none]
    rfl
  · rw [runTokens, if_neg none, if_neg none, List.singleton_append, Event.ofTokensWithin,
      Event.feed,
      if_neg none]

/-- The tokens of laid segments are built into their events. -/
theorem ofTokensWithin_segments {place final : Place} {segments : List Segment}
    (laid : Laid place segments final) (later : List Token) :
    Event.ofTokensWithin place.ancestors (segments.flatMap Segment.tokens ++ later) =
      segments.flatMap Segment.events ++ Event.ofTokensWithin final.ancestors later := by
  induction laid with
  | nil => rfl
  | @cons place final segment behind fits settled admitted _ ih =>
      rw [List.flatMap_cons, Segment.tokens, List.append_assoc, List.append_assoc,
        ofTokensWithin_run,
        ofTokensWithin_mark admitted, ih, List.flatMap_cons, Segment.events]
      simp only [List.append_assoc]

/-- The events of a document. -/
def documentEvents (segments : List Segment) (run : Text) : List Event :=
  segments.flatMap Segment.events ++ if run = [] then [] else [.characters run]

/-- The document type is read as one token. -/
theorem tokenize_doctype (rest : Text) :
    Token.tokenize (Element.doctype ++ rest) =
      .doctype "doctype html".toList :: Token.tokenize rest := by
  have read : Token.readConstruct (Element.doctype ++ rest) =
      ([.doctype "doctype html".toList], rest) := by
    rw [Token.readConstruct, show Opening.of? (Element.doctype ++ rest) = some .doctype from rfl]
    rfl
  exact tokenize_of_readConstruct (List.cons_ne_nil _ _) read

/-- A document is read as its events. -/
theorem parse_documentText {collapseEmpty : Bool} {segments : List Segment} {run : Text}
    (document : IsDocument collapseEmpty segments run) :
    Event.parse (documentText segments run) = .documentStart :: documentEvents segments run := by
  obtain ⟨tail, laid, fits⟩ := document.laid
  rw [Event.parse, documentText, List.append_assoc, tokenize_doctype,
    tokenize_segments laid Place.isContained_start document.written fits, Event.ofTokens,
    Event.ofTokensWithin, Event.feed, List.nil_append]
  have segmentEvents := ofTokensWithin_segments laid (runTokens run)
  have runEvents := ofTokensWithin_run [] run []
  rw [List.append_nil] at runEvents
  change _ :: Event.ofTokensWithin [] _ = _
  rw [show Place.start.ancestors = [] from rfl] at segmentEvents
  rw [segmentEvents, runEvents, documentEvents]
  simp [Event.ofTokensWithin, Event.closeAll]

end HtmlMinifier.Canonical

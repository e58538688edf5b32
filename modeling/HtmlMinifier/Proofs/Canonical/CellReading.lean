/-
# The tags and comments of a document

The start tags of a text and its comments are found by reading it. In a written document they are
those of its marks, as long as no body reaches beyond its end tag and no comment beyond its dashes.
This does not ask for elements to be closed in order, so it still holds where tags have been left
out.
-/
import HtmlMinifier.Proofs.Canonical.Cell
import HtmlMinifier.Proofs.Canonical.FirstWriting
import HtmlMinifier.Proofs.Canonical.PlainPiece

namespace HtmlMinifier

/-! ## What is looked for -/

/-- The name of a start tag. -/
def Token.startTagName? : Token → Option Text
  | .startTag name _ _ => some name
  | _ => none

/-- The body of a comment. -/
def Token.commentBody? : Token → Option Text
  | .comment body => some body
  | _ => none

/-- The names of the start tags of a text. -/
def Token.startTagNames (input : Text) : List Text := (tokenize input).filterMap startTagName?

/-- The bodies of the comments of a text. -/
def Token.commentBodies (input : Text) : List Text := (tokenize input).filterMap commentBody?

/-- The name of an element that is opened. -/
def Event.openedName? : Event → Option Text
  | .elementOpen name _ => some name
  | _ => none

/-- The body of a comment. -/
def Event.commentBody? : Event → Option Text
  | .comment body => some body
  | _ => none

/-! ## In events -/

namespace Event

/-- What is looked for in events is what is looked for in tokens: something in openings and
comments, and nothing in closes and text. -/
structure Corresponds {α : Type} (inToken : Token → Option α) (inEvent : Event → Option α) :
    Prop where
  opens : ∀ name attributes selfClosing,
    inEvent (opening name attributes) = inToken (.startTag name attributes selfClosing)
  closes : ∀ name, inEvent (.elementClose name) = none
  noEndTag : ∀ name, inToken (.endTag name) = none
  comment : ∀ body, inEvent (.comment body) = inToken (.comment body)
  cdata : ∀ body, inEvent (.cdata body) = inToken (.cdata body)
  characters : ∀ text, inEvent (.characters text) = none
  noText : ∀ body, inToken (.text body) = none
  noDoctype : ∀ body, inToken (.doctype body) = none
  noStart : inEvent .documentStart = none

section
variable {α : Type} {inToken : Token → Option α} {inEvent : Event → Option α}
  (corresponds : Corresponds inToken inEvent)
include corresponds

/-- Nothing is found in closes. -/
theorem filterMap_closeAll (names : List Text) : (closeAll names).filterMap inEvent = [] := by
  rw [List.filterMap_eq_nil_iff]
  intro event member
  obtain ⟨name, _, rfl⟩ := List.mem_map.1 member
  exact corresponds.closes name

/-- A start tag gives one opening among closes. -/
theorem filterMap_openTag (name : Text) (attributes : List (Text × Option Text))
    (selfClosing : Bool)
    (stack : OpenElements) :
    (openTag name attributes selfClosing stack).1.filterMap inEvent =
      (inEvent (opening name attributes)).toList := by
  have single : [opening name attributes].filterMap inEvent =
      (inEvent (opening name attributes)).toList := by
    rw [List.filterMap_cons]
    cases inEvent (opening name attributes) <;> rfl
  cases atOnce : closedAtOnce name selfClosing stack with
  | true =>
      have closed : [opening name attributes, .elementClose name].filterMap inEvent =
          (inEvent (opening name attributes)).toList := by
        rw [← single, List.filterMap_cons, List.filterMap_cons, List.filterMap_cons,
          corresponds.closes]
      rw [openTag_of_closedAtOnce atOnce, List.filterMap_append, filterMap_closeAll corresponds,
        closed,
        List.nil_append]
  | false =>
      rw [openTag_of_stays atOnce, List.filterMap_append, filterMap_closeAll corresponds, single,
        List.nil_append]

/-- What is found in a token is found in its events. -/
theorem filterMap_feed (stack : OpenElements) (token : Token) :
    (feed stack token).1.filterMap inEvent = (inToken token).toList := by
  cases token with
  | doctype body => rw [corresponds.noDoctype]; rfl
  | startTag name attributes selfClosing =>
      rw [feed, filterMap_openTag corresponds, corresponds.opens]
  | endTag name =>
      rw [feed, corresponds.noEndTag, closeTag]
      split
      · exact filterMap_closeAll corresponds _
      · rfl
  | comment body =>
      rw [feed, List.filterMap_cons, corresponds.comment]
      cases inToken (.comment body) <;> rfl
  | cdata body =>
      rw [feed, List.filterMap_cons, corresponds.cdata]
      cases inToken (.cdata body) <;> rfl
  | text body =>
      rw [feed, corresponds.noText]
      split
      · rfl
      · rw [List.filterMap_cons, corresponds.characters]
        rfl

/-- What is found in the tokens of a text is found in its events. -/
theorem filterMap_parse (input : Text) :
    (parse input).filterMap inEvent = (Token.tokenize input).filterMap inToken := by
  have within : ∀ tokens stack,
      (ofTokensWithin stack tokens).filterMap inEvent = tokens.filterMap inToken := by
    intro tokens
    induction tokens with
    | nil => exact filterMap_closeAll corresponds
    | cons token tokens ih =>
        intro stack
        rw [ofTokensWithin, List.filterMap_append, filterMap_feed corresponds, ih,
          List.filterMap_cons]
        cases inToken token <;> rfl
  rw [parse, ofTokens, List.filterMap_cons, corresponds.noStart, within]

end

/-- The elements that a text opens are those of its start tags. -/
theorem openedNames_parse (input : Text) :
    (parse input).filterMap openedName? = Token.startTagNames input := by
  apply filterMap_parse
  constructor <;> intros <;> rfl

/-- A text is read with its comments. -/
theorem commentBodies_parse (input : Text) :
    (parse input).filterMap commentBody? = Token.commentBodies input := by
  apply filterMap_parse
  constructor <;> intros <;> rfl

end Event

namespace Canonical

open Event (letterTokens tokenStrokes tokensOf)
open Token (startTagName? commentBody? tagTail readVerbatim AvoidsEndTag opening_comment)

/-! ## In marks -/

/-- The name of the start tag of a mark. -/
def Mark.name? (mark : Mark) : Option Text := mark.startTag?.map Prod.fst

/-- The body of a comment. -/
def Mark.comment? : Mark → Option Text
  | .comment body => some body
  | _ => none

theorem Mark.comment?_eq_some_iff {mark : Mark} {body : Text} :
    mark.comment? = some body ↔ mark = .comment body := by
  cases mark <;> simp [comment?]

/-- A mark whose body, if it is a verbatim element, is read up to the end tag that is written. A
body without brackets is no more than text, whether or not its start tag is read as one that closes
itself. -/
def Mark.KeepsBody : Mark → Prop
  | .verbatim name attributes body =>
      AvoidsEndTag name body ∧
        ((tagRead attributes).selfClosing = false ∨ ∀ c ∈ body, c ≠ '<')
  | _ => True

/-- A comment is read up to its first end. -/
theorem tokensOf_comment (body rest : Text) :
    tokensOf ((Mark.comment body).render ++ rest) =
      .comment (Text.splitAt "-->".toList (body ++ ("-->".toList ++ rest))).1 ::
        tokensOf (Text.splitAt "-->".toList (body ++ ("-->".toList ++ rest))).2 := by
  have parts : (Mark.comment body).render ++ rest =
      "<!--".toList ++ (body ++ ("-->".toList ++ rest)) := by
    simp [Mark.render, Piece.render]
  have read : Token.readConstruct ("<!--".toList ++ (body ++ ("-->".toList ++ rest))) =
      ([.comment (Text.splitAt "-->".toList (body ++ ("-->".toList ++ rest))).1],
        (Text.splitAt "-->".toList (body ++ ("-->".toList ++ rest))).2) := by
    have opens : Token.Opening.of? ("<!--".toList ++ (body ++ ("-->".toList ++ rest))) =
        some .comment := opening_comment _
    rw [Token.readConstruct, opens]
    rfl
  have some : "<!--".toList ++ (body ++ ("-->".toList ++ rest)) ≠ [] := List.cons_ne_nil _ _
  rw [parts, tokensOf_of_readConstruct some read]
  rfl

/-- Nothing is looked for in letters. -/
theorem filterMap_letterTokens {f : Token → Option Text} (noText : ∀ body, f (.text body) = none)
    (text : Text) : (letterTokens text).filterMap f = [] := by
  rw [letterTokens, List.filterMap_eq_nil_iff]
  intro token member
  obtain ⟨c, _, rfl⟩ := List.mem_map.1 member
  exact noText [c]

/-- What is looked for is found among the strokes of tokens. -/
theorem filterMap_tokensOf {f : Token → Option Text} (noText : ∀ body, f (.text body) = none)
    (input : Text) : (tokensOf input).filterMap f = (Token.tokenize input).filterMap f := by
  rw [tokensOf]
  induction Token.tokenize input with
  | nil => rfl
  | cons token tokens ih =>
      rw [List.flatMap_cons, List.filterMap_append, ih, List.filterMap_cons]
      cases token with
      | text body =>
          rw [tokenStrokes, filterMap_letterTokens noText, noText]
          rfl
      | doctype body | startTag name attributes selfClosing | endTag name | comment body
      | cdata body =>
          rw [tokenStrokes, List.filterMap_cons]
          · cases f _ <;> rfl
          · simp

/-- A mark that is no comment is read up to its end. -/
theorem exists_tokensOf_mark {mark : Mark} (named : IsNamedMark mark) (keeps : mark.KeepsBody)
    (noComment : mark.comment? = none) :
    ∃ tokens : List Token, tokens.filterMap startTagName? = mark.name?.toList ∧
      tokens.filterMap commentBody? = [] ∧
      ∀ rest, tokensOf (mark.render ++ rest) = tokens ++ tokensOf rest := by
  cases named with
  | @opening name attributes named noVerbatim encoded =>
      refine ⟨(Piece.startTag name attributes).spelled, rfl, rfl, fun rest => ?_⟩
      rw [Mark.render, tokensOf_startTag named encoded, enters?_of_noVerbatim noVerbatim]
  | @void name attributes named isVoid encoded =>
      have noVerbatim : Element.isVerbatim name = false := by
        cases isVerbatim : Element.isVerbatim name with
        | false => rfl
        | true => rw [← isVoid, Token.isVoid_of_isVerbatim isVerbatim]
      refine ⟨(Piece.startTag name attributes).spelled, rfl, rfl, fun rest => ?_⟩
      rw [Mark.render, tokensOf_startTag named encoded, enters?_of_noVerbatim noVerbatim]
  | @closing name named =>
      refine ⟨[.endTag name], rfl, rfl, fun rest => ?_⟩
      rw [Mark.render, tokensOf_endTag named]
      rfl
  | comment body => cases noComment
  | @verbatim name attributes body named isVerbatim encoded =>
      obtain ⟨avoids, readable⟩ := keeps
      have ends : (Piece.endTag name).render = Token.endTagText name := rfl
      refine ⟨(Piece.startTag name attributes).spelled ++ (letterTokens body ++ [.endTag name]),
        ?_, ?_,
        fun rest => ?_⟩
      · rw [List.filterMap_append, List.filterMap_append, filterMap_letterTokens fun _ => rfl]
        rfl
      · rw [List.filterMap_append, List.filterMap_append, filterMap_letterTokens fun _ => rfl]
        rfl
      · rw [Mark.render, List.append_assoc, List.append_assoc, tokensOf_startTag named encoded]
        cases closes : (tagRead attributes).selfClosing with
        | false =>
            have enters : (Piece.startTag name attributes).enters? = some name := by
              rw [Piece.enters?, isVerbatim, closes]
              rfl
            rw [enters, ends]
            simp only [Token.readVerbatim_append named avoids, List.append_assoc,
              List.singleton_append]
        | true =>
            have enters : (Piece.startTag name attributes).enters? = none := by
              rw [Piece.enters?, closes, Bool.not_true, Bool.and_false, if_neg Bool.false_ne_true]
            have solid := readable.resolve_left (by rw [closes]; exact (Bool.false_ne_true ·.symm))
            rw [enters]
            simp only [tokensOf_append solid, tokensOf_endTag named, List.append_assoc,
              List.singleton_append]

/-- The start tags of cells are those of their marks if every comment ends where it is written
to. -/
theorem filterMap_startTagName?_cells {lead : Text} {cells : List Cell}
    (named : AreNamed lead cells)
    (keeps : ∀ cell ∈ cells, cell.mark.KeepsBody)
    (ends : ∀ cell ∈ cells, ∀ body, cell.mark = .comment body → Text.Avoids "-->".toList body) :
    (tokensOf (lead ++ renderCells cells)).filterMap startTagName? =
      (cells.map Cell.mark).filterMap Mark.name? := by
  induction cells generalizing lead with
  | nil =>
      rw [tokensOf_append named.lead, renderCells_nil, tokensOf_nil, List.append_nil,
        filterMap_letterTokens fun _ => rfl]
      rfl
  | cons cell cells ih =>
      have later := ih named.tail (fun other inside =>
        keeps other (List.mem_cons_of_mem cell inside))
        fun other inside => ends other (List.mem_cons_of_mem cell inside)
      rw [tokensOf_append named.lead, renderCells_cons, List.filterMap_append,
        filterMap_letterTokens (fun _ => rfl), List.nil_append, List.map_cons, List.filterMap_cons]
      cases isComment : cell.mark.comment? with
      | none =>
          obtain ⟨tokens, names, _, read⟩ := exists_tokensOf_mark
            (named.marks cell List.mem_cons_self) (keeps cell List.mem_cons_self) isComment
          rw [read, List.filterMap_append, names, later]
          cases cell.mark.name? <;> rfl
      | some body =>
          have same := Mark.comment?_eq_some_iff.1 isComment
          rw [same, tokensOf_comment,
            Text.splitAt_commentEnd (ends cell List.mem_cons_self body same),
            List.filterMap_cons, later]
          rfl

end Canonical

end HtmlMinifier

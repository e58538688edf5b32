/-
# Text character by character

What is read of a written text is cut into tokens, and a run of text is one of them. Where runs are
joined because a tag between them is left out, it is easier to look at every character by itself:
then what stands in front adds to the tokens of the rest, whatever that is.

A value that ends with a slash may change what its own tag is read as, and nothing else.
-/
import HtmlMinifier.Proofs.Canonical.ReadBack
import HtmlMinifier.Proofs.Event.Preserved
import HtmlMinifier.Proofs.Event.Reading

namespace HtmlMinifier.Canonical

open Event (charTokens tokenChars letterTokens tokenStrokes tokensOf)
open Token (Opening IsTagName IsEncodedAttribute tagTail readVerbatim opening_endTag
  tokenize_of_readConstruct)

/-! ## Tags -/

/-- What is read between the name of a written start tag and its end. -/
def tagRead (attributes : List (Text × Option Text)) : Token.TagInside :=
  Token.readAttributes (tagTail attributes [])

/-- What a piece is read as by itself. -/
def Piece.spelled : Piece → List Token
  | .doctype => [.doctype "doctype html".toList]
  | .startTag name attributes =>
      [.startTag name (tagRead attributes).attributes
        ((tagRead attributes).selfClosing || Element.isVoid name)]
  | .endTag name => [.endTag name]
  | .comment body => [.comment body]
  | .run _ text => letterTokens text

/-- The verbatim element that a piece begins. -/
def Piece.enters? : Piece → Option Text
  | .startTag name attributes =>
      if Element.isVerbatim name && !(tagRead attributes).selfClosing then some name else none
  | _ => none

/-- Only the tag of a verbatim element begins one. -/
theorem enters?_of_noVerbatim {name : Text} (noVerbatim : Element.isVerbatim name = false)
    (attributes : List (Text × Option Text)) :
    (Piece.startTag name attributes).enters? = none := by
  rw [Piece.enters?, noVerbatim, Bool.false_and, if_neg Bool.false_ne_true]

/-- Whatever its attributes are, a written start tag is read up to its bracket. -/
theorem readAttributes_eq_tagRead {attributes : List (Text × Option Text)}
    (encoded : ∀ attr ∈ attributes, IsEncodedAttribute attr) (rest : Text) :
    Token.readAttributes (tagTail attributes rest) =
      ⟨(tagRead attributes).attributes, (tagRead attributes).selfClosing, rest⟩ := by
  obtain ⟨read, selfClosing, whole⟩ := Token.exists_readAttributes_tagTail encoded
  rw [tagRead, whole, whole]

/-! ## Characters -/

/-- The tokens of a text with every character by itself. -/
def charsOf (input : Text) : List Token := (Token.tokenize input).flatMap tokenChars

@[simp]
theorem charsOf_nil : charsOf [] = [] := by
  rw [charsOf, Token.tokenize]
  rfl

/-- A construct that is read is a first part of the tokens. -/
theorem charsOf_of_readConstruct {text rest : Text} {tokens : List Token} (some : text ≠ [])
    (read : Token.readConstruct text = (tokens, rest)) :
    charsOf text = tokens.flatMap tokenChars ++ charsOf rest := by
  rw [charsOf, tokenize_of_readConstruct some read, List.flatMap_append, ← charsOf]

/-- A character that opens nothing stands by itself in front of what follows it. -/
theorem charsOf_cons {c : Char} {text : Text} (nothing : Opening.of? (c :: text) = none) :
    charsOf (c :: text) = charTokens [c] ++ charsOf text := by
  have read : Token.readConstruct (c :: text) =
      ([.text (c :: (Token.readText text).1)], (Token.readText text).2) := by
    rw [Token.readConstruct, nothing]
    simp only [Token.readText, nothing, Option.isSome_none, Bool.false_eq_true, if_false]
  have parts : charTokens (c :: (Token.readText text).1) =
      charTokens [c] ++ charTokens (Token.readText text).1 := by
    rw [← Event.charTokens_append, List.singleton_append]
  rw [charsOf_of_readConstruct (List.cons_ne_nil c text) read, List.flatMap_singleton, tokenChars,
    parts, List.append_assoc]
  congr 1
  cases text with
  | nil => rfl
  | cons d text =>
      cases opens : Opening.of? (d :: text) with
      | some opening =>
          rw [Token.readText, opens]
          rfl
      | none =>
          have again : Token.readConstruct (d :: text) =
              ([.text (Token.readText (d :: text)).1], (Token.readText (d :: text)).2) := by
            rw [Token.readConstruct, opens]
          rw [charsOf_of_readConstruct (List.cons_ne_nil d text) again, List.flatMap_singleton,
            tokenChars]

/-- A run without brackets stands in front of whatever follows it. -/
theorem charsOf_append {run : Text} (solid : ∀ c ∈ run, c ≠ '<') (rest : Text) :
    charsOf (run ++ rest) = charTokens run ++ charsOf rest := by
  induction run with
  | nil => rfl
  | cons c run ih =>
      have nothing : Opening.of? (c :: (run ++ rest)) = none :=
        Token.opening_of_ne_bracket (solid c List.mem_cons_self) _
      have parts : charTokens (c :: run) = charTokens [c] ++ charTokens run := by
        rw [← Event.charTokens_append, List.singleton_append]
      rw [List.cons_append, charsOf_cons nothing,
        ih fun d inside => solid d (List.mem_cons_of_mem c inside), parts, List.append_assoc]

/-- A start tag is spelled in front of what it leaves to be read. -/
theorem charsOf_startTag {name : Text} {attributes : List (Text × Option Text)}
    (named : IsTagName name) (encoded : ∀ attr ∈ attributes, IsEncodedAttribute attr)
    (rest : Text) :
    charsOf ((Piece.startTag name attributes).render ++ rest) =
      (Piece.startTag name attributes).spelled ++
        match (Piece.startTag name attributes).enters? with
        | some name =>
            charTokens (readVerbatim name rest).1 ++
              .endTag name :: charsOf (readVerbatim name rest).2
        | none => charsOf rest := by
  obtain ⟨taken, dropped⟩ := takeWhile_name_append named encoded rest
  have construct := readConstruct_startTag_render named attributes rest
  have some : (Piece.startTag name attributes).render ++ rest ≠ [] := by
    rw [startTag_render_append]
    exact List.cons_ne_nil _ _
  rw [Token.readStartTag, taken, dropped, named.lower,
    readAttributes_eq_tagRead encoded] at construct
  cases enters : Element.isVerbatim name && !(tagRead attributes).selfClosing with
  | true =>
      have body : ∀ text : Text,
          (if text = [] then [] else [Token.text text]).flatMap tokenChars = charTokens text := by
        intro text
        by_cases none : text = []
        · rw [if_pos none, none]
          rfl
        · rw [if_neg none, List.flatMap_singleton, tokenChars]
      simp only [enters, if_true] at construct
      rw [charsOf_of_readConstruct some construct, Piece.enters?, enters, if_pos rfl,
        Piece.spelled]
      simp only [List.flatMap_append, List.flatMap_cons, body, List.flatMap_nil, tokenChars,
        List.append_assoc, List.cons_append, List.nil_append, List.append_nil]
  | false =>
      simp only [enters, Bool.false_eq_true, if_false] at construct
      rw [charsOf_of_readConstruct some construct, Piece.enters?, enters,
        if_neg Bool.false_ne_true, Piece.spelled]
      rfl

/-- An end tag is spelled in front of what follows it. -/
theorem charsOf_endTag {name : Text} (named : IsTagName name) (rest : Text) :
    charsOf ((Piece.endTag name).render ++ rest) = .endTag name :: charsOf rest := by
  obtain ⟨c, later, same, alpha⟩ := named.letter
  have opens : Opening.of? ('<' :: '/' :: (name ++ '>' :: rest)) = some .endTag := by
    rw [same]
    exact opening_endTag alpha _
  have parts : (Piece.endTag name).render ++ rest = '<' :: '/' :: (name ++ '>' :: rest) := by
    simp [Piece.render]
  have read : Token.readConstruct ('<' :: '/' :: (name ++ '>' :: rest)) =
      ([.endTag name], rest) := by
    rw [Token.readConstruct, opens]
    simp only [List.drop_succ_cons, List.drop_zero]
    rw [readEndTag_append named]
  rw [parts, charsOf_of_readConstruct (List.cons_ne_nil _ _) read]
  rfl

/-- The document type is one token in front of what follows it. -/
theorem charsOf_doctype (rest : Text) :
    charsOf (Element.doctype ++ rest) = .doctype "doctype html".toList :: charsOf rest := by
  rw [charsOf, tokenize_doctype]
  rfl

/-! ## Blanks left out -/

/-- Whether a token is nothing but blanks. -/
def isBlankText : Token → Bool
  | .text body => body.all Text.isBlank
  | _ => false

theorem letterTokens_eq_filter (text : Text) :
    letterTokens text = (charTokens text).filter fun token => !isBlankText token := by
  rw [letterTokens, Event.solid, charTokens, List.filter_map]
  congr 2
  funext c
  simp [isBlankText]

/-- The strokes of a text are its characters without the blanks. -/
theorem tokensOf_eq_filter (text : Text) :
    tokensOf text = (charsOf text).filter fun token => !isBlankText token := by
  rw [tokensOf, charsOf, List.filter_flatMap]
  congr 1
  funext token
  cases token with
  | text body => exact letterTokens_eq_filter body
  | doctype body | startTag name attributes selfClosing | endTag name | comment body
  | cdata body => rfl

@[simp]
theorem tokensOf_nil : tokensOf [] = [] := by
  rw [tokensOf_eq_filter, charsOf_nil, List.filter_nil]

/-- A construct that is read is a first part of the tokens. -/
theorem tokensOf_of_readConstruct {text rest : Text} {tokens : List Token} (some : text ≠ [])
    (read : Token.readConstruct text = (tokens, rest)) :
    tokensOf text = tokens.flatMap tokenStrokes ++ tokensOf rest := by
  rw [tokensOf, tokenize_of_readConstruct some read, List.flatMap_append, ← tokensOf]

/-- A run without brackets stands in front of whatever follows it. -/
theorem tokensOf_append {run : Text} (solid : ∀ c ∈ run, c ≠ '<') (rest : Text) :
    tokensOf (run ++ rest) = letterTokens run ++ tokensOf rest := by
  rw [tokensOf_eq_filter, charsOf_append solid, List.filter_append, ← letterTokens_eq_filter,
    ← tokensOf_eq_filter]

/-- A start tag is spelled in front of what it leaves to be read. -/
theorem tokensOf_startTag {name : Text} {attributes : List (Text × Option Text)}
    (named : IsTagName name) (encoded : ∀ attr ∈ attributes, IsEncodedAttribute attr)
    (rest : Text) :
    tokensOf ((Piece.startTag name attributes).render ++ rest) =
      (Piece.startTag name attributes).spelled ++
        match (Piece.startTag name attributes).enters? with
        | some name =>
            letterTokens (readVerbatim name rest).1 ++
              .endTag name :: tokensOf (readVerbatim name rest).2
        | none => tokensOf rest := by
  have kept : (Piece.startTag name attributes).spelled.filter (fun token => !isBlankText token) =
      (Piece.startTag name attributes).spelled := rfl
  rw [tokensOf_eq_filter, charsOf_startTag named encoded, List.filter_append, kept]
  split
  · rw [List.filter_append, ← letterTokens_eq_filter, List.filter_cons_of_pos rfl,
      ← tokensOf_eq_filter]
  · rw [← tokensOf_eq_filter]

/-- An end tag is spelled in front of what follows it. -/
theorem tokensOf_endTag {name : Text} (named : IsTagName name) (rest : Text) :
    tokensOf ((Piece.endTag name).render ++ rest) = .endTag name :: tokensOf rest := by
  rw [tokensOf_eq_filter, charsOf_endTag named, List.filter_cons_of_pos rfl, ← tokensOf_eq_filter]

end HtmlMinifier.Canonical

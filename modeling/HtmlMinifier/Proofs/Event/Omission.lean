/-
# End tags that a reader supplies again

A reader that meets no end tag where an element ends keeps the element open. It is closed later: by
a start tag that implies its end, by the end tag of an element around it, or by the end of the
document. Where nothing is shown in between, it does not matter that the end tag was missing.

What is missing is kept as a list of pending ends. A reader of the tokens that are left has the
pending elements open on top of those that a reader of all tokens has, and owes their closes.
-/
import HtmlMinifier.Proofs.Event.Legible
import HtmlMinifier.Proofs.Event.Reading

namespace HtmlMinifier.Event

/-! ## Tokens that leave nothing to the reader -/

/-- Whether a token says itself what it opens and closes: no start tag implies an end, and an end
tag is that of the innermost element. -/
def IsExplicitAt (stack : OpenElements) : Token → Prop
  | .startTag name _ _ => impliedlyClosed name stack = []
  | .endTag name => stack.head? = some name
  | _ => True

/-- Tokens that leave nothing to a reader with these elements open. -/
def Explicit : OpenElements → List Token → Prop
  | _, [] => True
  | stack, token :: later => IsExplicitAt stack token ∧ Explicit (feed stack token).2 later

/-- Without implied ends all elements stay open. -/
theorem afterImplied_of_stands {name : Text} {stack : OpenElements}
    (stands : impliedlyClosed name stack = []) : afterImplied name stack = stack := by
  have parts := impliedlyClosed_append_afterImplied name stack
  rwa [stands, List.nil_append] at parts

/-- A start tag that implies no end opens its element, and closes it if it closes at once. -/
theorem feed_of_stands {name : Text} {stack : OpenElements}
    (stands : impliedlyClosed name stack = []) (attributes : List (Text × Option Text))
    (selfClosing : Bool) :
    feed stack (.startTag name attributes selfClosing) =
      if closedAtOnce name selfClosing stack then
        ([opening name attributes, .elementClose name], stack)
      else ([opening name attributes], name :: stack) := by
  rw [feed]
  split
  · next closes =>
      rw [openTag_of_closedAtOnce closes, stands, afterImplied_of_stands stands]
      rfl
  · next stays =>
      rw [openTag_of_stays (by simpa using stays), stands, afterImplied_of_stands stands]
      rfl

/-- Text does not matter for what tags open and close. -/
theorem explicit_texts_append {texts later : List Token} {stack : OpenElements}
    (isText : ∀ token ∈ texts, ∃ body, token = .text body) (explicit : Explicit stack later) :
    Explicit stack (texts ++ later) := by
  induction texts with
  | nil => exact explicit
  | cons token texts ih =>
      obtain ⟨⟨body, rfl⟩, others⟩ := List.forall_mem_cons.1 isText
      exact ⟨trivial, ih others⟩

theorem explicit_letterTokens_append {text : Text} {later : List Token} {stack : OpenElements}
    (explicit : Explicit stack later) : Explicit stack (letterTokens text ++ later) := by
  refine explicit_texts_append (fun token member => ?_) explicit
  obtain ⟨c, _, rfl⟩ := List.mem_map.1 member
  exact ⟨[c], rfl⟩

/-- Explicit tokens stay explicit when texts are cut into characters. -/
theorem Explicit.flatMap_tokenStrokes {tokens : List Token} {stack : OpenElements}
    (explicit : Explicit stack tokens) : Explicit stack (tokens.flatMap tokenStrokes) := by
  induction tokens generalizing stack with
  | nil => trivial
  | cons token tokens ih =>
      have later := ih explicit.2
      rw [List.flatMap_cons]
      cases token with
      | text body => exact explicit_letterTokens_append later
      | doctype | startTag | endTag | comment | cdata => exact ⟨explicit.1, later⟩

/-! ## Ends that are pending -/

/-- Whether a token is a tag. -/
def isTag : Token → Bool
  | .startTag _ _ _ => true
  | .endTag _ => true
  | _ => false

/-- All tokens and those that are left of them, with the ends that are pending. An end tag may be
left out anywhere. Before anything is shown, the pending ends have to be implied by a start tag, or
closed by the end tag of an element around them. -/
inductive Omitted : List Text → List Token → List Token → Prop
  | done (pending : List Text) : Omitted pending [] []
  | out {pending : List Text} {name : Text} {all kept : List Token} :
      Omitted (pending ++ [name]) all kept → Omitted pending (.endTag name :: all) kept
  | opens {pending : List Text} {name : Text} {attributes : List (Text × Option Text)}
      {selfClosing : Bool} {all kept : List Token}
      (implied : ∀ ended ∈ pending, ended ∈ Element.impliedEnds name) :
      Omitted [] all kept → Omitted pending (.startTag name attributes selfClosing :: all)
        (.startTag name attributes selfClosing :: kept)
  | closes {pending : List Text} {name : Text} {all kept : List Token} (other : name ∉ pending) :
      Omitted [] all kept → Omitted pending (.endTag name :: all) (.endTag name :: kept)
  | shows {token : Token} {all kept : List Token} (noTag : isTag token = false) :
      Omitted [] all kept → Omitted [] (token :: all) (token :: kept)

/-- A start tag that implies all pending ends supplies them, and is read as if they had been
there. -/
theorem openTag_pending {pending stack : OpenElements} {name : Text}
    (implied : ∀ ended ∈ pending, ended ∈ Element.impliedEnds name)
    (stands : impliedlyClosed name stack = []) (attributes : List (Text × Option Text))
    (selfClosing : Bool) :
    openTag name attributes selfClosing (pending ++ stack) =
      (closeAll pending ++ (openTag name attributes selfClosing stack).1,
        (openTag name attributes selfClosing stack).2) := by
  have listed : ∀ ended ∈ pending, (Element.impliedEnds name).contains ended = true :=
    fun ended member => List.contains_iff_mem.2 (implied ended member)
  have closed : impliedlyClosed name (pending ++ stack) = pending := by
    rw [impliedlyClosed, List.takeWhile_append_of_pos listed, ← impliedlyClosed, stands,
      List.append_nil]
  have rest : afterImplied name (pending ++ stack) = stack := by
    rw [afterImplied, List.dropWhile_append_of_pos listed, ← afterImplied,
      afterImplied_of_stands stands]
  simp only [openTag, closed, rest, stands, afterImplied_of_stands stands]
  split
  · simp [closeAll]
  · simp [closeAll]

/-- The end tag of an element around all pending ones supplies their ends. -/
theorem closeTag_pending {pending : OpenElements} {name : Text} (other : name ∉ pending)
    (outer : OpenElements) :
    closeTag name (pending ++ name :: outer) =
      (closeAll pending ++ [.elementClose name], outer) := by
  have differ : ∀ ended ∈ pending, (decide (ended ≠ name)) = true := by
    intro ended member
    rw [decide_eq_true_eq]
    rintro rfl
    exact other member
  have listed : (pending ++ name :: outer).contains name = true := by simp
  rw [closeTag, if_pos listed, List.takeWhile_append_of_pos differ,
    List.dropWhile_append_of_pos differ]
  simp [closeAll]

/-- What is left of explicit tokens is read as all of them are, behind the closes of the pending
elements. -/
theorem Omitted.ofTokensWithin_eq {pending : List Text} {all kept : List Token}
    (omitted : Omitted pending all kept) {stack : OpenElements} (explicit : Explicit stack all) :
    ofTokensWithin (pending ++ stack) kept = closeAll pending ++ ofTokensWithin stack all := by
  induction omitted generalizing stack with
  | done pending => rw [ofTokensWithin, ofTokensWithin, closeAll_append]
  | @out pending name all kept _ ih =>
      obtain ⟨innermost, later⟩ := explicit
      obtain ⟨outer, rfl⟩ := List.head?_eq_some_iff.1 innermost
      rw [feed, closeTag_innermost] at later
      have read := ih later
      rw [List.append_assoc, List.singleton_append] at read
      rw [read, ofTokensWithin, feed, closeTag_innermost, closeAll_append, List.append_assoc]
      rfl
  | @opens pending name attributes selfClosing all kept implied _ ih =>
      obtain ⟨stands, later⟩ := explicit
      have read := ih later
      rw [List.nil_append] at read
      rw [ofTokensWithin, feed, openTag_pending implied stands, ofTokensWithin, List.append_assoc]
      exact congrArg (fun events => closeAll pending ++ (_ ++ events)) read
  | @closes pending name all kept other _ ih =>
      obtain ⟨innermost, later⟩ := explicit
      obtain ⟨outer, rfl⟩ := List.head?_eq_some_iff.1 innermost
      rw [feed, closeTag_innermost] at later
      have read := ih later
      rw [List.nil_append] at read
      rw [ofTokensWithin, feed, closeTag_pending other, ofTokensWithin, feed, closeTag_innermost,
        List.append_assoc]
      exact congrArg (fun events => closeAll pending ++ ([.elementClose name] ++ events)) read
  | @shows token all kept noTag _ ih =>
      have read := ih explicit.2
      rw [List.nil_append, ofTokensWithin, ofTokensWithin]
      exact congrArg (fun events => (feed stack token).1 ++ events) read

end HtmlMinifier.Event

/-
# Words in brackets

A word in brackets has no further bracket in it, so the words in brackets of a text do not overlap
and have an order. A bracket that opens is forgotten at the next one that does, and a bracket that
closes is passed over if none is open. Taking a part out of a text may join what stands around it
to a new word, but every other word stays where it is.
-/
import HtmlMinifier.Text.Basic

namespace HtmlMinifier.Text

/-- The words in brackets of a text. `opened` is what stands in front of the text behind a bracket
that is open, given backwards. -/
def bracketedFrom : (opened : Option Text) → (text : Text) → List Text
  | _, [] => []
  | opened, c :: text =>
      if c = '<' then bracketedFrom (some []) text
      else if c = '>' then (opened.map List.reverse).toList ++ bracketedFrom none text
      else bracketedFrom (opened.map (c :: ·)) text

/-- The words in brackets of a text, in order. -/
def bracketed (text : Text) : List Text := bracketedFrom none text

example : bracketed "a<b>c<<d e>>f<g".toList = ["b", "d e"].map String.toList := by decide

/-- What stands behind a bracket that opens does not depend on what stands in front of it. -/
theorem bracketedFrom_append_open (opened : Option Text) (first text : Text) :
    bracketedFrom opened (first ++ '<' :: text) =
      bracketedFrom opened first ++ bracketedFrom (some []) text := by
  induction first generalizing opened with
  | nil => rfl
  | cons c first ih =>
      rw [List.cons_append, bracketedFrom, bracketedFrom]
      split
      · exact ih _
      · split
        · rw [ih, List.append_assoc]
        · exact ih _

/-- A word ends at the bracket that closes. -/
theorem bracketedFrom_word {word : Text} (solid : ∀ c ∈ word, c ≠ '<' ∧ c ≠ '>')
    (opened text : Text) :
    bracketedFrom (some opened) (word ++ '>' :: text) =
      (opened.reverse ++ word) :: bracketed text := by
  induction word generalizing opened with
  | nil =>
      rw [List.nil_append, List.append_nil]
      rfl
  | cons c word ih =>
      obtain ⟨noOpen, noClose⟩ := solid c List.mem_cons_self
      rw [List.cons_append, bracketedFrom, if_neg noOpen, if_neg noClose]
      have further := ih (fun d inside => solid d (List.mem_cons_of_mem c inside)) (c :: opened)
      rwa [List.reverse_cons, List.append_assoc, List.singleton_append] at further

/-- A word in brackets parts the others. -/
theorem bracketed_append_word {word : Text} (solid : ∀ c ∈ word, c ≠ '<' ∧ c ≠ '>')
    (first text : Text) :
    bracketed (first ++ '<' :: (word ++ '>' :: text)) =
      bracketed first ++ word :: bracketed text := by
  rw [bracketed, bracketedFrom_append_open, bracketedFrom_word solid]
  rfl

/-- A bracket that is open in front of a text may add a word to those of the text. -/
theorem bracketed_sublist_bracketedFrom (opened : Option Text) (text : Text) :
    (bracketed text).Sublist (bracketedFrom opened text) := by
  induction text generalizing opened with
  | nil => exact List.Sublist.refl []
  | cons c text ih =>
      rw [bracketed, bracketedFrom, bracketedFrom]
      split
      · exact List.Sublist.refl _
      · split
        · exact List.sublist_append_right _ _
        · exact ih _

/-- The words of two texts are words of the two joined. -/
theorem bracketedFrom_append_sublist (opened : Option Text) (first second : Text) :
    (bracketedFrom opened first ++ bracketed second).Sublist
    (bracketedFrom opened (first ++ second)) := by
  induction first generalizing opened with
  | nil => exact bracketed_sublist_bracketedFrom opened second
  | cons c first ih =>
      rw [List.cons_append, bracketedFrom, bracketedFrom]
      split
      · exact ih _
      · split
        · rw [List.append_assoc]
          exact (ih none).append_left _
        · exact ih _

end HtmlMinifier.Text

/-
# Blanks at the end of a text

Trimming takes off the longest run of blanks at an end. What is left ends with no blank, and
trimming a longer text touches its first part only where the second is nothing but blanks.
-/
import HtmlMinifier.Text.Basic
import Mathlib.Data.List.DropRight

namespace HtmlMinifier.Text

/-- Whether a text ends with a blank. -/
def endsBlank (text : Text) : Bool := text.getLast?.any isBlank

@[simp]
theorem endsBlank_nil : endsBlank [] = false := rfl

@[simp]
theorem endsBlank_concat (text : Text) (c : Char) : endsBlank (text ++ [c]) = isBlank c := by
  rw [endsBlank, List.getLast?_concat, Option.any_some]

/-- Only the second part of a text decides how the text ends. -/
theorem endsBlank_append {first second : Text} (some : second ≠ []) :
    endsBlank (first ++ second) = endsBlank second := by
  rw [endsBlank, endsBlank, List.getLast?_append_of_ne_nil _ some]

/-- A text without blanks ends with none. -/
theorem endsBlank_of_solid {text : Text} (solid : ∀ c ∈ text, isBlank c = false) :
    endsBlank text = false := by
  cases last : text.getLast? with
  | none => rw [endsBlank, last, Option.any_none]
  | some c => rw [endsBlank, last, Option.any_some, solid c (List.mem_of_getLast? last)]

/-- Whether a text begins with a blank. -/
def startsBlank (text : Text) : Bool := text.head?.any isBlank

@[simp]
theorem startsBlank_cons (c : Char) (text : Text) : startsBlank (c :: text) = isBlank c := rfl

/-- A text that does not begin with a blank is empty or begins with something else. -/
theorem exists_cons_of_not_startsBlank {text : Text} (some : text ≠ [])
    (solid : startsBlank text = false) :
    ∃ c later, text = c :: later ∧ isBlank c = false := by
  obtain ⟨c, later, rfl⟩ := List.exists_cons_of_ne_nil some
  exact ⟨c, later, rfl, solid⟩

@[simp]
theorem trimEnd_nil : trimEnd [] = [] := rfl

theorem trimEnd_concat_of_blank {c : Char} (blank : isBlank c = true) (text : Text) :
    trimEnd (text ++ [c]) = trimEnd text :=
  List.rdropWhile_concat_pos isBlank text c blank

theorem trimEnd_concat_of_not_blank {c : Char} (solid : isBlank c = false) (text : Text) :
    trimEnd (text ++ [c]) = text ++ [c] :=
  List.rdropWhile_concat_neg isBlank text c (by rw [solid]; exact Bool.false_ne_true)

/-- A text that ends with no blank is left alone by trimming, and no other text is. -/
theorem trimEnd_eq_self_iff {text : Text} : trimEnd text = text ↔ endsBlank text = false := by
  induction text using List.reverseRecOn with
  | nil => exact ⟨fun _ => rfl, fun _ => rfl⟩
  | append_singleton text c _ =>
      rw [endsBlank_concat]
      cases blank : isBlank c with
      | false => exact ⟨fun _ => rfl, fun _ => trimEnd_concat_of_not_blank blank text⟩
      | true =>
          refine ⟨fun same => ?_, fun no => absurd no Bool.true_eq_false.mp⟩
          have shorter : (trimEnd (text ++ [c])).length ≤ text.length := by
            rw [trimEnd_concat_of_blank blank]
            exact (List.rdropWhile_prefix isBlank (l := text)).length_le
          rw [same, List.length_append, List.length_singleton] at shorter
          omega

/-- What trimming leaves ends with no blank. -/
@[simp]
theorem endsBlank_trimEnd (text : Text) : endsBlank (trimEnd text) = false :=
  trimEnd_eq_self_iff.1 (List.rdropWhile_idempotent isBlank text)

/-- What trimming takes off is blank. -/
theorem exists_trimEnd_append (text : Text) :
    ∃ blanks, text = trimEnd text ++ blanks ∧ ∀ c ∈ blanks, isBlank c = true := by
  refine ⟨text.rtakeWhile isBlank, List.rdropWhile_append_rtakeWhile.symm, ?_⟩
  intro c inside
  exact List.mem_rtakeWhile_imp inside

/-- Trimming sees through blanks at the end. -/
theorem trimEnd_append_blanks (text : Text) {blanks : Text}
    (blank : ∀ c ∈ blanks, isBlank c = true) :
    trimEnd (text ++ blanks) = trimEnd text := by
  induction blanks using List.reverseRecOn with
  | nil => rw [List.append_nil]
  | append_singleton blanks c ih =>
      rw [← List.append_assoc, trimEnd_concat_of_blank (blank c (by simp)), ih]
      intro d inside
      exact blank d (List.mem_append_left _ inside)

theorem trimEnd_eq_nil_iff {text : Text} : trimEnd text = [] ↔ ∀ c ∈ text, isBlank c = true :=
  List.rdropWhile_eq_nil_iff

/-- Trimming the end of a text is trimming its second part, unless that vanishes. -/
theorem trimEnd_append (first second : Text) :
    trimEnd (first ++ second) =
      if trimEnd second = [] then trimEnd first else first ++ trimEnd second := by
  split
  · next vanishes => exact trimEnd_append_blanks first (trimEnd_eq_nil_iff.1 vanishes)
  · next stays =>
      obtain ⟨blanks, parts, blank⟩ := exists_trimEnd_append second
      have solid : endsBlank (first ++ trimEnd second) = false := by
        rw [endsBlank_append stays, endsBlank_trimEnd]
      calc trimEnd (first ++ second)
          = trimEnd (first ++ trimEnd second ++ blanks) := by
            rw [List.append_assoc, ← parts]
        _ = trimEnd (first ++ trimEnd second) := trimEnd_append_blanks _ blank
        _ = first ++ trimEnd second := trimEnd_eq_self_iff.2 solid

/-- Trimming the end does not reach into a part at the front that ends with no blank. -/
theorem prefix_trimEnd {first text : Text} (solid : endsBlank first = false)
    (begins : first <+: text) :
    first <+: trimEnd text := by
  obtain ⟨second, rfl⟩ := begins
  rw [trimEnd_append]
  split
  · exact ⟨[], by rw [List.append_nil, trimEnd_eq_self_iff.2 solid]⟩
  · exact List.prefix_append first _

/-- A text that begins with no blank is trimmed at its end alone. -/
theorem trim_of_prefix {c : Char} {text : Text} (solid : isBlank c = false)
    (begins : [c] <+: text) :
    trim text = trimEnd text := by
  obtain ⟨later, rfl⟩ := begins
  rw [trim, trimStart, List.singleton_append, List.dropWhile_cons_of_neg (by simp [solid])]

end HtmlMinifier.Text

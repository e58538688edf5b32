/-
# The first difference of two lists of lines

The shorter of two lists is read as if lines `<missing>` followed it. What is reported is the first
difference of the two lists so filled, with the lines around it. A line of a document may read
`<missing>` itself; one that the other list does not have is then overlooked. Unless one of the
lists goes on like this where the other one ends, the difference reported is the first difference
of the lists.
-/
import HtmlMinifier.Snapshot.Lines
import HtmlMinifier.Proofs.Text.Occurrence
import Mathlib.Data.List.GetD
import Mathlib.Data.List.Intervals

namespace HtmlMinifier.Snapshot

variable {expected actual : List Text}

/-! ## Shared fronts -/

/-- The longest front that two lists of lines share. -/
def sharedFront : (expected actual : List Text) → List Text
  | [], _ => []
  | _ :: _, [] => []
  | line :: expected, other :: actual =>
      if line = other then line :: sharedFront expected actual else []

/-- What is a front of both lists is a front of the shared one, and nothing else is. -/
theorem prefix_sharedFront_iff {front : List Text} :
    front <+: sharedFront expected actual ↔ front <+: expected ∧ front <+: actual := by
  fun_induction sharedFront expected actual generalizing front with
  | case1 actual => simpa using fun none => none ▸ List.nil_prefix
  | case2 line expected => simpa using fun none => none ▸ List.nil_prefix
  | case3 line expected actual ih =>
      cases front with
      | nil => simp
      | cons first front =>
          simp only [List.cons_prefix_cons, ih]
          tauto
  | case4 line expected other actual differ =>
      cases front with
      | nil => simp
      | cons first front =>
          refine iff_of_false (by simp) ?_
          rintro ⟨here, there⟩
          exact differ ((List.cons_prefix_cons.1 here).1.symm.trans
            (List.cons_prefix_cons.1 there).1)

theorem sharedFront_prefix_left : sharedFront expected actual <+: expected :=
  (prefix_sharedFront_iff.1 List.prefix_rfl).1

theorem sharedFront_prefix_right : sharedFront expected actual <+: actual :=
  (prefix_sharedFront_iff.1 List.prefix_rfl).2

theorem sharedFront_comm (expected actual : List Text) :
    sharedFront expected actual = sharedFront actual expected := by
  have here : sharedFront expected actual <+: sharedFront actual expected :=
    prefix_sharedFront_iff.2 ⟨sharedFront_prefix_right, sharedFront_prefix_left⟩
  have there : sharedFront actual expected <+: sharedFront expected actual :=
    prefix_sharedFront_iff.2 ⟨sharedFront_prefix_right, sharedFront_prefix_left⟩
  exact here.eq_of_length_le there.length_le

/-- Lists that share as many lines as the longer one has are the same. -/
theorem length_sharedFront_eq_iff :
    (sharedFront expected actual).length = max expected.length actual.length ↔ expected =
    actual := by
  constructor
  · intro whole
    have here : sharedFront expected actual = expected :=
      sharedFront_prefix_left.eq_of_length_le (by rw [whole]; omega)
    have there : sharedFront expected actual = actual :=
      sharedFront_prefix_right.eq_of_length_le (by rw [whole]; omega)
    exact here.symm.trans there
  · rintro rfl
    have whole : expected <+: sharedFront expected expected :=
      prefix_sharedFront_iff.2 ⟨List.prefix_rfl, List.prefix_rfl⟩
    rw [← whole.eq_of_length_le sharedFront_prefix_left.length_le, max_self]

/-- Lists that are not the same share less. -/
theorem length_sharedFront_lt_iff :
    (sharedFront expected actual).length < max expected.length actual.length ↔ expected ≠
    actual := by
  have atMost : (sharedFront expected actual).length ≤ expected.length :=
    sharedFront_prefix_left.length_le
  rw [Ne, ← length_sharedFront_eq_iff]
  omega

/-- A front of a list has its lines. -/
theorem lineAt_of_prefix {front lines : List Text} (begins : front <+: lines) {index : Nat}
    (within : index < front.length) : lineAt lines index = lineAt front index := by
  obtain ⟨rest, rfl⟩ := begins
  rw [lineAt, lineAt, List.getD_append _ _ _ _ within]

/-- The line behind the shared front differs if both lists have it. -/
theorem lineAt_sharedFront_ne (here : (sharedFront expected actual).length < expected.length)
    (there : (sharedFront expected actual).length < actual.length) :
    lineAt expected (sharedFront expected actual).length ≠
      lineAt actual (sharedFront expected actual).length := by
  fun_induction sharedFront expected actual with
  | case1 actual => cases here
  | case2 line expected => cases there
  | case3 line expected actual ih =>
      exact ih (Nat.lt_of_succ_lt_succ here) (Nat.lt_of_succ_lt_succ there)
  | case4 line expected other actual differ => exact differ

/-! ## Lists filled up -/

/-- A list of lines, filled up to the length of another one with lines that read as missing. -/
def filled (lines other : List Text) : List Text :=
  lines ++ List.replicate (other.length - lines.length) missing

theorem length_filled (lines other : List Text) :
    (filled lines other).length = max lines.length other.length := by
  rw [filled, List.length_append, List.length_replicate]
  omega

theorem filled_cons_cons (line another : Text) (lines other : List Text) :
    filled (line :: lines) (another :: other) = line :: filled lines other := by
  rw [filled, filled, List.length_cons, List.length_cons, Nat.add_sub_add_right, List.cons_append]

/-- Filling a list up does not change how its lines read. -/
theorem lineAt_filled (lines other : List Text) (index : Nat) :
    lineAt (filled lines other) index = lineAt lines index := by
  by_cases within : index < lines.length
  · exact lineAt_of_prefix (List.prefix_append _ _) within
  · rw [lineAt, lineAt, filled, List.getD_append_right _ _ _ _ (Nat.le_of_not_lt within),
      List.getD_eq_default _ _ (Nat.le_of_not_lt within), List.getD_eq_getElem?_getD,
      List.getElem?_getD_replicate_default_eq]

/-- How many lines in front read the same in both lists. -/
def alike (expected actual : List Text) : Nat :=
  (sharedFront (filled expected actual) (filled actual expected)).length

theorem alike_lt_iff :
    alike expected actual < max expected.length actual.length ↔
      filled expected actual ≠ filled actual expected := by
  rw [← length_sharedFront_lt_iff, length_filled, length_filled, max_comm actual.length,
    max_self, alike]

/-- Lines read the same as far as counted, and no further. -/
theorem lineAt_eq_of_lt_alike {index : Nat} (within : index < alike expected actual) :
    lineAt expected index = lineAt actual index := by
  rw [← lineAt_filled expected actual, ← lineAt_filled actual expected,
    lineAt_of_prefix sharedFront_prefix_left within,
      lineAt_of_prefix sharedFront_prefix_right within]

theorem lineAt_alike_ne (differ : filled expected actual ≠ filled actual expected) :
    lineAt expected (alike expected actual) ≠ lineAt actual (alike expected actual) := by
  have shorter := alike_lt_iff.2 differ
  rw [← lineAt_filled expected actual, ← lineAt_filled actual expected]
  apply lineAt_sharedFront_ne
  · rwa [length_filled]
  · rwa [length_filled, max_comm]

theorem alike_comm (expected actual : List Text) :
    alike expected actual = alike actual expected := by
  rw [alike, sharedFront_comm, ← alike]

/-- A line `<missing>` where the other list ends reads the same as no line, but it is not
shared. -/
theorem length_sharedFront_lt_alike (goesOn : actual ++ [missing] <+: expected) :
    (sharedFront expected actual).length < alike expected actual := by
  have longer := goesOn.length_le
  rw [List.length_append, List.length_singleton] at longer
  have here : actual ++ [missing] <+: filled expected actual :=
    goesOn.trans (List.prefix_append _ _)
  have there : actual ++ [missing] <+: filled actual expected := by
    obtain ⟨more, count⟩ := Nat.exists_eq_add_of_lt longer
    have missed : expected.length - actual.length = more + 1 := by omega
    rw [filled, missed, List.replicate_succ, List.prefix_append_right_inj]
    exact List.prefix_append [missing] _
  have alikeFurther := (prefix_sharedFront_iff.2 ⟨here, there⟩).length_le
  have shared : (sharedFront expected actual).length ≤ actual.length :=
    sharedFront_prefix_right.length_le
  rw [List.length_append, List.length_singleton, ← alike] at alikeFurther
  omega

/-- Unless one list goes on with a line `<missing>` where the other one ends, the lines that read
the same in front are the lines that are shared. -/
theorem alike_eq_length_sharedFront (here : ¬actual ++ [missing] <+: expected)
    (there : ¬expected ++ [missing] <+: actual) :
    alike expected actual = (sharedFront expected actual).length := by
  fun_induction sharedFront expected actual with
  -- Where one list ends, the next line of the other one is compared with a line that is filled in.
  | case1 actual =>
      cases actual with
      | nil => rfl
      | cons other actual =>
          have differ : missing ≠ other := by simpa using there
          simp [alike, filled, List.replicate_succ, sharedFront, differ]
  | case2 line expected =>
      have differ : line ≠ missing := by simpa [eq_comm] using here
      simp [alike, filled, List.replicate_succ, sharedFront, differ]
  | case3 line expected actual ih =>
      rw [List.cons_append, List.cons_prefix_cons, not_and] at here there
      have further := ih (here rfl) (there rfl)
      simpa [alike, filled_cons_cons, sharedFront] using further
  | case4 line expected other actual differ =>
      simp [alike, filled_cons_cons, sharedFront, differ]

/-- The first line that reads differently is the one behind those that read the same. -/
theorem firstMismatch?_eq (expected actual : List Text) :
    firstMismatch? expected actual =
      if filled expected actual = filled actual expected then none
      else some (alike expected actual) := by
  split
  · next same =>
      rw [firstMismatch?, List.find?_eq_none]
      intro index _
      rw [← lineAt_filled expected actual, ← lineAt_filled actual expected, same]
      simp
  · next differ =>
      rw [firstMismatch?, List.find?_range_eq_some]
      refine ⟨decide_eq_true (lineAt_alike_ne differ),
        List.mem_range.2 (alike_lt_iff.2 differ), ?_⟩
      intro index within
      simp [lineAt_eq_of_lt_alike within]

/-! ## The report -/

/-- How the report of a mismatch begins, with the number of the line counted from one. -/
def heading (line : Nat) : Text :=
  "first mismatch at line ".toList ++ decimal line ++ " (showing ".toList

/-- How long both lists are. This is all that is said of lists without a mismatch. -/
def tally (expected actual : List Text) : Text :=
  "expected ".toList ++ decimal expected.length ++ " lines, actual ".toList ++
    decimal actual.length ++ " lines\n".toList

/-- The report of a mismatch at a line, counted from one: the lines from two in front of it to two
behind it are shown, as far as there are any. -/
def report (expected actual : List Text) (line : Nat) : Text :=
  let first := max (line - 2) 1
  let last := min (line + 2) (max expected.length actual.length)
  heading line ++ decimal first ++ "..=".toList ++ decimal last ++ "):\n".toList ++
    (List.Ico first (last + 1)).flatMap (fun number =>
      showLine expected actual (line - 1) (number - 1)) ++
    tally expected actual

/-- The lines around a mismatch, counted from one instead of from zero. -/
theorem shownAround_eq (length mismatch : Nat) :
    shownAround length mismatch =
      (List.Ico (max (mismatch + 1 - 2) 1) (min (mismatch + 1 + 2) length + 1)).map (· - 1) := by
  rw [List.Ico.map_sub _ _ _ (le_max_right _ _), shownAround, List.range_eq_range',
    List.drop_range',
    List.Ico]
  congr 1 <;> omega

/-- The text is the report of the first mismatch, or the tally alone. -/
theorem diffLines_eq (expected actual : List Text) :
    diffLines expected actual =
      if filled expected actual = filled actual expected then tally expected actual
      else report expected actual (alike expected actual + 1) := by
  unfold diffLines report tally heading
  rw [firstMismatch?_eq]
  by_cases same : filled expected actual = filled actual expected
  · rw [if_pos same, if_pos same]
    simp only [List.nil_append]
  · have first : alike expected actual - 2 + 1 = max (alike expected actual + 1 - 2) 1 := by omega
    rw [if_neg same, if_neg same]
    simp only [shownAround_eq, List.flatMap_map, first, List.append_assoc, Nat.add_sub_cancel]

/-- A number is read off a text up to the first character that is no digit. -/
theorem takeWhile_decimal (number : Nat) (rest : Text) :
    (decimal number ++ ' ' :: rest).takeWhile Char.isDigit = decimal number := by
  refine (Text.takeWhile_append_of_stops (fun c inside => ?_) fun c first => ?_).1
  · exact Nat.isDigit_of_mem_toDigits (by decide) (by decide) inside
  · cases first
    rfl

theorem decimal_injective : Function.Injective decimal := by
  intro number other same
  have read := congrArg (fun digits => Nat.ofDigitChars 10 digits 0) same
  simpa only [decimal, Nat.ofDigitChars_ten_toDigits] using read

/-- A text has one heading at most. -/
theorem heading_prefix_iff {line other : Nat} {rest : Text} :
    heading line <+: heading other ++ rest ↔ line = other := by
  constructor
  · intro begins
    have space : " (showing ".toList = ' ' :: "(showing ".toList := by simp
    unfold heading at begins
    rw [List.append_assoc, List.append_assoc, List.append_assoc, List.prefix_append_right_inj,
      space] at begins
    obtain ⟨more, parts⟩ := begins
    have read := congrArg (List.takeWhile Char.isDigit) parts
    rw [List.append_assoc, List.cons_append, List.cons_append, takeWhile_decimal,
      takeWhile_decimal] at read
    exact decimal_injective read
  · rintro rfl
    exact List.prefix_append _ _

/-- The heading of a report is that of its line. -/
theorem heading_prefix_report_iff {line other : Nat} :
    heading line <+: report expected actual other ↔ line = other := by
  unfold report
  simp only [List.append_assoc]
  exact heading_prefix_iff

/-- A tally is no report. -/
theorem not_heading_prefix_tally (line : Nat) : ¬heading line <+: tally expected actual := by
  unfold heading tally
  -- The first letters differ, whatever the numbers are.
  generalize decimal line = digits
  generalize decimal expected.length = here
  generalize decimal actual.length = there
  simp

/-- The line that the text begins with is the first one that reads differently, if there is one. -/
theorem heading_prefix_diffLines_iff {line : Nat} :
    heading line <+: diffLines expected actual ↔
      filled expected actual ≠ filled actual expected ∧ line = alike expected actual + 1 := by
  rw [diffLines_eq]
  by_cases same : filled expected actual = filled actual expected
  · rw [if_pos same]
    exact iff_of_false (not_heading_prefix_tally line) fun differ => differ.1 same
  · rw [if_neg same, heading_prefix_report_iff]
    exact (and_iff_right same).symm

/-- A mismatch is reported exactly if the two lists differ when the shorter one is filled up with
lines `<missing>`. It is reported behind the longest front that the lists so filled share, and the
lines around it are shown. It is reported behind the longest front that the lists themselves share
exactly if they differ and none of them goes on with a line `<missing>` where the other one
ends. -/
theorem diffLines_points_at_difference (expected actual : List Text) :
    (∀ line, heading line <+: diffLines expected actual ↔
      filled expected actual ≠ filled actual expected ∧
        line = (sharedFront (filled expected actual) (filled actual expected)).length + 1) ∧
    (∀ line, heading line <+: diffLines expected actual →
      diffLines expected actual = report expected actual line) ∧
    (heading ((sharedFront expected actual).length + 1) <+: diffLines expected actual ↔
      expected ≠ actual ∧ ¬actual ++ [missing] <+: expected ∧ ¬expected ++
      [missing] <+: actual) := by
  refine ⟨fun line => heading_prefix_diffLines_iff, fun line begins => ?_, ?_⟩
  · obtain ⟨differ, rfl⟩ := heading_prefix_diffLines_iff.1 begins
    rw [diffLines_eq, if_neg differ]
  rw [heading_prefix_diffLines_iff, ← alike_lt_iff, Nat.add_right_cancel_iff,
    ← length_sharedFront_lt_iff]
  constructor
  · rintro ⟨shorter, same⟩
    refine ⟨same ▸ shorter, fun goesOn => ?_, fun goesOn => ?_⟩
    · exact (length_sharedFront_lt_alike goesOn).ne same
    · rw [sharedFront_comm, alike_comm] at same
      exact (length_sharedFront_lt_alike goesOn).ne same
  · rintro ⟨shorter, here, there⟩
    have same := alike_eq_length_sharedFront here there
    exact ⟨same ▸ shorter, same.symm⟩

/-- A list that ends early differs from the longer one behind its end. -/
theorem diffLines_points_behind_end :
    let expected := ["a", "b", "c"].map String.toList
    let actual := ["a"].map String.toList
    heading 2 <+: diffLines expected actual ∧ diffLines expected actual =
        report expected actual 2 := by
  intro expected actual
  obtain ⟨-, shown, exact⟩ := diffLines_points_at_difference expected actual
  have begins : heading 2 <+: diffLines expected actual :=
    exact.2 ⟨by decide, by decide, by decide⟩
  exact ⟨begins, shown 2 begins⟩

/-- A document may have a tag that reads like a missing line. If the other document ends there, the
two differ and no mismatch is reported. -/
theorem diffLines_overlooks_missing :
    let expected := markupLines "<p><missing>".toList
    let actual := markupLines "<p>".toList
    expected ≠ actual ∧ ∀ line, ¬heading line <+: diffLines expected actual := by
  intro expected actual
  have same : filled expected actual = filled actual expected := by decide
  exact ⟨by decide, fun line begins => (heading_prefix_diffLines_iff.1 begins).1 same⟩

end HtmlMinifier.Snapshot

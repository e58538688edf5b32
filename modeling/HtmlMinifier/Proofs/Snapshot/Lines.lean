/-
# Lines lose nothing

Escaping writes every character as a code word, and no code word is the beginning of another one,
so an escaped text can be read back. Cutting takes markup apart where a `>` ends or a `<` begins
and nowhere else. So the lines of a document determine it: put together they are the escaped
document.
-/
import HtmlMinifier.Snapshot.Lines
import HtmlMinifier.Reference.Basic
import Mathlib.Data.List.SplitBy

namespace HtmlMinifier.Snapshot

/-! ## Reading an escaped text back -/

/-- The text that an escaped text stands for. -/
def unescape? : Text → Option Text
  | [] => some []
  | '\\' :: '\\' :: text => (unescape? text).map ('\\' :: ·)
  | '\\' :: '"' :: text => (unescape? text).map ('"' :: ·)
  | '\\' :: 'n' :: text => (unescape? text).map ('\n' :: ·)
  | '\\' :: 'r' :: text => (unescape? text).map ('\r' :: ·)
  | '\\' :: 't' :: text => (unescape? text).map ('\t' :: ·)
  | '\\' :: 'u' :: '\x7b' :: high :: low :: '\x7d' :: text =>
      (Reference.number? 16 [high, low]).bind fun code => (unescape? text).map
        (Char.ofNat code :: ·)
  | '\\' :: _ => none
  | c :: text => (unescape? text).map (c :: ·)

/-- The number of a control character is read back from its two digits. -/
theorem number?_hexPair : ∀ code < 32, Reference.number? 16 (hexPair code) = some code := by
  decide

/-- No code word is the beginning of another one: behind any of them the reading goes on. -/
theorem unescape?_escapeChar_append (c : Char) (text : Text) :
    unescape? (escapeChar c ++ text) = (unescape? text).map (c :: ·) := by
  unfold escapeChar
  split
  · next backslash => rw [backslash]; rfl
  split
  · next quote => rw [quote]; rfl
  split
  · next lineFeed => rw [lineFeed]; rfl
  split
  · next carriageReturn => rw [carriageReturn]; rfl
  split
  · next tab => rw [tab]; rfl
  split
  · next control =>
      have code := number?_hexPair c.toNat control
      -- Behind the opening brace the reading depends on the two digits only.
      change (Reference.number? 16 (hexPair c.toNat)).bind
        (fun code => (unescape? text).map (Char.ofNat code :: ·)) = _
      rw [code, Option.bind_some, Char.ofNat_toNat]
  · next plain _ _ _ _ _ =>
      rw [List.singleton_append, unescape?]
      all_goals simp [plain]

/-- An escaped text is read back. -/
theorem unescape?_escape (text : Text) : unescape? (escape text) = some text := by
  induction text with
  | nil => rfl
  | cons c text ih =>
      rw [escape, List.flatMap_cons, ← escape, unescape?_escapeChar_append, ih, Option.map_some]

/-- Different texts are escaped differently. -/
theorem escape_injective : Function.Injective escape := by
  intro first second same
  have read := congrArg unescape? same
  rwa [unescape?_escape, unescape?_escape, Option.some_inj] at read

/-- The digits of a control character are no control characters. -/
theorem all_space_le_hexPair : ∀ code < 32, (hexPair code).all (' ' ≤ ·) = true := by
  decide

theorem space_le_of_mem_escapeChar {c d : Char} (inside : d ∈ escapeChar c) : ' ' ≤ d := by
  have all : (escapeChar c).all (' ' ≤ ·) = true := by
    unfold escapeChar
    split_ifs with _ _ _ _ _ control
    any_goals rfl
    · simpa using all_space_le_hexPair c.toNat control
    · simpa using control
  exact of_decide_eq_true (List.all_eq_true.1 all d inside)

/-- An escaped text has no control character. -/
theorem space_le_of_mem_escape {text : Text} {d : Char} (inside : d ∈ escape text) : ' ' ≤ d := by
  obtain ⟨c, -, member⟩ := List.mem_flatMap.1 inside
  exact space_le_of_mem_escapeChar member

/-! ## Cutting -/

/-- Whether two characters next to each other stay on one line. -/
def staysWith (c d : Char) : Bool := c ≠ '>' && d ≠ '<'

theorem staysWith_eq_false_iff {c d : Char} : staysWith c d = false ↔ c = '>' ∨ d = '<' := by
  simp only [staysWith, Bool.and_eq_false_iff, decide_eq_false_iff_not, not_not]

/-- Pieces of a markup as cutting is meant to make them: they make up the markup, none is empty, a
`<` stands only at the front of a piece and a `>` only at its end, and one of the two is the reason
for every cut. -/
structure IsCut (markup : Text) (pieces : List Text) : Prop where
  flatten : pieces.flatten = markup
  nonempty : [] ∉ pieces
  opens : ∀ piece ∈ pieces, '<' ∉ piece.tail
  closes : ∀ piece ∈ pieces, '>' ∉ piece.dropLast
  parted : pieces.IsChain fun piece next => piece.getLast? = some '>' ∨ next.head? = some '<'

/-- Neighbours stay together throughout a piece if its marks stand at its ends. -/
theorem isChain_staysWith_iff (piece : Text) :
    piece.IsChain (fun c d => staysWith c d = true) ↔ '<' ∉ piece.tail ∧ '>' ∉ piece.dropLast := by
  induction piece with
  | nil => simp
  | cons c piece ih =>
      cases piece with
      | nil => simp
      | cons d piece =>
          rw [List.isChain_cons_cons, ih]
          simp only [staysWith, Bool.and_eq_true, decide_eq_true_eq, List.tail_cons,
            List.dropLast_cons_cons, List.mem_cons, not_or, ne_eq, eq_comm (a := c),
              eq_comm (a := d)]
          tauto

/-- The first piece begins with the first character. -/
theorem exists_splitBy_cons (c : Char) (markup : Text) :
    ∃ piece later, (c :: markup).splitBy staysWith = (c :: piece) :: later := by
  have whole := List.flatten_splitBy staysWith (c :: markup)
  have nonempty := List.nil_notMem_splitBy staysWith (c :: markup)
  match pieces : (c :: markup).splitBy staysWith with
  | [] => simp at pieces
  | [] :: later => simp [pieces] at nonempty
  | (d :: piece) :: later =>
      rw [pieces, List.flatten_cons, List.cons_append] at whole
      rw [(List.cons.inj whole).1]
      exact ⟨piece, later, rfl⟩

/-- A character that stays with the next one goes to the front of its piece. -/
theorem splitBy_cons_of_stays {c d : Char} {markup piece : Text} {later : List Text}
    (stays : staysWith c d = true)
    (split : (d :: markup).splitBy staysWith = (d :: piece) :: later) :
    (c :: d :: markup).splitBy staysWith = (c :: d :: piece) :: later := by
  obtain ⟨whole, nonempty, chains, parted⟩ := List.splitBy_eq_iff.1 split
  refine List.splitBy_eq_iff.2 ⟨?_, ?_, ?_, ?_⟩
  · rw [whole]; rfl
  · simpa using nonempty
  · intro member inside
    rcases List.mem_cons.1 inside with rfl | further
    · exact List.isChain_cons_cons.2 ⟨stays, chains _ List.mem_cons_self⟩
    · exact chains member (List.mem_cons_of_mem _ further)
  · rw [List.isChain_cons] at parted ⊢
    refine ⟨fun next first => ?_, parted.2⟩
    obtain ⟨_, some, differs⟩ := parted.1 next first
    exact ⟨List.cons_ne_nil _ _, some, differs⟩

/-- A character goes on the line of the one behind it, or on a line of its own. -/
theorem cut_cons (c : Char) {d : Char} {markup piece : Text} {later : List Text}
    (pieces : cut markup = (d :: piece) :: later) :
    cut (c :: markup) =
      if staysWith c d then (c :: d :: piece) :: later else [c] :: (d :: piece) :: later := by
  rw [cut, pieces]
  cases stays : staysWith c d with
  | true =>
      simp only [staysWith, Bool.and_eq_true, decide_eq_true_eq] at stays
      simp [stays]
  | false =>
      rcases staysWith_eq_false_iff.1 stays with rfl | rfl
      · rfl
      · simp

/-- Cutting is splitting where neighbours do not stay together. -/
theorem cut_eq_splitBy (markup : Text) : cut markup = markup.splitBy staysWith := by
  induction markup with
  | nil => rfl
  | cons c markup ih =>
      cases markup with
      | nil => rfl
      | cons d markup =>
          obtain ⟨piece, later, split⟩ := exists_splitBy_cons d markup
          rw [cut_cons c (ih.trans split)]
          cases stays : staysWith c d with
          | true => rw [if_pos rfl, splitBy_cons_of_stays stays split]
          | false =>
              have apart := List.splitBy_append_cons (l := [c]) markup (by simpa using stays)
              rw [List.singleton_append, split] at apart
              rw [if_neg Bool.false_ne_true, apart]
              rfl

/-- A piece is parted from the next one at a mark. -/
theorem staysWith_getLast_head_iff {piece next : Text} (filled : piece ≠ [])
    (nextFilled : next ≠ []) :
    (∃ filled nextFilled, staysWith (piece.getLast filled) (next.head nextFilled) = false) ↔
      piece.getLast? = some '>' ∨ next.head? = some '<' := by
  simp only [staysWith_eq_false_iff, List.getLast?_eq_some_getLast filled,
    List.head?_eq_some_head nextFilled, Option.some_inj, exists_prop_of_true, filled, nextFilled,
      ne_eq,
    not_false_eq_true]

/-- There is one way to cut markup, and cutting finds it. -/
theorem isCut_iff (markup : Text) (pieces : List Text) :
    IsCut markup pieces ↔ pieces = cut markup := by
  have parted (nonempty : [] ∉ pieces) : pieces.IsChain
      (fun piece next => ∃ some another, staysWith (piece.getLast some) (next.head another) =
        false) ↔
      pieces.IsChain fun piece next => piece.getLast? = some '>' ∨ next.head? = some '<' := by
    refine List.IsChain.iff_of_mem_imp fun piece next inside further => ?_
    exact staysWith_getLast_head_iff (ne_of_mem_of_not_mem inside nonempty)
      (ne_of_mem_of_not_mem further nonempty)
  rw [cut_eq_splitBy, eq_comm, List.splitBy_eq_iff]
  simp only [isChain_staysWith_iff]
  constructor
  · rintro ⟨whole, nonempty, opens, closes, atMarks⟩
    exact ⟨whole.symm, nonempty, fun piece inside => ⟨opens piece inside, closes piece inside⟩,
      (parted nonempty).2 atMarks⟩
  · rintro ⟨whole, nonempty, tidy, apart⟩
    exact ⟨whole.symm, nonempty, fun piece inside => (tidy piece inside).1,
      fun piece inside => (tidy piece inside).2, (parted nonempty).1 apart⟩

example : cut "a<<b>>c".toList = ["a", "<", "<b>", ">", "c"].map String.toList := by decide

/-! ## Lines -/

/-- The lines of a markup put together are the escaped markup. -/
theorem flatten_markupLines (markup : Text) : (markupLines markup).flatten = escape markup := by
  have whole : (cut markup).flatten = markup := ((isCut_iff markup _).2 rfl).flatten
  calc (markupLines markup).flatten
      = ((cut markup).flatten.map escapeChar).flatten := by
        rw [List.map_flatten, List.flatten_flatten, List.map_map]
        rfl
    _ = escape markup := by rw [whole, escape, List.flatMap_def]

/-- The lines of a markup are its pieces, escaped, and nothing is lost: the lines put together are
the escaped markup, escaping can be undone and leaves no control character, and markup with the
same lines is the same. -/
theorem markupLines_lossless :
    (∀ markup, (markupLines markup).flatten = escape markup) ∧
    (∀ markup, ∃ pieces, IsCut markup pieces ∧ markupLines markup = pieces.map escape) ∧
    Function.Injective escape ∧
    (∀ text, ∀ c ∈ escape text, ' ' ≤ c) ∧
    Function.Injective markupLines := by
  refine ⟨flatten_markupLines, fun markup => ⟨cut markup, (isCut_iff markup _).2 rfl, rfl⟩,
    escape_injective, fun text c inside => space_le_of_mem_escape inside,
      fun first second same => ?_⟩
  apply escape_injective
  rw [← flatten_markupLines, ← flatten_markupLines, same]

/-- A tab and marks that are not matched: the lines put together are the markup with the tab
spelled out. -/
theorem markupLines_lossless_marks :
    (markupLines "a\t<<b>>".toList).flatten = "a\\t<<b>>".toList ∧
      '\\' ∈ escape "\t".toList ∧ ' ' ≤ '\\' := by
  obtain ⟨joined, -, -, noControl, -⟩ := markupLines_lossless
  have inside : '\\' ∈ escape "\t".toList := by decide
  exact ⟨(joined "a\t<<b>>".toList).trans (by decide), inside, noControl "\t".toList '\\' inside⟩

end HtmlMinifier.Snapshot

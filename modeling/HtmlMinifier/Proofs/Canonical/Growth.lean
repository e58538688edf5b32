/-
# Texts that grow at their end

Each character of a written text has an origin: a run of text, which was written with or without a
preformatted element around it, or else a tag, a comment or the document type. Blanks of runs that
were written without one are loose. A text grows if loose characters may be cut off its end before
more is written behind it. However often it does, a part at the front that ends with a firm
character stays.
-/
import HtmlMinifier.Proofs.Canonical.Written

namespace HtmlMinifier.Canonical

/-! ## Where characters come from -/

/-- Where a written character comes from: from a document type, a tag or a comment, or from a run
of text that was written with or without a preformatted element around it. -/
inductive Origin where
  | markup
  | run (preformatted : Bool)
  deriving DecidableEq, Repr

/-- Where the characters of a piece come from. -/
def Piece.origin : Piece → Origin
  | .run verbatim _ => .run verbatim
  | _ => .markup

/-- The characters of a piece with their origin. -/
def Piece.traced (piece : Piece) : List (Char × Origin) :=
  piece.render.map fun c => (c, piece.origin)

theorem traced_run_append (verbatim : Bool) (first second : Text) :
    (Piece.run verbatim (first ++ second)).traced =
      (Piece.run verbatim first).traced ++ (Piece.run verbatim second).traced :=
  List.map_append

/-- The characters of pieces that are listed latest first, with their origins. -/
def traced (pieces : List Piece) : List (Char × Origin) := pieces.reverse.flatMap Piece.traced

@[simp]
theorem traced_cons (piece : Piece) (pieces : List Piece) :
    traced (piece :: pieces) = traced pieces ++ piece.traced := by
  rw [traced, traced, List.reverse_cons, List.flatMap_append, List.flatMap_singleton]

/-- The traced characters make up the text. -/
@[simp]
theorem map_fst_traced (pieces : List Piece) : (traced pieces).map Prod.fst = render pieces := by
  induction pieces with
  | nil => rfl
  | cons piece pieces ih =>
      have alone : piece.traced.map Prod.fst = piece.render := by
        rw [Piece.traced, List.map_map]
        exact List.map_id _
      rw [traced_cons, List.map_append, ih, alone, render_cons]

/-- A blank of a run of text that was written while no preformatted element was open. -/
def IsLoose (written : Char × Origin) : Prop :=
  Text.isBlank written.1 = true ∧ written.2 = .run false

/-- One text grows out of another: loose characters at the end may be cut off before more is
written, and all runs of text that are new are of one kind. -/
def GrowsTo (preformatted : Bool) (before after : List (Char × Origin)) : Prop :=
  ∃ kept removed added, before = kept ++ removed ∧ after = kept ++ added ∧
    (∀ written ∈ removed, IsLoose written) ∧
    ∀ written ∈ added, ∀ verbatim, written.2 = .run verbatim → verbatim = preformatted

namespace GrowsTo

variable {preformatted : Bool} {before middle after : List (Char × Origin)}

theorem refl (before : List (Char × Origin)) : GrowsTo preformatted before before :=
  ⟨before, [], [], by simp, by simp, by simp, by simp⟩

theorem trans (first : GrowsTo preformatted before middle)
    (second : GrowsTo preformatted middle after) : GrowsTo preformatted before after := by
  obtain ⟨kept, removed, added, rfl, rfl, loose, new⟩ := first
  obtain ⟨further, cut, more, parts, rfl, looseCut, newMore⟩ := second
  rcases List.append_eq_append_iff.1 parts with ⟨between, rfl, rfl⟩ | ⟨between, rfl, rfl⟩
  · -- Only a part of what was added is cut off again.
    refine ⟨kept, removed, between ++ more, rfl, by rw [List.append_assoc], loose, ?_⟩
    intro written member
    rcases List.mem_append.1 member with inside | inside
    · exact new written (List.mem_append_left _ inside)
    · exact newMore written inside
  · -- All that was added is cut off, and more.
    refine ⟨further, between ++ removed, more, by rw [List.append_assoc], rfl, ?_, newMore⟩
    intro written member
    rcases List.mem_append.1 member with inside | inside
    · exact looseCut written (List.mem_append_left _ inside)
    · exact loose written inside

/-- A part at the front that ends with no loose character stays. -/
theorem keeps (grows : GrowsTo preformatted before after) {front : List (Char × Origin)}
    {last : Char × Origin} (firm : ¬ IsLoose last) (begins : front ++ [last] <+: before) :
    front ++ [last] <+: after := by
  obtain ⟨kept, removed, added, rfl, rfl, loose, _⟩ := grows
  obtain ⟨behind, parts⟩ := begins
  rcases List.append_eq_append_iff.1 parts with ⟨between, rfl, _⟩ | ⟨between, reaches, rfl⟩
  · rw [List.append_assoc]
    exact List.prefix_append _ _
  · rcases List.eq_nil_or_concat between with rfl | ⟨inner, other, rfl⟩
    · rw [reaches, List.append_nil]
      exact List.prefix_append _ _
    · -- Otherwise the last character would be one of those that are cut off.
      exfalso
      rw [List.concat_eq_append, ← List.append_assoc] at reaches
      obtain ⟨_, same⟩ := List.append_inj' reaches rfl
      cases same
      exact firm (loose last (by simp))

/-- The text that is left when blanks are cut off its end stays. -/
theorem trimEnd_prefix (grows : GrowsTo preformatted before after) :
    Text.trimEnd (before.map Prod.fst) <+: after.map Prod.fst := by
  obtain ⟨kept, removed, added, rfl, rfl, loose, _⟩ := grows
  have blank : ∀ c ∈ removed.map Prod.fst, Text.isBlank c = true := by
    intro c member
    obtain ⟨written, inside, rfl⟩ := List.mem_map.1 member
    exact (loose written inside).1
  rw [List.map_append, Text.trimEnd_append_blanks _ blank, List.map_append]
  exact List.IsPrefix.trans (List.rdropWhile_prefix Text.isBlank _) (List.prefix_append _ _)

end GrowsTo

/-! ## Cutting blanks off -/

/-- Whether a piece is a run of text. -/
def Piece.isRun : Piece → Bool
  | .run _ _ => true
  | _ => false

/-- The runs of text behind the latest tag, comment or document type. -/
def latestRuns (pieces : List Piece) : List Piece := pieces.takeWhile Piece.isRun

theorem latestRuns_cons_run (verbatim : Bool) (text : Text) (pieces : List Piece) :
    latestRuns (.run verbatim text :: pieces) = .run verbatim text :: latestRuns pieces := rfl

theorem latestRuns_of_markup {piece : Piece} (markup : piece.isRun = false) (pieces : List Piece) :
    latestRuns (piece :: pieces) = [] :=
  List.takeWhile_cons_of_neg (by rw [markup]; exact Bool.false_ne_true)

/-- Cutting off blanks makes runs shorter but changes no origin. -/
theorem origin_of_mem_latestRuns_trimRuns {pieces : List Piece} {piece : Piece}
    (member : piece ∈ latestRuns (trimRuns pieces)) :
    ∃ before ∈ latestRuns pieces, before.origin = piece.origin := by
  induction pieces with
  | nil => cases member
  | cons latest pieces ih =>
      cases latest with
      | run verbatim text =>
          rw [latestRuns_cons_run]
          rw [trimRuns] at member
          split at member
          · obtain ⟨before, inside, same⟩ := ih member
            exact ⟨before, List.mem_cons_of_mem _ inside, same⟩
          · rw [latestRuns_cons_run] at member
            rcases List.mem_cons.1 member with rfl | inside
            · exact ⟨_, List.mem_cons_self, rfl⟩
            · exact ⟨piece, List.mem_cons_of_mem _ inside, rfl⟩
      | doctype | startTag name attributes | endTag name | comment body =>
          exact ⟨piece, member, rfl⟩

/-- Where the latest runs were written outside of preformatted elements, only loose characters are
cut off. -/
theorem growsTo_trimRuns (preformatted : Bool) {pieces : List Piece}
    (flowing : ∀ piece ∈ latestRuns pieces, piece.origin = .run false) :
    GrowsTo preformatted (traced pieces) (traced (trimRuns pieces)) := by
  suffices cut : ∃ removed, traced pieces = traced (trimRuns pieces) ++ removed ∧
      ∀ written ∈ removed, IsLoose written by
    obtain ⟨removed, parts, loose⟩ := cut
    exact ⟨_, removed, [], parts, (List.append_nil _).symm, loose, by simp⟩
  induction pieces with
  | nil => exact ⟨[], rfl, by simp⟩
  | cons latest pieces ih =>
      cases latest with
      | run verbatim text =>
          rw [latestRuns_cons_run, List.forall_mem_cons] at flowing
          obtain ⟨rfl⟩ : verbatim = false := by simpa [Piece.origin] using flowing.1
          have loose : ∀ blanks : Text, (∀ c ∈ blanks, Text.isBlank c = true) →
              ∀ written ∈ (Piece.run false blanks).traced, IsLoose written := by
            intro blanks blank written member
            obtain ⟨c, inside, rfl⟩ := List.mem_map.1 member
            exact ⟨blank c inside, rfl⟩
          rw [trimRuns]
          split
          · next vanishes =>
              obtain ⟨removed, parts, looseRemoved⟩ := ih flowing.2
              refine ⟨removed ++ (Piece.run false text).traced, ?_, ?_⟩
              · rw [traced_cons, parts, List.append_assoc]
              · intro written member
                rcases List.mem_append.1 member with inside | inside
                · exact looseRemoved written inside
                · exact loose text (Text.trimEnd_eq_nil_iff.1 vanishes) written inside
          · obtain ⟨blanks, parts, blank⟩ := Text.exists_trimEnd_append text
            refine ⟨(Piece.run false blanks).traced, ?_, loose blanks blank⟩
            rw [traced_cons, traced_cons, List.append_assoc, ← traced_run_append, ← parts]
      | doctype | startTag name attributes | endTag name | comment body =>
          exact ⟨[], (List.append_nil _).symm, by simp⟩

/-- A piece may be written behind others if it is a run of the given kind or no run. -/
theorem growsTo_cons {preformatted : Bool} {piece : Piece}
    (kind : ∀ verbatim, piece.origin = .run verbatim → verbatim = preformatted)
    (pieces : List Piece) :
    GrowsTo preformatted (traced pieces) (traced (piece :: pieces)) := by
  refine ⟨traced pieces, [], piece.traced, by simp, by simp, by simp, ?_⟩
  intro written member verbatim same
  obtain ⟨c, _, rfl⟩ := List.mem_map.1 member
  exact kind verbatim same

theorem origin_of_markup {piece : Piece} (markup : piece.isRun = false) (verbatim : Bool) :
    piece.origin ≠ .run verbatim := by
  cases piece with
  | run _ _ => cases markup
  | doctype | startTag name attributes | endTag name | comment body => exact nofun

end HtmlMinifier.Canonical

/-
# Documents with and without a skeleton

The tags of `html` and `body` may always be left out, so a document without them is minified as it
is with them. The two written documents differ in these tags and in one blank at the end, which is
trimmed before the optional tags are left out in one of them and after it in the other. The tags
are the first to be taken out, wherever they stand; what is written in front of the blank is a mark
that stays, so no rule can tell the blank from the end of the document.
-/
import HtmlMinifier.Minifier
import HtmlMinifier.Proofs.Canonical.InBody
import HtmlMinifier.Proofs.Canonical.LastRun
import HtmlMinifier.Proofs.OptionalTag.FinalBlank

namespace HtmlMinifier

open Canonical (StaysOutside inBody bodyStart bodyEnd)
open OptionalTag (IsLasting EndsClosed applyAll frameRules contentRules elide frameNames)

namespace OptionalTag

/-- Behind a mark that lasts, the trimmed end of a document is closed. -/
theorem IsLasting.endsClosed {last : Text} (lasting : IsLasting last) (front : Text) {run : Text}
    (solid : ∀ c ∈ run, c ≠ '<') (trimmed : Text.endsBlank run = false) :
    EndsClosed (front ++ (last ++ run)) := by
  obtain ⟨inside, rfl⟩ := lasting.closes
  refine ⟨?_, front ++ inside, run, by simp, solid⟩
  by_cases none : run = []
  · rw [none, List.append_nil, ← List.append_assoc, Text.endsBlank_append (List.cons_ne_nil _ _)]
    rfl
  · rw [← List.append_assoc, Text.endsBlank_append none, trimmed]

/-- A blank behind the last run of a document changes nothing but the end of what is left. -/
theorem trimEnd_elide_trimEnd {front last run : Text} (lasting : IsLasting last)
    (solid : ∀ c ∈ run, c ≠ '<')
    (oneBlank : run = Text.trimEnd run ∨ ∃ b, Text.isBlank b = true ∧ run =
    Text.trimEnd run ++ [b]) :
    Text.trimEnd (elide false (Text.trimEnd (front ++ (last ++ run)))) =
      Text.trimEnd (elide false (front ++ (last ++ run))) := by
  have trimmedSolid : ∀ c ∈ Text.trimEnd run, c ≠ '<' := by
    obtain ⟨blanks, parts, _⟩ := Text.exists_trimEnd_append run
    intro c inside
    apply solid
    rw [parts]
    exact List.mem_append_left _ inside
  have closed := lasting.endsClosed front trimmedSolid (Text.endsBlank_trimEnd run)
  have whole := Text.trimEnd_eq_self_iff.2 closed.trimmed
  rcases oneBlank with same | ⟨b, blank, same⟩
  · rw [← same] at whole
    rw [whole]
  · have parts : front ++ (last ++ run) = front ++ (last ++ Text.trimEnd run) ++ [b] := by
      rw [List.append_assoc, List.append_assoc, ← same]
    rw [parts, Text.trimEnd_concat_of_blank blank, whole, List.append_assoc, List.append_assoc,
      ← same,
      elide_eq, elide_eq, lasting.applyAll front solid, lasting.applyAll front trimmedSolid]
    have left := lasting.endsClosed (applyAll frameRules front) trimmedSolid
      (Text.endsBlank_trimEnd run)
    have lost := trimEnd_applyAll_contentRules blank left
    rw [List.append_assoc, List.append_assoc, ← same] at lost
    exact lost.symm

end OptionalTag

namespace Minifier

/-- The stream of a text that opens no element of the skeleton leaves none of them open. -/
theorem legible_of_noFrame {html : Text}
    (noFrame : ∀ name attributes, .elementOpen name attributes ∈ Event.parse html →
    name ∉ frameNames) :
    ∃ later, Event.parse html = .documentStart :: later ∧ Event.Legible StaysOutside [] later := by
  apply Event.legible_parse
  intro name attributes selfClosing member _ stays
  exact ⟨stays, noFrame name _
    (List.mem_cons_of_mem _ (Event.opening_mem_of_startTag_mem member []))⟩

/-- A document that opens no element of the skeleton is minified as it is between the tags of
`html` and `body`. -/
theorem minifyEvents_inBody {html : Text}
    (noFrame : ∀ name attributes, .elementOpen name attributes ∈ Event.parse html →
      name ∉ ["html", "head", "body"].map String.toList) :
    (ofSettings {}).minifyEvents
        (.documentStart :: .elementOpen "html".toList [] :: .elementOpen "body".toList [] ::
          ((Event.parse html).tail ++ [.elementClose "body".toList, .elementClose "html".toList]))
          =
      HtmlMinifier.minify html := by
  have none : (ofSettings {}).options.compressor = none := rfl
  obtain ⟨events, parsed, legible⟩ := legible_of_noFrame noFrame
  have balanced := legible.balanced fun name stays => stays.named.ne_nil
  obtain ⟨front, last, run, ends, lasting, solid, oneBlank⟩ :=
    Canonical.exists_lasting_end none legible
  obtain ⟨text, written, inBodyWritten⟩ := Canonical.exists_serialize_inBody none balanced
  have begins : ∀ later, Element.doctype <+: Element.doctype ++ later := List.prefix_append _
  -- What is left without the skeleton.
  have alone : HtmlMinifier.minify html =
      .ok (Text.trimEnd (elide false (Text.trimEnd (Element.doctype ++ text)))) := by
    have trimmed := Text.prefix_trimEnd (by decide) (begins text)
    rw [HtmlMinifier.minify, minify, minifyEvents, parsed,
      Canonical.serialize_of_balanced _ balanced,
      written, Canonical.trim_of_doctype (begins text), Except.map,
      ← Canonical.trim_of_doctype (OptionalTag.doctype_prefix_elide false trimmed)]
    rfl
  -- What is left with it.
  have around : (ofSettings {}).minifyEvents (inBody (.documentStart :: events)) =
      .ok (Text.trimEnd (elide false (Element.doctype ++ text))) := by
    have same : elide false (Element.doctype ++ (bodyStart ++ (text ++ bodyEnd))) =
        elide false (Element.doctype ++ text) := by
      rw [OptionalTag.elide_eq, OptionalTag.elide_eq]
      exact congrArg (applyAll contentRules) (OptionalTag.applyAll_wrapped text)
    rw [minifyEvents, inBodyWritten, Except.map,
      ← Canonical.trim_of_doctype (OptionalTag.doctype_prefix_elide false (begins text)), ← same]
    rfl
  rw [alone, ← inBody, parsed, around, ← written, ends,
    OptionalTag.trimEnd_elide_trimEnd lasting solid oneBlank]

/-- A fragment with a blank behind its paragraph, which is trimmed early or late. -/
theorem minifyEvents_inBody_fragment :
    let html := "a <p>b</p> ".toList
    (∀ name attributes, .elementOpen name attributes ∈ Event.parse html →
        name ∉ ["html", "head", "body"].map String.toList) ∧
      (ofSettings {}).minifyEvents
          (.documentStart :: .elementOpen "html".toList [] :: .elementOpen "body".toList [] ::
            ((Event.parse html).tail ++
              [.elementClose "body".toList, .elementClose "html".toList])) =
        HtmlMinifier.minify html := by
  intro html
  have events : Event.parse html =
      [.documentStart, .characters "a ".toList, .elementOpen "p".toList [], .characters "b".toList,
        .elementClose "p".toList, .characters " ".toList] := by
    decide +kernel
  have noFrame : ∀ name attributes, .elementOpen name attributes ∈ Event.parse html →
      name ∉ ["html", "head", "body"].map String.toList := by
    intro name attributes member
    rw [events] at member
    simp only [List.mem_cons, List.not_mem_nil, Event.elementOpen.injEq, reduceCtorEq, or_false,
      false_or] at member
    rw [member.1]
    decide
  exact ⟨noFrame, minifyEvents_inBody noFrame⟩

end Minifier

end HtmlMinifier

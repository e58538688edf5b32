/-
# Minifying never fails

The reader turns every text into a balanced stream, a writer accepts every balanced stream, and
leaving out optional tags is a function of the text alone. So every text has a minified document,
whatever the settings are and whatever the compressor answers. Nothing in between reaches into the
document type.
-/
import HtmlMinifier.Minifier
import HtmlMinifier.Proofs.Canonical.Acceptance
import HtmlMinifier.Proofs.Event.Legible
import HtmlMinifier.Proofs.OptionalTag.Pass

namespace HtmlMinifier.Minifier

/-- The last stage keeps the document type in front and leaves no blank at the end. -/
theorem doctype_prefix_finish (minifier : Minifier) {written : Text}
    (begins : Element.doctype <+: written) (trimmed : Text.endsBlank written = false) :
    Element.doctype <+: minifier.finish written ∧
      Text.endsBlank (minifier.finish written) = false := by
  rw [finish]
  split
  · have kept := OptionalTag.doctype_prefix_elide minifier.settings.strictBodyOmission begins
    refine ⟨Canonical.doctype_prefix_trim kept, ?_⟩
    rw [Canonical.trim_of_doctype kept, Text.endsBlank_trimEnd]
  · exact ⟨begins, trimmed⟩

/-- Every text is minified, to a document that begins with the document type and has a blank at
neither end. -/
theorem minify_total (minifier : Minifier) (html : Text) :
    ∃ out, minifier.minify html = .ok out ∧ Element.doctype <+: out ∧
      out.head?.any Text.isBlank = false ∧ out.getLast?.any Text.isBlank = false := by
  obtain ⟨events, parsed, balanced⟩ := Event.balanced_parse html
  obtain ⟨written, serialized, begins, trimmed⟩ :=
    Canonical.doctype_prefix_serialize minifier.options balanced
  obtain ⟨kept, ends⟩ := minifier.doctype_prefix_finish begins trimmed
  refine ⟨minifier.finish written, ?_, kept, ?_, ends⟩
  · rw [minify, minifyEvents, parsed, serialized]
    rfl
  · obtain ⟨later, whole⟩ := kept
    rw [← whole]
    rfl

end HtmlMinifier.Minifier

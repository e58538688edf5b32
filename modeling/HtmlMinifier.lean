import HtmlMinifier.Snapshot.Lines
import HtmlMinifier.Snapshot.Fixture
import HtmlMinifier.Main
import HtmlMinifier.Proofs.Minifier.RoundTrip
import HtmlMinifier.Proofs.Minifier.Totality
import HtmlMinifier.Proofs.Minifier.Elision
import HtmlMinifier.Proofs.Minifier.Contract
import HtmlMinifier.Proofs.Minifier.Wrapping
import HtmlMinifier.Proofs.Minifier.Inertness
import HtmlMinifier.Proofs.Minifier.LogicalStream
import HtmlMinifier.Proofs.Minifier.Preformatted
import HtmlMinifier.Proofs.Token.Segment
import HtmlMinifier.Proofs.Minifier.Compression
import HtmlMinifier.Proofs.Event.Retraction
import HtmlMinifier.Proofs.Canonical.Trimming
import HtmlMinifier.Proofs.Canonical.TagRecovery
import HtmlMinifier.Proofs.OptionalTag.Deletion
import HtmlMinifier.Proofs.OptionalTag.Implication
import HtmlMinifier.Proofs.Minifier.Transparency
import HtmlMinifier.Proofs.Minifier.WhiteSpace
import HtmlMinifier.Proofs.OptionalTag.VoidEnd
import HtmlMinifier.Proofs.Event.Nesting
import HtmlMinifier.Proofs.Canonical.Session
import HtmlMinifier.Proofs.Canonical.AttributeOrder
import HtmlMinifier.Proofs.Canonical.Words
import HtmlMinifier.Proofs.Token.WellFormed
import HtmlMinifier.Proofs.Token.VerbatimBody
import HtmlMinifier.Proofs.Canonical.Conditional
import HtmlMinifier.Proofs.Snapshot.Lines
import HtmlMinifier.Proofs.Snapshot.Difference

/-
# Minifying documents

A document is read as events, written in canonical form, and relieved of its optional tags. A
minifier holds only settings and a compressor, so every document starts afresh. The settings are
what a user may choose; every one has a default, so that a settings file may name any of them.
-/
import HtmlMinifier.Canonical.Writer
import HtmlMinifier.Event.Build
import HtmlMinifier.OptionalTag.Elide
import HtmlMinifier.Style.Command

namespace HtmlMinifier

/-- The choices that a minifier leaves to its user. The strict policy keeps the `body` tag before
white space, scripts and styles. -/
structure Settings where
  elideOptionalTags : Bool := true
  collapseEmptyAttributes : Bool := true
  strictBodyOmission : Bool := false
  css : Option Style.Command := none
  deriving DecidableEq, Repr

/-- Settings, and the compressor that style text is given to. -/
structure Minifier where
  settings : Settings := {}
  compressor : Option Style.Compressor := none

namespace Minifier

/-- The minifier of some settings. A style command in the settings becomes its compressor. -/
def ofSettings (settings : Settings) : Minifier :=
  ⟨settings, settings.css.map Style.Command.compress⟩

/-- The same minifier with a compressor of its own. -/
def withCompressor (minifier : Minifier) (compressor : Style.Compressor) : Minifier :=
  { minifier with compressor := some compressor }

/-- The choices that are left to the writer. -/
def options (minifier : Minifier) : Canonical.Options :=
  ⟨minifier.settings.collapseEmptyAttributes, minifier.compressor⟩

/-- Leave out the optional tags of a written document, unless the settings keep them. -/
def finish (minifier : Minifier) (written : Text) : Text :=
  if minifier.settings.elideOptionalTags then
    Text.trim (OptionalTag.elide minifier.settings.strictBodyOmission written)
  else written

/-- Minify a document that is given as events. -/
def minifyEvents (minifier : Minifier) (events : List Event) :
    Except Canonical.StreamError Text :=
  (Canonical.serialize minifier.options events).map minifier.finish

/-- Minify a document. -/
def minify (minifier : Minifier) (html : Text) : Except Canonical.StreamError Text :=
  minifier.minifyEvents (Event.parse html)

/-- What the compressor is asked while events are minified. Nothing is asked once a promise of the
stream is broken. -/
def requests (minifier : Minifier) (events : List Event) : List Text :=
  Canonical.Draft.requests minifier.options .blank
    (Canonical.Draft.accepted minifier.options .blank events)

/-- What is reported while events are minified. -/
def eventsLog (minifier : Minifier) (events : List Event) : List Log.Entry :=
  Canonical.Draft.log minifier.options .blank
      (Canonical.Draft.accepted minifier.options .blank events) ++
    match Canonical.serialize minifier.options events with
    | .ok written =>
        if minifier.settings.elideOptionalTags then
          OptionalTag.passLog (OptionalTag.activeRules minifier.settings.strictBodyOmission)
            written
        else []
    | .error _ => []

/-- What is reported while a document is minified. -/
def log (minifier : Minifier) (html : Text) : List Log.Entry :=
  let events := Event.parse html
  Event.parseLog html ++ minifier.eventsLog events ++
    match minifier.minifyEvents events with
    | .ok output =>
        [⟨.debug, "minify",
          "minified " ++ toString (Text.utf8Length html) ++ " bytes to " ++
            toString (Text.utf8Length output) ++ " bytes (" ++ toString events.length ++
            " events)"⟩]
    | .error _ => []

end Minifier

/-- Minify a document with the default settings. -/
def minify (html : Text) : Except Canonical.StreamError Text :=
  (Minifier.ofSettings {}).minify html

end HtmlMinifier

/-
# Fixtures

A fixture is a document with the result that is expected for it. A directory of fixtures has a
manifest, which lists them by name, and two files for each name. Loading goes through the manifest
in order and stops at the first file that is missing or unusable. A filter may restrict a test to
some names.
-/
import HtmlMinifier.FileTree
import HtmlMinifier.Text.Hidden
import HtmlMinifier.Toml.Document

namespace HtmlMinifier.Snapshot

open Toml

/-- A document and what is expected for it. -/
structure Fixture where
  name : Text
  description : Text
  input : Text
  expected : Text
  deriving DecidableEq, Repr

namespace Fixture

/-- Why fixtures cannot be loaded. Every cause names the file that it is about. -/
inductive LoadError where
  | unreadableManifest (path : Text) (reason : FileError)
  | invalidManifest (path : Text)
  | noFixtures (path : Text)
  | unreadableInput (path : Text) (reason : FileError)
  | unreadableExpectation (path : Text) (reason : FileError)
  deriving DecidableEq, Repr

/-- A path as messages quote it. -/
def quoted (path : Text) : String := String.ofList (Text.quote path)

/-- The error in words. -/
def LoadError.message : LoadError → String
  | .unreadableManifest path reason =>
      "failed to read fixture manifest " ++ quoted path ++ ": " ++ reason.message
  | .invalidManifest path => "invalid fixture manifest " ++ quoted path
  | .noFixtures path => "fixture manifest " ++ quoted path ++ " lists no fixtures"
  | .unreadableInput path reason =>
      "failed to read fixture input " ++ quoted path ++ ": " ++ reason.message
  | .unreadableExpectation path reason =>
      "failed to read fixture expectation " ++ quoted path ++ ": " ++ reason.message

/-- The name and the description in an entry of a manifest: a table with both, which may hold other
keys with values, or a list that begins with both. What a list holds behind them is not looked
at. -/
def readEntry? : Value → Option (Text × Text)
  | .table _ entries => do
      if !Entries.isRepresentable entries then none
      let name ← (Entries.find? entries "name".toList).bind Value.text?
      let description ← (Entries.find? entries "description".toList).bind Value.text?
      pure (name, description)
  | .array (name :: description :: _) => do
      pure (← name.text?, ← description.text?)
  | _ => none

/-- The entries of a manifest in order. A manifest that does not mention fixtures has none.
Whatever else it mentions must have a value. -/
def readManifest? (manifest : Text) : Option (List (Text × Text)) := do
  let root ← Toml.parse manifest
  if !Entries.isRepresentable (root.filter fun entry => entry.1 ≠ "fixture".toList) then none
  match Entries.find? root "fixture".toList with
  | none => some []
  | some (.array items) => items.mapM readEntry?
  | some (.tables elements) =>
      elements.reverse.mapM fun element => readEntry? (.table .header element)
  | some _ => none

/-- A text without the line end at its end. -/
def dropLineEnd (text : Text) : Text :=
  match text.reverse with
  | '\n' :: '\r' :: rest => rest.reverse
  | '\n' :: rest => rest.reverse
  | _ => text

/-- A file in a directory. A name that begins with a slash stands for itself. -/
def pathIn (directory name : Text) : Text :=
  if name.head? = some '/' then name else directory ++ '/' :: name

/-- The text of a file in a tree. -/
def readText (tree : FileTree) (path : Text) : Except FileError Text :=
  (tree.read path).bind FileError.decode

/-- Load one fixture. -/
def loadEntry (tree : FileTree) (directory : Text) (entry : Text × Text) :
    Except LoadError Fixture := do
  let inputPath := pathIn directory (entry.1 ++ ".html".toList)
  let expectedPath := pathIn directory (entry.1 ++ ".html.min".toList)
  let input ← (readText tree inputPath).mapError (LoadError.unreadableInput inputPath)
  let expected ← (readText tree expectedPath).mapError (LoadError.unreadableExpectation
    expectedPath)
  pure ⟨entry.1, entry.2, input, dropLineEnd expected⟩

/-- Load the fixtures of a directory in the order of its manifest. -/
def loadAll (tree : FileTree) (directory : Text) : Except LoadError (List Fixture) := do
  let path := pathIn directory "manifest.toml".toList
  let manifest ← (readText tree path).mapError (LoadError.unreadableManifest path)
  match readManifest? manifest with
  | none => .error (.invalidManifest path)
  | some [] => .error (.noFixtures path)
  | some entries => entries.mapM (loadEntry tree directory)

/-- Whether a text occurs in another one. -/
def occursIn (part : Text) : Text → Bool
  | [] => part = []
  | c :: text => part.isPrefixOf (c :: text) || occursIn part text

/-- Whether a filter lets a name through: it occurs in the name. No filter and the empty filter let
every name through. -/
def matchesFilter (filter : Option Text) (name : Text) : Bool :=
  match filter with
  | none => true
  | some part => occursIn part name

end Fixture

end HtmlMinifier.Snapshot

/-
# Settings from a file

A settings file may name any setting and nothing else. A style command is a table, or an array of
its parts in order: program, arguments, time limit. Whatever is wrong with its content, there is
one answer. A file is read as a whole and as UTF-8 before anything in it is looked at, so a file
that cannot be read is told apart from one whose content is no settings.
-/
import HtmlMinifier.FileTree
import HtmlMinifier.Minifier
import HtmlMinifier.Toml.Document

namespace HtmlMinifier.Settings

open Toml

/-- A boolean. -/
def readBoolean? : Value → Option Bool
  | .boolean value => some value
  | _ => none

/-- A list of strings. -/
def readStrings? : Value → Option (List Text)
  | .array items => items.mapM Value.text?
  | _ => none

/-- A time in milliseconds, which has to fit into 64 bits without a sign. -/
def readTimeout? : Value → Option Nat
  | .integer value =>
      if 0 ≤ value ∧ value ≤ 18446744073709551615 then some value.toNat else none
  | _ => none

/-- The value under a key, read by `reader`, or a default where the key is missing. -/
def readOr {α : Type} (entries : Entries) (key : String) (fallback : α)
    (reader : Value → Option α) :
    Option α :=
  match Entries.find? entries key.toList with
  | none => some fallback
  | some value => reader value

/-- Whether a table has no keys but these. -/
def onlyKeys (entries : Entries) (keys : List String) : Bool :=
  entries.all fun entry => keys.contains (String.ofList entry.1)

/-- A style command. -/
def readCommand? : Value → Option Style.Command
  | .table _ entries => do
      if !onlyKeys entries ["program", "args", "timeout_ms"] then none
      let program ← (Entries.find? entries "program".toList).bind Value.text?
      let arguments ← readOr entries "args" [] readStrings?
      let timeout ← readOr entries "timeout_ms" 2000 readTimeout?
      pure ⟨program, arguments, timeout⟩
  | .array [program] => program.text?.map fun program => ⟨program, [], 2000⟩
  | .array [program, arguments] => do
      pure ⟨← program.text?, ← readStrings? arguments, 2000⟩
  | .array (program :: arguments :: timeout :: _) => do
      pure ⟨← program.text?, ← readStrings? arguments, ← readTimeout? timeout⟩
  | _ => none

/-- The settings of a table. -/
def ofEntries? (entries : Entries) : Option Settings := do
  if !onlyKeys entries
    ["elide_optional_tags", "collapse_empty_attributes", "strict_body_omission", "css"] then none
  let elide ← readOr entries "elide_optional_tags" true readBoolean?
  let collapse ← readOr entries "collapse_empty_attributes" true readBoolean?
  let strict ← readOr entries "strict_body_omission" false readBoolean?
  let css ← readOr entries "css" none fun value => (readCommand? value).map some
  pure ⟨elide, collapse, strict, css⟩

/-- The settings of the text of a file. -/
def parse? (text : Text) : Option Settings := (Toml.parse text).bind ofEntries?

/-! ## Loading -/

/-- Why a file gives no settings. -/
inductive LoadError where
  | unreadable (path : Text) (reason : FileError)
  | malformed
  deriving DecidableEq, Repr

/-- The error in words. -/
def LoadError.message : LoadError → String
  | .unreadable path reason => "cannot read config " ++ String.ofList path ++ ": " ++
      reason.message
  | .malformed => "invalid config"

/-- The settings in the content of a file, if it could be read. -/
def ofContent (path : Text) (content : Except FileError Bytes) : Except LoadError Settings :=
  match content.bind FileError.decode with
  | .error reason => .error (.unreadable path reason)
  | .ok text =>
      match parse? text with
      | some settings => .ok settings
      | none => .error .malformed

/-- The settings in a file of a tree. -/
def load (tree : FileTree) (path : Text) : Except LoadError Settings :=
  ofContent path (tree.read path)

end HtmlMinifier.Settings

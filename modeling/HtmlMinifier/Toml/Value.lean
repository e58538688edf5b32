/-
# Values of settings files

A settings file is a table of values by key. A table remembers how it came to be, because that
decides what may still be added to it: a table in braces is complete, a table under a header is
opened once, a table that only lies on the way to another may still get a header of its own, and a
table that dotted keys have made is the only kind to which dotted keys may add. The tables of a
repeated header are an array of their own kind, to which every further header adds one.

Operations answer `none` where the file contradicts itself, by giving a key twice for instance.
-/
import HtmlMinifier.Text.Basic

namespace HtmlMinifier.Toml

/-- How a table came to be. -/
inductive Origin where
  | braces
  | header
  | onTheWay
  | dottedKey
  deriving DecidableEq, Repr

/-- A value of a settings file. Numbers with a fraction and dates are not told apart further, and a
number may be well written and yet have no value. The elements of a repeated header are listed
latest first. -/
inductive Value where
  | string (text : Text)
  | integer (value : Int)
  | boolean (value : Bool)
  | float
  | date
  | unrepresentable
  | array (items : List Value)
  | table (origin : Origin) (entries : List (Text × Value))
  | tables (elements : List (List (Text × Value)))

/-- The text of a string. -/
def Value.text? : Value → Option Text
  | .string text => some text
  | _ => none

/-- The entries of a table in the order in which they were given. -/
abbrev Entries := List (Text × Value)

mutual

/-- Whether every number in a value has a value. -/
def Value.isRepresentable : Value → Bool
  | .unrepresentable => false
  | .array items => Value.allRepresentable items
  | .table _ entries => Entries.isRepresentable entries
  | .tables elements => Entries.allRepresentable elements
  | _ => true

/-- Whether every number in the items of an array has a value. -/
def Value.allRepresentable : List Value → Bool
  | [] => true
  | item :: items => item.isRepresentable && Value.allRepresentable items

/-- Whether every number in the entries of a table has a value. -/
def Entries.isRepresentable : List (Text × Value) → Bool
  | [] => true
  | (_, value) :: entries => value.isRepresentable && Entries.isRepresentable entries

/-- Whether every number in the tables of a repeated header has a value. -/
def Entries.allRepresentable : List (List (Text × Value)) → Bool
  | [] => true
  | entries :: tables => Entries.isRepresentable entries && Entries.allRepresentable tables

end

namespace Entries

/-- The value under a key. -/
def find? (entries : Entries) (key : Text) : Option Value :=
  (List.find? (fun entry => entry.1 = key) entries).map (·.2)

/-- Put a value in the place of the one under a key. -/
def replace (entries : Entries) (key : Text) (value : Value) : Entries :=
  entries.map fun entry => if entry.1 = key then (key, value) else entry

/-- Add a value under a key that is not there yet. -/
def add (entries : Entries) (key : Text) (value : Value) : Option Entries :=
  if (entries.find? key).isSome then none else some (entries ++ [(key, value)])

/-- Add a value under a dotted key. The last table on the way must be made by dotted keys. The
tables before it may also lie on the way to a header, or be the latest of a repeated header. -/
def put (value : Value) : (path : List Text) → (entries : Entries) → Option Entries
  | [], _ => none
  | [key], entries => entries.add key value
  | key :: path, entries =>
      match entries.find? key with
      | none => (put value path []).bind fun inner => entries.add key (.table .dottedKey inner)
      | some (.table .dottedKey inner) =>
          (put value path inner).map fun inner => entries.replace key (.table .dottedKey inner)
      | some (.table .onTheWay inner) =>
          if path.length = 1 then none
          else (put value path inner).map fun inner => entries.replace key (.table .onTheWay inner)
      | some (.tables (latest :: earlier)) =>
          if path.length = 1 then none
          else
            (put value path latest).map fun inner => entries.replace key
              (.tables (inner :: earlier))
      | some _ => none

/-- Change the table at the end of a path of headers. Tables that are missing on the way are made,
and of the tables of a repeated header the latest is meant. -/
def within (change : Entries → Option Entries) :
    (path : List Text) → (entries : Entries) → Option Entries
  | [], entries => change entries
  | key :: path, entries =>
      match entries.find? key with
      | none => (within change path []).bind fun inner => entries.add key (.table .onTheWay inner)
      | some (.table .braces _) => none
      | some (.table origin inner) =>
          (within change path inner).map fun inner => entries.replace key (.table origin inner)
      | some (.tables (latest :: earlier)) =>
          (within change path latest).map fun inner =>
            entries.replace key (.tables (inner :: earlier))
      | some _ => none

/-- Open a table under a header. -/
def openTable (key : Text) (entries : Entries) : Option Entries :=
  match entries.find? key with
  | none => entries.add key (.table .header [])
  | some (.table .onTheWay inner) => some (entries.replace key (.table .header inner))
  | some _ => none

/-- Open one more table under a repeated header. -/
def openElement (key : Text) (entries : Entries) : Option Entries :=
  match entries.find? key with
  | none => entries.add key (.tables [[]])
  | some (.tables elements) => some (entries.replace key (.tables ([] :: elements)))
  | some _ => none

end Entries

end HtmlMinifier.Toml

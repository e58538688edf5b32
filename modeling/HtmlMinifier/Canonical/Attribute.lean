/-
# Attributes in canonical form

A written start tag has each attribute name once, in lower case and in ascending order, with the
value that was given last. An attribute that is boolean on its element is a bare name, and so is
one with an empty value unless that is turned off. Values are quoted only where they must be.
-/
import HtmlMinifier.Element
import HtmlMinifier.Reference.Basic

namespace HtmlMinifier.Canonical

/-- Put a value under a name in a list that ascends by name. An earlier value of that name is
lost. -/
def putAttribute (name value : Text) : List (Text × Text) → List (Text × Text)
  | [] => [(name, value)]
  | held :: later =>
      if name = held.1 then (name, value) :: later
      else if name < held.1 then (name, value) :: held :: later
      else held :: putAttribute name value later

/-- The given attributes by ascending lower-case name, each with its last value. Attributes without
a name are left out. -/
def sortedAttributes (given : List (Text × Text)) : List (Text × Text) :=
  (given.filter fun attr => attr.1 ≠ []).foldl
    (fun held attr => putAttribute (Text.lower attr.1) attr.2 held) []

/-- The value that is written for an attribute, or `none` for a bare name. -/
def writtenValue (collapseEmpty : Bool) (element name value : Text) : Option Text :=
  if Element.isBooleanAttribute element name then none
  else
    let normalized := Reference.normalizeAttribute value
    if normalized = [] && collapseEmpty then none else some normalized

/-- The attributes of a written start tag. -/
def canonicalAttributes (collapseEmpty : Bool) (element : Text) (given : List (Text × Text)) :
    List (Text × Option Text) :=
  (sortedAttributes given).map fun attr =>
    (attr.1, writtenValue collapseEmpty element attr.1 attr.2)

/-- Whether a normalized value can only be written in quotes. -/
def needsQuotes (value : Text) : Bool :=
  value = [] || value.any fun c =>
    Text.isBlank c || c = '"' || c = '\'' || c = '<' || c = '>' || c = '=' || c = '\x60'

/-- The text of an attribute, with the space in front of it. -/
def renderAttribute (attr : Text × Option Text) : Text :=
  match attr.2 with
  | none => ' ' :: attr.1
  | some value =>
      if needsQuotes value then ' ' :: attr.1 ++ '=' :: '"' :: value ++ ['"']
      else ' ' :: attr.1 ++ '=' :: value

end HtmlMinifier.Canonical

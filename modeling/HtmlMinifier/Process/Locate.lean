/-
# Finding programs

The small programs of this library live in two directories. A name without a slash is looked for in
them, and a path has to lead there. Some directories and files are known to be there as well: they
cannot be run, which is not the same as not being there.
-/
import HtmlMinifier.Style.Compressor

namespace HtmlMinifier.Process

/-- The programs there are. -/
def programNames : List Text :=
  ["cat", "tr", "sh", "sleep", "true", "false", "echo", "printf", "head"].map String.toList

/-- The directories in which programs are found. -/
def programDirectories : List (List Text) :=
  [["bin".toList], ["usr".toList, "bin".toList]]

/-- Directories that are known to be there. -/
def knownDirectories : List (List Text) :=
  [["bin"], ["dev"], ["etc"], ["home"], ["lib"], ["opt"], ["proc"], ["root"], ["sys"], ["tmp"],
    ["usr"], ["usr", "bin"], ["usr", "lib"], ["var"]].map (·.map String.toList)

/-- Files that are known to be there and are no programs. -/
def knownFiles : List (List Text) :=
  [["dev", "null"], ["dev", "zero"], ["etc", "passwd"], ["etc", "hosts"],
    ["etc", "hostname"]].map (·.map String.toList)

/-- The parts of a path between its slashes, with its dots followed. -/
def pathParts (path : Text) : List Text :=
  (path.splitOnP (· = '/')).foldl (fun parts part =>
    if part = [] || part = ['.'] then parts
    else if part = ['.', '.'] then parts.dropLast
    else parts ++ [part]) []

/-- Whether a path consists of dots and slashes alone, so that it leads to a directory. -/
def isDotted (path : Text) : Bool :=
  (path.splitOnP (· = '/')).all fun part => part = [] || part = ['.'] || part = ['.', '.']

/-- The program at a place. -/
def programAt? (place : List Text) : Option Text :=
  let name := place.getLastD []
  if programDirectories.contains place.dropLast && programNames.contains name then some name
  else none

/-- Whether a place is known to be a file. -/
def isFile (place : List Text) : Bool := knownFiles.contains place || (programAt? place).isSome

/-- What a name of a program leads to. A directory and a file that is no program are forbidden, and
a file on the way to something else blocks it. -/
inductive Location where
  | program (name : Text)
  | forbidden
  | blocked
  | nowhere
  deriving DecidableEq, Repr

/-- Find a program: by its path if there is a slash in the name, otherwise in the program
directories. -/
def locate (name : Text) : Location :=
  let place := pathParts name
  if name = [] then .nowhere
  else if isDotted name then .forbidden
  else if !name.contains '/' then
    if programNames.contains name then .program name else .nowhere
  else if name.head? ≠ some '/' then .nowhere
  else if isFile place then
    if name.getLast? = some '/' then .blocked
    else match programAt? place with
      | some found => .program found
      | none => .forbidden
  else if knownDirectories.contains place then .forbidden
  else if (List.range place.length).any (fun count => isFile (place.take count)) then .blocked
  else .nowhere

end HtmlMinifier.Process

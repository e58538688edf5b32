/-
# Files and directories

A tree of files is what a run can read and write: some files by their place under the root, and the
directories that lie above them. A path is followed name by name from the root or from the working
directory, and every place that it goes on from has to be a directory. Reading and writing fail for
the reasons an operating system gives, in the order in which it finds them.
-/
import HtmlMinifier.Text.Utf8

namespace HtmlMinifier

/-- Why a file cannot be read or written. -/
inductive FileError where
  | nulByte
  | notFound
  | permissionDenied
  | notADirectory
  | isADirectory
  | nameTooLong
  | invalidUtf8
  | other (words : String)
  deriving DecidableEq, Repr

/-- The failure in words. -/
def FileError.message : FileError → String
  | .nulByte => "file name contained an unexpected NUL byte"
  | .notFound => "No such file or directory (os error 2)"
  | .permissionDenied => "Permission denied (os error 13)"
  | .notADirectory => "Not a directory (os error 20)"
  | .isADirectory => "Is a directory (os error 21)"
  | .nameTooLong => "File name too long (os error 36)"
  | .invalidUtf8 => "stream did not contain valid UTF-8"
  | .other words => words

/-- The text of bytes, which have to be UTF-8. -/
def FileError.decode (bytes : Bytes) : Except FileError Text :=
  match Utf8.decode? bytes with
  | some text => .ok text
  | none => .error .invalidUtf8

/-- Files by place, where a place is the list of names from the root down. A directory is the
working directory, one of those that are listed, or anything above one of them or above a file. -/
structure FileTree where
  workingDirectory : List Text
  directories : List (List Text)
  files : List (List Text × Bytes)

namespace FileTree

/-- The names in a path. Slashes at the end or next to each other leave empty names. -/
def names (path : Text) : List Text := path.splitOnP (· = '/')

/-- One name further: `.` and the empty name stay, `..` goes up, and any other name goes down. -/
def step (place : List Text) (name : Text) : List Text :=
  if name = [] || name = ['.'] then place
  else if name = ['.', '.'] then place.dropLast
  else place ++ [name]

/-- Where a path starts: at the root if it begins with a slash, else in the working directory. -/
def start (tree : FileTree) (path : Text) : List Text :=
  if path.head? = some '/' then [] else tree.workingDirectory

/-- The content of the file at a place. -/
def file? (tree : FileTree) (place : List Text) : Option Bytes :=
  (tree.files.find? fun file => file.1 = place).map (·.2)

/-- Whether a place is a directory. -/
def isDirectory (tree : FileTree) (place : List Text) : Bool :=
  place.isPrefixOf tree.workingDirectory ||
    tree.directories.any (fun directory => place.isPrefixOf directory) ||
    tree.files.any fun file => place.isPrefixOf file.1.dropLast

/-- Follow names from a place. Nothing is asked of the last place. -/
def follow (tree : FileTree) (place : List Text) : List Text → Except FileError (List Text)
  | [] => .ok place
  | name :: names =>
      if tree.isDirectory place then
        if 255 < Text.utf8Length name then .error .nameTooLong
        else follow tree (step place name) names
      else if (tree.file? place).isSome then .error .notADirectory
      else .error .notFound

/-- What is wrong with a path whatever the tree. -/
def pathError? (path : Text) : Option FileError :=
  if path.contains '\x00' then some .nulByte
  else if path = [] then some .notFound
  else if 4095 < Text.utf8Length path then some .nameTooLong
  else none

/-- The bytes of a file. -/
def read (tree : FileTree) (path : Text) : Except FileError Bytes :=
  match pathError? path with
  | some reason => .error reason
  | none => do
      let place ← tree.follow (tree.start path) (names path)
      match tree.file? place with
      | some bytes => .ok bytes
      | none => if tree.isDirectory place then .error .isADirectory else .error .notFound

/-- The file that swallows what is written to it. -/
def nullDevice : List Text := ["dev".toList, "null".toList]

/-- Put bytes at a place, over the file that was there. -/
def put (tree : FileTree) (place : List Text) (bytes : Bytes) : FileTree :=
  if place = nullDevice then tree
  else { tree with files := (place, bytes) :: tree.files.filter fun file => file.1 ≠ place }

/-- Write bytes to a file, which need not be there yet. The directory has to be there, and a path
with a slash at its end can only mean a directory. -/
def write (tree : FileTree) (path : Text) (bytes : Bytes) : Except FileError FileTree :=
  match pathError? path with
  | some reason => .error reason
  | none => do
      let given := (names path).reverse
      let place ← tree.follow (tree.start path) (given.dropWhile (· = [])).reverse
      if tree.isDirectory place || given.head? = some [] then .error .isADirectory
      else .ok (tree.put place bytes)

/-- The tree of some files in a working directory that holds nothing else. Around it there are the
directories that every system has, and the empty device. -/
def ofFiles (files : List (Text × Bytes)) : FileTree :=
  let working := ["tmp".toList, "work".toList]
  let named := files.map fun file => ((names file.1).foldl step working, file.2)
  { workingDirectory := working
    directories := ["bin", "dev", "etc", "home", "proc", "root", "usr", "var"].map fun name =>
      [name.toList]
    files := (nullDevice, []) :: named.reverse }

end FileTree

end HtmlMinifier

/-
# Documents as lines

A minified document is one long line. For comparing two of them, each is cut into lines of one tag
or one run of text, escaped so that a line holds no control character, and the first difference is
shown with the lines around it.
-/
import HtmlMinifier.Text.Basic

namespace HtmlMinifier.Snapshot

/-- The two upper-case hexadecimal digits of a code below 256. -/
def hexPair (code : Nat) : Text :=
  [(Nat.digitChar (code / 16)).toUpper, (Nat.digitChar (code % 16)).toUpper]

/-- The escaped form of a character. -/
def escapeChar (c : Char) : Text :=
  if c = '\\' then ['\\', '\\']
  else if c = '"' then ['\\', '"']
  else if c = '\n' then ['\\', 'n']
  else if c = '\r' then ['\\', 'r']
  else if c = '\t' then ['\\', 't']
  else if c < ' ' then '\\' :: 'u' :: '\x7b' :: hexPair c.toNat ++ ['\x7d']
  else [c]

/-- Escape backslashes, double quotes and control characters, so that a text fits on one line. -/
def escape (text : Text) : Text := text.flatMap escapeChar

/-- Cut markup before every `<` and after every `>`. -/
def cut : Text → List Text
  | [] => []
  | c :: markup =>
      match cut markup with
      | [] => [[c]]
      | piece :: later =>
          if c = '>' || piece.head? = some '<' then [c] :: piece :: later
          else (c :: piece) :: later

/-- Markup as lines of one tag or one run of text. -/
def markupLines (markup : Text) : List Text := (cut markup).map escape

/-- What is shown of a line that one of two documents does not have. -/
def missing : Text := "<missing>".toList

/-- The line with this number, counted from zero. -/
def lineAt (lines : List Text) (index : Nat) : Text := lines.getD index missing

/-- The number of the first line that differs, counted from zero. -/
def firstMismatch? (expected actual : List Text) : Option Nat :=
  (List.range (max expected.length actual.length)).find? fun index =>
    lineAt expected index ≠ lineAt actual index

/-- A number as decimal digits. -/
def decimal (number : Nat) : Text := Nat.toDigits 10 number

/-- A number in at least four columns. -/
def column (number : Nat) : Text :=
  List.replicate (4 - (decimal number).length) ' ' ++ decimal number

/-- The two lines that show one line of both documents. The mismatch is marked. -/
def showLine (expected actual : List Text) (mismatch index : Nat) : Text :=
  let marker := if index = mismatch then '>' else ' '
  marker :: ' ' :: column (index + 1) ++ "  expected: ".toList ++ lineAt expected index ++
    ['\n'] ++
    marker :: ' ' :: column (index + 1) ++ "    actual: ".toList ++ lineAt actual index ++ ['\n']

/-- The numbers of the lines that are shown around a mismatch: two before it and two after it,
where there are so many. -/
def shownAround (length mismatch : Nat) : List Nat :=
  (List.range (min (mismatch + 3) length)).drop (mismatch - 2)

/-- Describe the first difference of two lists of lines, and how long both are. -/
def diffLines (expected actual : List Text) : Text :=
  let length := max expected.length actual.length
  (match firstMismatch? expected actual with
    | none => []
    | some mismatch =>
        "first mismatch at line ".toList ++ decimal (mismatch + 1) ++ " (showing ".toList ++
          decimal (mismatch - 2 + 1) ++ "..=".toList ++ decimal (min (mismatch + 3) length) ++
          "):\n".toList ++
          (shownAround length mismatch).flatMap (showLine expected actual mismatch)) ++
    "expected ".toList ++ decimal expected.length ++ " lines, actual ".toList ++
    decimal actual.length ++ " lines\n".toList

end HtmlMinifier.Snapshot

/-
# Lexical rules of settings files

Readers for line ends, comments, strings and keys. Each answers what it has read and the text
behind it, or `none` where the text breaks the rules. A carriage return is allowed only in front of
a line feed, and control characters other than tab are allowed nowhere.
-/
import HtmlMinifier.Reference.Basic

namespace HtmlMinifier.Toml

/-- Blanks within a line. -/
def isLineBlank (c : Char) : Bool := c = ' ' || c = '\t'

/-- Whether a character may stand in a comment or in a string as it is. -/
def isPlain (c : Char) : Bool := c = '\t' || (0x20 ≤ c.toNat && c.toNat ≠ 0x7F)

/-- Skip the blanks of a line. -/
def skipBlanks (text : Text) : Text := text.dropWhile isLineBlank

/-- What follows a line end at the head of a text. -/
def dropLineEnd? : Text → Option Text
  | '\n' :: text => some text
  | '\r' :: '\n' :: text => some text
  | _ => none

/-- Skip a comment, if one begins here, up to its line end. -/
def skipComment : Text → Text
  | '#' :: text => text.dropWhile isPlain
  | text => text

/-- What follows the rest of a line that holds nothing but a comment. -/
def finishLine? (text : Text) : Option Text :=
  match skipComment (skipBlanks text) with
  | [] => some []
  | rest => dropLineEnd? rest

/-- Skip blanks, comments and line ends. -/
def skipLines (fuel : Nat) (text : Text) : Text :=
  match fuel with
  | 0 => text
  | fuel + 1 =>
      let rest := skipComment (skipBlanks text)
      match dropLineEnd? rest with
      | some next => skipLines fuel next
      | none => rest

/-- The character with a code point of exactly so many hexadecimal digits at the head of a text. -/
def readCode? (digits : Nat) (text : Text) : Option (Char × Text) :=
  if text.length < digits then none
  else
    (Reference.number? 16 (text.take digits)).bind fun code =>
      if code.isValidChar then some (Char.ofNat code, text.drop digits) else none

/-- The character of an escape whose backslash has been read. -/
def readEscape? : Text → Option (Char × Text)
  | 'b' :: text => some ('\x08', text)
  | 't' :: text => some ('\t', text)
  | 'n' :: text => some ('\n', text)
  | 'f' :: text => some ('\x0c', text)
  | 'r' :: text => some ('\r', text)
  | 'e' :: text => some ('\x1b', text)
  | '"' :: text => some ('"', text)
  | '\\' :: text => some ('\\', text)
  | 'x' :: text => readCode? 2 text
  | 'u' :: text => readCode? 4 text
  | 'U' :: text => readCode? 8 text
  | _ => none

/-- The rest of a string of one line whose opening quote has been read. -/
def readString (fuel : Nat) (text : Text) : Option (Text × Text) :=
  match fuel, text with
  | 0, _ => none
  | _, [] => none
  | _, '"' :: rest => some ([], rest)
  | fuel + 1, '\\' :: rest =>
      (readEscape? rest).bind fun escaped =>
        (readString fuel escaped.2).map fun later => (escaped.1 :: later.1, later.2)
  | fuel + 1, c :: rest =>
      if isPlain c then (readString fuel rest).map fun later => (c :: later.1, later.2) else none

/-- The rest of a literal string of one line. -/
def readLiteral : Text → Option (Text × Text)
  | [] => none
  | c :: rest =>
      if c = '\'' then some ([], rest)
      else if isPlain c then (readLiteral rest).map fun later => (c :: later.1, later.2)
      else none

/-- A line end directly behind the opening quotes is not part of the string. -/
def dropFirstLineEnd (text : Text) : Text := (dropLineEnd? text).getD text

/-- Three or more quotes end a string of several lines; up to two of them belong to it. The answer
is the quotes that belong to the string and what follows it. -/
def readClosing? (quote : Char) (text : Text) : Option (Text × Text) :=
  let run := (text.takeWhile (· = quote)).length
  if run < 3 then none else some (List.replicate (min (run - 3) 2) quote, text.drop (min run 5))

/-- What follows a backslash at the end of a line: all blanks and line ends are skipped. -/
def skipFolded (fuel : Nat) (text : Text) : Text :=
  match fuel with
  | 0 => text
  | fuel + 1 =>
      match dropLineEnd? (skipBlanks text) with
      | some next => skipFolded fuel next
      | none => skipBlanks text

/-- The rest of a string of several lines. -/
def readLongString (fuel : Nat) (text : Text) : Option (Text × Text) :=
  match fuel, readClosing? '"' text, text with
  | _, some closing, _ => some closing
  | 0, _, _ => none
  | _, _, [] => none
  | fuel + 1, none, '\\' :: rest =>
      match dropLineEnd? (skipBlanks rest) with
      | some next => readLongString fuel (skipFolded next.length next)
      | none =>
          (readEscape? rest).bind fun escaped =>
            (readLongString fuel escaped.2).map fun later => (escaped.1 :: later.1, later.2)
  | fuel + 1, none, '\r' :: '\n' :: rest =>
      (readLongString fuel rest).map fun later => ('\r' :: '\n' :: later.1, later.2)
  | fuel + 1, none, c :: rest =>
      if isPlain c || c = '\n' then
        (readLongString fuel rest).map fun later => (c :: later.1, later.2)
      else none

/-- The rest of a literal string of several lines. -/
def readLongLiteral (fuel : Nat) (text : Text) : Option (Text × Text) :=
  match fuel, readClosing? '\'' text, text with
  | _, some closing, _ => some closing
  | 0, _, _ => none
  | _, _, [] => none
  | fuel + 1, none, '\r' :: '\n' :: rest =>
      (readLongLiteral fuel rest).map fun later => ('\r' :: '\n' :: later.1, later.2)
  | fuel + 1, none, c :: rest =>
      if isPlain c || c = '\n' then
        (readLongLiteral fuel rest).map fun later => (c :: later.1, later.2)
      else none

/-- The characters of a key without quotes. -/
def isKeyChar (c : Char) : Bool := c.isAlphanum || c = '_' || c = '-'

/-- A key between dots. Only strings of one line may be keys. -/
def readSimpleKey? (text : Text) : Option (Text × Text) :=
  match text with
  | '"' :: '"' :: '"' :: _ => none
  | '\'' :: '\'' :: '\'' :: _ => none
  | '"' :: rest => readString (rest.length + 1) rest
  | '\'' :: rest => readLiteral rest
  | _ =>
      let key := text.takeWhile isKeyChar
      if key = [] then none else some (key, text.dropWhile isKeyChar)

/-- A dotted key of at most so many parts, with blanks around its dots and behind it. -/
def readParts (limit : Nat) (text : Text) : Option (List Text × Text) :=
  match limit with
  | 0 => none
  | limit + 1 =>
      (readSimpleKey? (skipBlanks text)).bind fun first =>
        match skipBlanks first.2 with
        | '.' :: rest => (readParts limit rest).map fun later => (first.1 :: later.1, later.2)
        | rest => some ([first.1], rest)

/-- How deep brackets and braces may be nested, and of how many parts a key may be. -/
def nestingLimit : Nat := 80

/-- A dotted key. -/
def readKey? (text : Text) : Option (List Text × Text) := readParts nestingLimit text

end HtmlMinifier.Toml

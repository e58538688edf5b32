/-
# Reading settings files

A file is a sequence of lines: headers, which open a table, and entries, which put a value under a
key of the table that was opened last. Values in brackets and braces may run over several lines,
and are nested to a bounded depth.

Every reader takes an amount of fuel that bounds how often it may still step. A step consumes at
least one character, so the length of the text is always enough. Readers of values take the depth
to which brackets and braces may still be opened.
-/
import HtmlMinifier.Toml.Scalar

namespace HtmlMinifier.Toml

mutual

/-- A value at the head of a text. -/
def readValue (fuel depth : Nat) (text : Text) : Option (Value × Text) :=
  match fuel, text with
  | 0, _ => none
  | _ + 1, '"' :: '"' :: '"' :: rest =>
      let body := dropFirstLineEnd rest
      (readLongString (body.length + 1) body).map fun found => (.string found.1, found.2)
  | _ + 1, '\'' :: '\'' :: '\'' :: rest =>
      let body := dropFirstLineEnd rest
      (readLongLiteral (body.length + 1) body).map fun found => (.string found.1, found.2)
  | _ + 1, '"' :: rest =>
      (readString (rest.length + 1) rest).map fun found => (.string found.1, found.2)
  | _ + 1, '\'' :: rest => (readLiteral rest).map fun found => (.string found.1, found.2)
  | fuel + 1, '[' :: rest =>
      if depth = 0 then none
      else (readItems fuel (depth - 1) rest).map fun found => (.array found.1, found.2)
  | fuel + 1, '\x7b' :: rest =>
      if depth = 0 then none
      else
        (readEntries fuel (depth - 1) [] rest).map fun found => (.table .braces found.1, found.2)
  | _ + 1, rest => readScalar? rest

/-- The items of an array up to its closing bracket. -/
def readItems (fuel depth : Nat) (text : Text) : Option (List Value × Text) :=
  match fuel with
  | 0 => none
  | fuel + 1 =>
      match skipLines text.length text with
      | ']' :: rest => some ([], rest)
      | start =>
          (readValue fuel depth start).bind fun item =>
            match skipLines item.2.length item.2 with
            | ']' :: rest => some ([item.1], rest)
            | ',' :: rest =>
                (readItems fuel depth rest).map fun later => (item.1 :: later.1, later.2)
            | _ => none

/-- The entries of a table up to its closing brace, with those that are read already. Within braces
a line may end anywhere but inside a key. -/
def readEntries (fuel depth : Nat) (entries : Entries) (text : Text) : Option (Entries × Text) :=
  match fuel with
  | 0 => none
  | fuel + 1 =>
      match skipLines text.length text with
      | '\x7d' :: rest => some (entries, rest)
      | start =>
          (readKey? start).bind fun key =>
            match skipLines key.2.length key.2 with
            | '=' :: valued =>
                (readValue fuel depth (skipLines valued.length valued)).bind fun value =>
                  (entries.put value.1 key.1).bind fun entries =>
                    match skipLines value.2.length value.2 with
                    | '\x7d' :: rest => some (entries, rest)
                    | ',' :: rest => readEntries fuel depth entries rest
                    | _ => none
            | _ => none

end

/-- The brackets of a header that has been read: its key and what follows. -/
def readHeader? (closing : Text) (text : Text) : Option (List Text × Text) :=
  (readKey? text).bind fun key =>
    (Text.dropFolded? closing key.2).map fun rest => (key.1, rest)

/-- Read one line with content: the table that is open after it, and the whole file so far. -/
def readLine? (current : List Text) (root : Entries) (text : Text) :
    Option (List Text × Entries × Text) :=
  match text with
  | '[' :: '[' :: rest =>
      (readHeader? "]]".toList rest).bind fun header =>
        (root.within (Entries.openElement (header.1.getLastD [])) header.1.dropLast).map
          fun root => (header.1, root, header.2)
  | '[' :: rest =>
      (readHeader? "]".toList rest).bind fun header =>
        (root.within (Entries.openTable (header.1.getLastD [])) header.1.dropLast).map
          fun root => (header.1, root, header.2)
  | _ =>
      (readKey? text).bind fun key =>
        match key.2 with
        | '=' :: valued =>
            (readValue (valued.length + 1) nestingLimit (skipBlanks valued)).bind fun value =>
              (root.within (Entries.put value.1 key.1) current).map
                fun root => (current, root, value.2)
        | _ => none

/-- Read lines to the end of the file. -/
def readLines (fuel : Nat) (current : List Text) (root : Entries) (text : Text) : Option Entries :=
  match fuel with
  | 0 => none
  | fuel + 1 =>
      match skipLines (text.length + 1) text with
      | [] => some root
      | start =>
          (readLine? current root start).bind fun line =>
            (finishLine? line.2.2).bind fun rest => readLines fuel line.1 line.2.1 rest

/-- The table of a settings file. A byte order mark at its head is skipped. -/
def parse (text : Text) : Option Entries :=
  let body := match text with
    | '\ufeff' :: rest => rest
    | _ => text
  readLines (body.length + 1) [] [] body

end HtmlMinifier.Toml

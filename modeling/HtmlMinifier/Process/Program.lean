/-
# Small programs

The programs that a style command may name, or that a script may run. Each answers its arguments
and its input with what it leaves behind. Options that no style command has a use for are refused
as the programs refuse unknown ones.
-/
import HtmlMinifier.Process.Locate
import HtmlMinifier.Process.Transliterate

namespace HtmlMinifier.Process

/-- The complaint about an option letter that a program does not know. -/
def unknownOption (program : String) (letter : Char) : Report :=
  .failure 1 (program ++ ": invalid option -- '" ++ String.ofList [letter] ++ "'\nTry '" ++
    program ++
    " --help' for more information.")

/-- Copy one file after another. The input can be read once, the empty device holds nothing, and
there are no other files. -/
def copyFiles (input : Bytes) : List Text → Report
  | [] => .success []
  | name :: names =>
      let complain := fun (reason : String) =>
        let later := copyFiles input names
        { later with
          errors := Utf8.encode ("cat: " ++ String.ofList name ++ ": " ++ reason ++ "\n").toList ++
            later.errors
          status := .code 1 }
      if name = "-".toList then
        let later := copyFiles [] names
        { later with output := input ++ later.output }
      else if name = "/dev/null".toList then copyFiles input names
      else
        match locate name with
        | .forbidden => complain "Is a directory"
        | .blocked => complain "Not a directory"
        | _ => complain "No such file or directory"

/-- Copy the input, or the named files. -/
def concatenate (arguments : List Text) (input : Bytes) : Report :=
  let isOption := fun (argument : Text) => argument.head? = some '-' && argument ≠ ['-']
  let options := (arguments.takeWhile (· ≠ "--".toList)).filter isOption
  let names := (arguments.takeWhile (· ≠ "--".toList)).filter (!isOption ·) ++
    (arguments.dropWhile (· ≠ "--".toList)).tail
  match (options.flatMap List.tail).find? (· ≠ 'u') with
  | some letter => unknownOption "cat" letter
  | none => if names = [] then .success input else copyFiles input names

/-- The milliseconds in one unit of a time. -/
def timeUnit? : Text → Option Nat
  | [] => some 1000
  | ['s'] => some 1000
  | ['m'] => some 60000
  | ['h'] => some 3600000
  | ['d'] => some 86400000
  | _ => none

/-- The milliseconds of a time written as a decimal number with or without a unit. -/
def readTime? (text : Text) : Option Nat :=
  let whole := text.takeWhile Char.isDigit
  let after := text.dropWhile Char.isDigit
  let digits := fun (shown : Text) => shown.foldl (fun total c => total * 10 + (c.toNat - 48)) 0
  if text = "infinity".toList || text = "inf".toList then some 1000000000000000000
  else
    match after with
    | '.' :: decimals =>
        let fraction := decimals.takeWhile Char.isDigit
        if whole = [] && fraction = [] then none
        else
          (timeUnit? (decimals.dropWhile Char.isDigit)).map fun unit =>
            (digits whole * Nat.pow 10 fraction.length + digits fraction) * unit /
              Nat.pow 10 fraction.length
    | suffix => if whole = [] then none else (timeUnit? suffix).map (digits whole * ·)

/-- Wait for the sum of the times. -/
def sleep (arguments : List Text) : Report :=
  match arguments with
  | [] => .failure 1 "sleep: missing operand\nTry 'sleep --help' for more information."
  | ('-' :: letter :: _) :: _ => unknownOption "sleep" letter
  | _ =>
      match arguments.find? fun argument => (readTime? argument).isNone with
      | some wrong =>
          .failure 1 ("sleep: invalid time interval '" ++ String.ofList wrong ++
            "'\nTry 'sleep --help' for more information.")
      | none => ⟨[], [], .code 0, (arguments.filterMap readTime?).foldr (· + ·) 0⟩

/-- The bytes of an escape and what follows it. With `marked` octal digits need a `0` in front. -/
def readEscape (marked : Bool) (c : Char) (rest : Text) : Bytes × Text :=
  match escapeByte? c with
  | some byte => ([byte], rest)
  | none =>
      if marked && c = '0' then
        let octal := readOctal 3 0 rest
        ([UInt8.ofNat octal.1], octal.2)
      else if !marked && (octalDigit? c).isSome then
        let octal := readOctal 3 0 (c :: rest)
        ([UInt8.ofNat octal.1], octal.2)
      else (92 :: String.utf8EncodeChar c, rest)

/-- The bytes of a text with escapes, and whether an escape asked for output to stop. -/
def unescape (fuel : Nat) (text : Text) : Bytes × Bool :=
  match fuel, text with
  | 0, _ => ([], false)
  | _, [] => ([], false)
  | fuel + 1, '\\' :: c :: rest =>
      if c = 'c' then ([], true)
      else
        let found := readEscape true c rest
        let later := unescape fuel found.2
        (found.1 ++ later.1, later.2)
  | fuel + 1, c :: rest =>
      let later := unescape fuel rest
      (String.utf8EncodeChar c ++ later.1, later.2)

/-- Write the arguments with a space between them. Escapes are interpreted. -/
def echo (arguments : List Text) : Report :=
  let silent := arguments.head? = some "-n".toList
  let shown := if silent then arguments.tail else arguments
  let words := List.intercalate [' '] shown
  let bytes := unescape words.length words
  .success (bytes.1 ++ if silent || bytes.2 then [] else [10])

/-- One pass of a format over arguments: the bytes, the arguments that are left, and whether output
stops. -/
def formatOnce (fuel : Nat) (format : Text) (arguments : List Text) : Bytes × List Text × Bool :=
  match fuel, format with
  | 0, _ => ([], arguments, false)
  | _, [] => ([], arguments, false)
  | fuel + 1, '%' :: '%' :: rest =>
      let later := formatOnce fuel rest arguments
      (37 :: later.1, later.2)
  | fuel + 1, '%' :: kind :: rest =>
      let given := arguments.headD []
      let shown : Bytes × Bool :=
        if kind = 'b' then unescape given.length given
        else if kind = 'c' then (Utf8.encode (given.take 1), false)
        else if kind = 's' then (Utf8.encode given, false)
        else if given = [] then ([48], false)
        else (Utf8.encode given, false)
      if shown.2 then (shown.1, arguments.tail, true)
      else
        let later := formatOnce fuel rest arguments.tail
        (shown.1 ++ later.1, later.2)
  | fuel + 1, '\\' :: c :: rest =>
      if c = 'c' then ([], arguments, true)
      else
        let found := readEscape false c rest
        let later := formatOnce fuel found.2 arguments
        (found.1 ++ later.1, later.2)
  | fuel + 1, c :: rest =>
      let later := formatOnce fuel rest arguments
      (String.utf8EncodeChar c ++ later.1, later.2)

/-- Write a format, again and again while arguments are left that it takes. -/
def formatAll (rounds : Nat) (format : Text) (arguments : List Text) : Bytes :=
  match rounds with
  | 0 => []
  | rounds + 1 =>
      let once := formatOnce format.length format arguments
      if once.2.2 || once.2.1 = [] || once.2.1.length = arguments.length then once.1
      else once.1 ++ formatAll rounds format once.2.1

/-- Write a format with its arguments. -/
def printFormatted : List Text → Report
  | [] => .failure 2 "sh: 1: printf: usage: printf format [arg ...]"
  | format :: arguments => .success (formatAll (arguments.length + 1) format arguments)

/-- The first bytes or lines of the input. -/
def takeHead (arguments : List Text) (input : Bytes) : Report :=
  let number? := fun (shown : Text) => (String.ofList shown).toNat?
  let lines := fun (count : Nat) =>
    let step := fun (kept : Bytes × Nat) (byte : UInt8) =>
      if kept.2 = 0 then kept
      else (byte :: kept.1, if byte = 10 then kept.2 - 1 else kept.2)
    (input.foldl step ([], count)).1.reverse
  match arguments with
  | [] => .success (lines 10)
  | [['-', 'c'], shown] => .success (input.take ((number? shown).getD 0))
  | [['-', 'n'], shown] => .success (lines ((number? shown).getD 0))
  | ['-' :: 'c' :: shown] => .success (input.take ((number? shown).getD 0))
  | ['-' :: 'n' :: shown] => .success (lines ((number? shown).getD 0))
  | ['-' :: shown] => .success (lines ((number? shown).getD 0))
  | _ => .failure 1 "head: cannot open the file for reading: No such file or directory"

/-- Run a program by name, if there is one. -/
def runProgram? (name : Text) (arguments : List Text) (input : Bytes) : Option Report :=
  match String.ofList name with
  | "cat" => some (concatenate arguments input)
  | "tr" => some (transliterate arguments input)
  | "sleep" => some (sleep arguments)
  | "true" => some (.success [])
  | "false" => some ⟨[], [], .code 1, 0⟩
  | "echo" => some (echo arguments)
  | "printf" => some (printFormatted arguments)
  | "head" => some (takeHead arguments input)
  | _ => none

end HtmlMinifier.Process

/-
# Scripts

A script is a sequence of pipelines of simple commands, joined by `;`, `&&` and `||`. A simple
command has words and redirections. Words may be quoted. The parameters that are known are the
status of the last pipeline, the process of the script, its name and its arguments; every other one
is empty. Whatever a script says about itself names a line of it, so every piece of a script knows
its line.
-/
import HtmlMinifier.Text.Basic

namespace HtmlMinifier.Process

/-- A part of a word. -/
inductive WordPart where
  | literal (c : Char)
  | lastStatus
  | ownProcess
  | argument (number : Nat)
  | argumentCount
  | allArguments
  deriving DecidableEq, Repr

/-- A word before its parameters are replaced. -/
abbrev Word := List WordPart

/-- What a redirection does to a descriptor. -/
inductive Redirection where
  | toFile (name : Word)
  | fromFile (name : Word)
  | sameAs (descriptor : Word)
  deriving DecidableEq, Repr

/-- A command with its words and its redirections, each with the descriptor that it is about. -/
structure SimpleCommand where
  line : Nat
  words : List Word
  redirections : List (Nat × Redirection)
  deriving DecidableEq, Repr

/-- When a pipeline is run, given the status of the one before it. -/
inductive Joint where
  | always
  | afterSuccess
  | afterFailure
  deriving DecidableEq, Repr

/-- A pipeline, when it is run, and whether its status is turned around. -/
structure ScriptStep where
  joint : Joint
  negated : Bool
  commands : List SimpleCommand
  deriving DecidableEq, Repr

/-- The kinds of redirection as they are written. -/
inductive Arrow where
  | output
  | input
  | duplicate
  deriving DecidableEq, Repr

/-- A lexical piece of a script. -/
inductive Lexeme where
  | word (word : Word)
  | arrow (descriptor : Nat) (kind : Arrow)
  | separator
  | background
  | lineEnd
  | andThen
  | orElse
  | pipe
  deriving DecidableEq, Repr

/-- The characters that end an unquoted word. -/
def endsWord (c : Char) : Bool :=
  c = ' ' || c = '\t' || c = '\n' || c = ';' || c = '&' || c = '|' || c = '<' || c = '>'

/-- The parameter behind a `$`: what it stands for, and the text behind it. -/
def readParameter : Text → Word × Text
  | '$' :: text => ([.ownProcess], text)
  | '?' :: text => ([.lastStatus], text)
  | '#' :: text => ([.argumentCount], text)
  | '@' :: text => ([.allArguments], text)
  | '*' :: text => ([.allArguments], text)
  | c :: text =>
      if c.isAlpha || c = '_' then
        ([], text.dropWhile fun d => d.isAlphanum || d = '_')
      else if c.isDigit then ([.argument (c.toNat - 48)], text)
      else if c = '!' then ([], text)
      else ([.literal '$'], c :: text)
  | [] => ([.literal '$'], [])

/-- How the characters of a word are read. -/
inductive Quoting where
  | none
  | single
  | double
  deriving DecidableEq, Repr

/-- Read a word to its end. A quote that is not closed is no word. -/
def readWord (fuel : Nat) (quoting : Quoting) (text : Text) : Option (Word × Text) :=
  match fuel, quoting, text with
  | _, .none, [] => some ([], [])
  | _, _, [] => none
  | 0, _, _ => none
  | fuel + 1, .single, c :: rest =>
      if c = '\'' then readWord fuel .none rest
      else (readWord fuel .single rest).map fun later => (.literal c :: later.1, later.2)
  | fuel + 1, .double, c :: rest =>
      if c = '"' then readWord fuel .none rest
      else if c = '$' then
        let parameter := readParameter rest
        (readWord fuel .double parameter.2).map fun later => (parameter.1 ++ later.1, later.2)
      else
        match c, rest with
        | '\\', d :: after =>
            if d = '"' || d = '\\' || d = '$' || d = '\x60' then
              (readWord fuel .double after).map fun later => (.literal d :: later.1, later.2)
            else (readWord fuel .double rest).map fun later => (.literal c :: later.1, later.2)
        | _, _ => (readWord fuel .double rest).map fun later => (.literal c :: later.1, later.2)
  | fuel + 1, .none, c :: rest =>
      if endsWord c then some ([], c :: rest)
      else if c = '\'' then readWord fuel .single rest
      else if c = '"' then readWord fuel .double rest
      else if c = '$' then
        let parameter := readParameter rest
        (readWord fuel .none parameter.2).map fun later => (parameter.1 ++ later.1, later.2)
      else
        match c, rest with
        | '\\', d :: after =>
            (readWord fuel .none after).map fun later => (.literal d :: later.1, later.2)
        | _, _ => (readWord fuel .none rest).map fun later => (.literal c :: later.1, later.2)

/-- An arrow behind a descriptor, and the text behind it. -/
def readArrow? : Text → Option (Nat × Arrow × Text)
  | '>' :: '&' :: text => some (1, .duplicate, text)
  | '<' :: '&' :: text => some (0, .duplicate, text)
  | '>' :: '>' :: text => some (1, .output, text)
  | '>' :: '|' :: text => some (1, .output, text)
  | '>' :: text => some (1, .output, text)
  | '<' :: text => some (0, .input, text)
  | _ => none

/-- What is wrong with a script, on one of its lines. -/
structure ScriptError where
  line : Nat
  words : String
  deriving DecidableEq, Repr

/-- The error in words. -/
def ScriptError.message (error : ScriptError) : String :=
  toString error.line ++ ": Syntax error: " ++ error.words

/-- The number of line ends in the part of a text before a rest of it. -/
def lineEndsBefore (text rest : Text) : Nat :=
  (text.take (text.length - rest.length)).count '\n'

/-- Cut a script into lexical pieces with their lines. -/
def lexScript (fuel : Nat) (line : Nat) (text : Text) : Except ScriptError (List (Nat × Lexeme)) :=
  match fuel, text with
  | _, [] => .ok []
  | 0, _ => .ok []
  | fuel + 1, '\n' :: rest => (lexScript fuel (line + 1) rest).map ((line, .lineEnd) :: ·)
  | fuel + 1, '&' :: '&' :: rest => (lexScript fuel line rest).map ((line, .andThen) :: ·)
  | fuel + 1, '|' :: '|' :: rest => (lexScript fuel line rest).map ((line, .orElse) :: ·)
  | fuel + 1, '|' :: rest => (lexScript fuel line rest).map ((line, .pipe) :: ·)
  | fuel + 1, '&' :: rest => (lexScript fuel line rest).map ((line, .background) :: ·)
  | fuel + 1, ';' :: rest => (lexScript fuel line rest).map ((line, .separator) :: ·)
  | fuel + 1, '#' :: rest => lexScript fuel line (rest.dropWhile (· ≠ '\n'))
  | fuel + 1, c :: rest =>
      if c = ' ' || c = '\t' then lexScript fuel line rest
      else
        match readArrow? (c :: rest), c.isDigit, readArrow? rest with
        | some (descriptor, kind, after), _, _ =>
            (lexScript fuel line after).map ((line, .arrow descriptor kind) :: ·)
        | none, true, some (_, kind, after) =>
            (lexScript fuel line after).map ((line, .arrow (c.toNat - 48) kind) :: ·)
        | none, _, _ =>
            match readWord (text.length + 1) .none (c :: rest) with
            | none => .error ⟨line + text.count '\n', "Unterminated quoted string"⟩
            | some (word, after) =>
                let reached := line + lineEndsBefore text after
                (lexScript fuel reached after).map ((reached, .word word) :: ·)

/-- A lexical piece as complaints quote it. -/
def Lexeme.show : Lexeme → String
  | .word _ => "word"
  | .arrow _ .output => "\">\""
  | .arrow _ .input => "\"<\""
  | .arrow _ .duplicate => "\">&\""
  | .separator => "\";\""
  | .background => "\"&\""
  | .lineEnd => "newline"
  | .andThen => "\"&&\""
  | .orElse => "\"||\""
  | .pipe => "\"|\""

/-- The complaint about the first of some lexical pieces. `line` is the line of the piece
before. -/
def unexpected {α : Type} (line : Nat) : List (Nat × Lexeme) → Except ScriptError α
  | [] => .error ⟨line, "end of file unexpected"⟩
  | (line, lexeme) :: _ => .error ⟨line, lexeme.show ++ " unexpected"⟩

/-- A simple command at the head of lexical pieces, and what follows it. -/
def readCommand (fuel : Nat) (line : Nat) (lexemes : List (Nat × Lexeme)) :
    Except ScriptError (SimpleCommand × List (Nat × Lexeme)) :=
  match fuel, lexemes with
  | fuel + 1, (line, .word word) :: rest =>
      (readCommand fuel line rest).map fun later =>
        ({ later.1 with words := word :: later.1.words, line := line }, later.2)
  | fuel + 1, (line, .arrow descriptor kind) :: (_, .word name) :: rest =>
      let redirection := match kind with
        | .output => Redirection.toFile name
        | .input => .fromFile name
        | .duplicate => .sameAs name
      (readCommand fuel line rest).map fun later =>
        ({ later.1 with redirections := (descriptor, redirection) :: later.1.redirections,
                        line := line }, later.2)
  | _, (line, .arrow _ _) :: rest => unexpected line rest
  | _, rest => .ok (⟨line, [], []⟩, rest)

/-- Whether a command has nothing in it. -/
def SimpleCommand.isEmpty (command : SimpleCommand) : Bool :=
  command.words.isEmpty && command.redirections.isEmpty

/-- A pipeline at the head of lexical pieces, and what follows it. -/
def readPipeline (fuel : Nat) (line : Nat) (lexemes : List (Nat × Lexeme)) :
    Except ScriptError (List SimpleCommand × List (Nat × Lexeme)) :=
  match fuel with
  | 0 => unexpected line lexemes
  | fuel + 1 =>
      (readCommand (lexemes.length + 1) line lexemes).bind fun read =>
        if read.1.isEmpty then unexpected line read.2
        else if read.1.words.head? = some [.literal '!'] then
          .error ⟨read.1.line, "\"!\" unexpected"⟩
        else
          match read.2 with
          | (line, .pipe) :: more =>
              (readPipeline fuel line (more.dropWhile (·.2 = .lineEnd))).map fun later =>
                (read.1 :: later.1, later.2)
          | rest => .ok ([read.1], rest)

/-- The steps of a script from lexical pieces. -/
def readSteps (fuel : Nat) (line : Nat) (joint : Joint) (lexemes : List (Nat × Lexeme)) :
    Except ScriptError (List ScriptStep) :=
  match fuel, lexemes with
  | _, [] => if joint = .always then .ok [] else unexpected line []
  | 0, _ => .ok []
  | fuel + 1, (line, .lineEnd) :: rest => readSteps fuel line joint rest
  | fuel + 1, _ =>
      let negated := (lexemes.head?.map (·.2)) = some (.word [.literal '!'])
      let body := if negated then lexemes.tail else lexemes
      (readPipeline (lexemes.length + 1) line body).bind fun read =>
        let later : Except ScriptError (List ScriptStep) :=
          match read.2 with
          | [] => .ok []
          | (line, .separator) :: more => readSteps fuel line .always more
          | (line, .background) :: more => readSteps fuel line .always more
          | (line, .lineEnd) :: more => readSteps fuel line .always more
          | (line, .andThen) :: more => readSteps fuel line .afterSuccess more
          | (line, .orElse) :: more => readSteps fuel line .afterFailure more
          | rest => unexpected line rest
        later.map (⟨joint, negated, read.1⟩ :: ·)

/-- The steps of a script, unless it is malformed. -/
def parseScript (text : Text) : Except ScriptError (List ScriptStep) :=
  (lexScript (text.length + 1) 1 text).bind fun lexemes =>
    readSteps (lexemes.length + 1) 1 .always lexemes

end HtmlMinifier.Process

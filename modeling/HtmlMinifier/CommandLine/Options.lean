/-
# Options of the command line

Words are read from left to right, and the first that asks for the help or the version, or that
breaks a rule, decides. Every option but the one for more log may be given once. An option with a
value takes it from the same word or from the next one, which must not look like an option itself.
After `--` every word is a file name.
-/
import HtmlMinifier.Text.Basic

namespace HtmlMinifier.CommandLine

/-- The options there are. -/
inductive Switch where
  | output
  | config
  | noElide
  | verbose
  | help
  | version
  deriving DecidableEq, Repr

namespace Switch

/-- The option with a long name. -/
def ofLong? (name : Text) : Option Switch :=
  match String.ofList name with
  | "output" => some .output
  | "config" => some .config
  | "no-elide" => some .noElide
  | "verbose" => some .verbose
  | "help" => some .help
  | "version" => some .version
  | _ => none

/-- The option with a short name. -/
def ofShort? : Char → Option Switch
  | 'o' => some .output
  | 'c' => some .config
  | 'v' => some .verbose
  | 'h' => some .help
  | 'V' => some .version
  | _ => none

/-- Whether an option has a value. -/
def takesValue : Switch → Bool
  | .output | .config => true
  | _ => false

end Switch

/-- Why the words of a command line do not lead to a run. -/
inductive Stop where
  | help
  | version
  | usage
  deriving DecidableEq, Repr

/-- What the words of a command line say. -/
structure Options where
  input : Option Text := none
  output : Option Text := none
  config : Option Text := none
  noElide : Bool := false
  verbosity : Nat := 0
  deriving DecidableEq, Repr

namespace Options

/-- Fill in a file name that is not given yet. The empty name names no file. -/
def fill (given : Option Text) (name : Text) : Except Stop (Option Text) :=
  if given.isSome || name = [] then .error .usage else .ok (some name)

/-- A word that is no option: the input file. -/
def addInput (options : Options) (name : Text) : Except Stop Options :=
  (fill options.input name).map fun input => { options with input }

/-- An option with its value. -/
def addValue (options : Options) (switch : Switch) (value : Text) : Except Stop Options :=
  match switch with
  | .output => (fill options.output value).map fun output => { options with output }
  | .config => (fill options.config value).map fun config => { options with config }
  | _ => .error .usage

/-- An option without a value. -/
def addFlag (options : Options) (switch : Switch) : Except Stop Options :=
  match switch with
  | .noElide => if options.noElide then .error .usage else .ok { options with noElide := true }
  | .verbose => .ok { options with verbosity := options.verbosity + 1 }
  | .help => .error .help
  | .version => .error .version
  | _ => .error .usage

/-- The short options of one word, and the one at its end that still waits for a value. -/
def addShorts (options : Options) : Text → Except Stop (Options × Option Switch)
  | [] => .ok (options, none)
  | letter :: letters =>
      match Switch.ofShort? letter with
      | none => .error .usage
      | some switch =>
          if switch.takesValue then
            match letters with
            | [] => .ok (options, some switch)
            | '=' :: value => (options.addValue switch value).map (·, none)
            | value => (options.addValue switch value).map (·, none)
          else (options.addFlag switch).bind fun options => addShorts options letters

/-- The long option of one word, and whether it still waits for a value. -/
def addLong (options : Options) (word : Text) : Except Stop (Options × Option Switch) :=
  match Switch.ofLong? (word.takeWhile (· ≠ '=')), word.dropWhile (· ≠ '=') with
  | none, _ => .error .usage
  | some switch, [] =>
      if switch.takesValue then .ok (options, some switch)
      else (options.addFlag switch).map (·, none)
  | some switch, _ :: value => (options.addValue switch value).map (·, none)

/-- Whether a word is an option by its look. A lone `-` is a file name. -/
def looksLikeOption (word : Text) : Bool := word.head? = some '-' && word ≠ ['-']

/-- Read words after an option that may wait for a value. -/
def addWords (options : Options) (waiting : Option Switch) : List Text → Except Stop Options
  | [] => if waiting.isSome then .error .usage else .ok options
  | word :: words =>
      match waiting with
      | some switch =>
          if looksLikeOption word then .error .usage
          else (options.addValue switch word).bind fun options => addWords options none words
      | none =>
          if word = "--".toList then words.foldlM addInput options
          else if looksLikeOption word then
            match Text.dropFolded? "--".toList word with
            | some name =>
                (options.addLong name).bind fun read => addWords read.1 read.2 words
            | none =>
                (options.addShorts word.tail).bind fun read => addWords read.1 read.2 words
          else (options.addInput word).bind fun options => addWords options none words

/-- The options of a command line. -/
def ofWords (words : List Text) : Except Stop Options := addWords {} none words

/-- Whether the document comes from the standard input. -/
def readsStandardInput (options : Options) : Bool :=
  options.input = none || options.input = some ['-']

end Options

end HtmlMinifier.CommandLine

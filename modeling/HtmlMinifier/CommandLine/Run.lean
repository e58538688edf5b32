/-
# A run of the command line

A run reads its settings, then its document, minifies it, and writes the result. It stops at the
first failure, which becomes the last line on the error stream; the log comes before it. What a run
reads and writes is given to it as a record of actions, so that the same run works on a tree of
files and on the files of a computer.
-/
import HtmlMinifier.CommandLine.Options
import HtmlMinifier.Minifier
import HtmlMinifier.Settings.Load

namespace HtmlMinifier.CommandLine

/-- Why a run fails. -/
inductive Failure where
  | settings (reason : Settings.LoadError)
  | unreadableFile (path : Text) (reason : FileError)
  | unreadableInput (reason : FileError)
  | unwritableFile (path : Text) (reason : FileError)
  | malformedDocument (reason : Canonical.StreamError)
  deriving DecidableEq, Repr

/-- The failure in words. -/
def Failure.message : Failure → String
  | .settings reason => reason.message
  | .unreadableFile path reason => "cannot read " ++ String.ofList path ++ ": " ++ reason.message
  | .unreadableInput reason => "cannot read stdin: " ++ reason.message
  | .unwritableFile path reason => "cannot write " ++ String.ofList path ++ ": " ++ reason.message
  | .malformedDocument reason => "input is not a well-formed document: " ++ reason.message

/-- What a run leaves behind: an exit code and the text on both streams. -/
structure Outcome where
  code : Nat
  output : String := ""
  errors : String := ""
  deriving DecidableEq, Repr

/-- The name and the version of the program. -/
def versionLine : String := "html5small 0.1.0\n"

/-- The usage line. -/
def usageLine : String := "Usage: html5small [OPTIONS] [INPUT]\n"

/-- The help. -/
def helpText : String :=
  "Minify an HTML5 document\n\n" ++ usageLine ++
  "\nArguments:\n" ++
  "  [INPUT]  Input file; reads stdin when omitted or `-`\n" ++
  "\nOptions:\n" ++
  "  -o, --output <OUTPUT>  Output file; writes stdout when omitted\n" ++
  "  -c, --config <CONFIG>  TOML file with minifier settings\n" ++
  "      --no-elide         Keep every optional tag\n" ++
  "  -v, --verbose...       Log more (-v debug, -vv trace)\n" ++
  "  -h, --help             Print help\n" ++
  "  -V, --version          Print version\n"

/-- What is left behind when the words do not lead to a run. -/
def Stop.outcome : Stop → Outcome
  | .help => { code := 0, output := helpText }
  | .version => { code := 0, output := versionLine }
  | .usage => { code := 2, errors := usageLine }

/-- The level of the log that is asked for. -/
def Options.level (options : Options) : Log.Level :=
  match options.verbosity with
  | 0 => .warn
  | 1 => .debug
  | _ => .trace

/-- The actions by which a run touches files and its input. -/
structure Surroundings (m : Type → Type) where
  read : Text → m (Except FileError Bytes)
  write : Text → Bytes → m (Except FileError Unit)
  input : m (Except FileError Bytes)

variable {m : Type → Type} [Monad m]

/-- The settings of a run. Keeping the optional tags wins over the file. -/
def Options.settings (options : Options) (around : Surroundings m) :
    ExceptT Failure m Settings := do
  let settings ← match options.config with
    | none => pure {}
    | some path =>
        let content ← around.read path
        liftExcept ((Settings.ofContent path content).mapError Failure.settings)
  pure (if options.noElide then { settings with elideOptionalTags := false } else settings)
where
  /-- A result that may be a failure. -/
  liftExcept {α : Type} (result : Except Failure α) : ExceptT Failure m α :=
    ExceptT.mk (pure result)

/-- The document of a run. -/
def Options.document (options : Options) (around : Surroundings m) : ExceptT Failure m Text :=
  ExceptT.mk <|
    match options.input with
    | some path =>
        if options.readsStandardInput then fromInput else do
          let content ← around.read path
          pure ((content.bind FileError.decode).mapError (Failure.unreadableFile path))
    | none => fromInput
where
  /-- The document on the standard input. -/
  fromInput : m (Except Failure Text) := do
    let content ← around.input
    pure ((content.bind FileError.decode).mapError Failure.unreadableInput)

/-- Write the result: to the output file as it is, or to the output stream as a line. -/
def Options.deliver (options : Options) (around : Surroundings m) (result : Text) :
    ExceptT Failure m String :=
  ExceptT.mk <|
    match options.output with
    | none => pure (.ok (String.ofList result ++ "\n"))
    | some path => do
        let written ← around.write path (Utf8.encode result)
        pure ((written.mapError (Failure.unwritableFile path)).map fun _ => "")

/-- What is left behind after a log, with the text for the output stream or a failure. -/
def conclude (log : String) : Except Failure String → Outcome
  | .ok output => { code := 0, output, errors := log }
  | .error failure => { code := 1, errors := log ++ "html5small: " ++ failure.message ++ "\n" }

/-- Do what options ask. -/
def Options.run (options : Options) (around : Surroundings m) : m Outcome := do
  let prepared ← (do
    let settings ← options.settings around
    let document ← options.document around
    pure (settings, document) : ExceptT Failure m (Settings × Text)).run
  match prepared with
  | .error failure => pure (conclude "" (.error failure))
  | .ok (settings, document) =>
      let minifier := Minifier.ofSettings settings
      let log := Log.lines options.level (minifier.log document)
      match minifier.minify document with
      | .error reason => pure (conclude log (.error (.malformedDocument reason)))
      | .ok result => (conclude log ·) <$> (options.deliver around result).run

/-- Do what the words of a command line ask. -/
def run (words : List Text) (around : Surroundings m) : m Outcome :=
  match Options.ofWords words with
  | .error stop => pure stop.outcome
  | .ok options => options.run around

/-- The surroundings that a tree of files makes, with some bytes on the standard input. -/
def Surroundings.ofTree (input : Bytes) : Surroundings (StateM FileTree) where
  read path := do pure ((← get).read path)
  write path bytes := do
    match (← get).write path bytes with
    | .ok tree => set tree; pure (.ok ())
    | .error reason => pure (.error reason)
  input := pure (.ok input)

/-- Do what the words of a command line ask in a tree of files, and give the tree afterwards. -/
def runIn (tree : FileTree) (words : List Text) (input : Bytes) : Outcome × FileTree :=
  Id.run ((run words (Surroundings.ofTree input)).run tree)

end HtmlMinifier.CommandLine

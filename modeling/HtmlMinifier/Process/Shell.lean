/-
# Running scripts

A shell runs the steps of a script in order until the script ends or ends itself. Its two output
descriptors may be sent to either stream, to the next command of a pipeline, to nowhere, or be
closed. Every command but the last of a pipeline runs in a copy of the shell that is forgotten
afterwards.
-/
import HtmlMinifier.Process.Locate
import HtmlMinifier.Process.Program
import HtmlMinifier.Process.Script

namespace HtmlMinifier.Process

/-- Where the bytes of a descriptor go. -/
inductive Sink where
  | output
  | errors
  | pipe
  | nowhere
  | closed
  deriving DecidableEq, Repr

/-- A script in progress. -/
structure Shell where
  process : Nat
  name : Text := "sh".toList
  arguments : List Text := []
  line : Nat := 1
  input : Bytes
  output : Bytes := []
  errors : Bytes := []
  piped : Bytes := []
  outSink : Sink := .output
  errSink : Sink := .errors
  status : Nat := 0
  elapsed : Nat := 0
  ended : Option Style.ExitStatus := none

namespace Shell

/-- Send bytes to a sink. -/
def write (shell : Shell) (sink : Sink) (bytes : Bytes) : Shell :=
  match sink with
  | .output => { shell with output := shell.output ++ bytes }
  | .errors => { shell with errors := shell.errors ++ bytes }
  | .pipe => { shell with piped := shell.piped ++ bytes }
  | .nowhere => shell
  | .closed => shell

/-- Complain on the error descriptor and go on with a status. -/
def complain (shell : Shell) (code : Nat) (complaint : String) : Shell :=
  { shell.write shell.errSink (Utf8.encode
      (String.ofList shell.name ++ ": " ++ toString shell.line ++ ": " ++ complaint ++
        "\n").toList) with
    status := code }

/-- A word with its parameters replaced. -/
def expand (shell : Shell) (word : Word) : Text :=
  word.flatMap fun part =>
    match part with
    | .literal c => [c]
    | .lastStatus => Nat.toDigits 10 shell.status
    | .ownProcess => Nat.toDigits 10 shell.process
    | .argument number => (shell.name :: shell.arguments).getD number []
    | .argumentCount => Nat.toDigits 10 shell.arguments.length
    | .allArguments => List.intercalate [' '] shell.arguments

/-- Apply a redirection. A file other than the empty device cannot be read, and what is written to
one is lost. -/
def redirect (shell : Shell) (descriptor : Nat) (redirection : Redirection) : Shell :=
  let set := fun (current : Shell) (sink : Sink) =>
    if descriptor = 1 then { current with outSink := sink }
    else if descriptor = 2 then { current with errSink := sink }
    else if descriptor = 0 then { current with input := [] }
    else current
  match redirection with
  | .toFile _ => set shell .nowhere
  | .fromFile name =>
      let file := shell.expand name
      if file = "/dev/null".toList then { shell with input := [] }
      else
        { shell.complain 2 ("cannot open " ++ String.ofList file ++ ": No such file") with
          ended := if shell.ended.isSome then shell.ended else some (.code 2) }
  | .sameAs name =>
      match String.ofList (shell.expand name) with
      | "1" => set shell shell.outSink
      | "2" => set shell shell.errSink
      | _ => set shell .closed

/-- The number of a signal that is given by number or name. -/
def signalNumber? (shown : Text) : Option Nat :=
  let name := String.ofList shown
  match name.toNat? with
  | some number => some number
  | none =>
      [("HUP", 1), ("INT", 2), ("QUIT", 3), ("ABRT", 6), ("KILL", 9), ("USR1", 10), ("SEGV", 11),
        ("USR2", 12), ("PIPE", 13), ("ALRM", 14), ("TERM", 15)].findSome? fun entry =>
          if name = entry.1 || name = "SIG" ++ entry.1 then some entry.2 else none

/-- Send a signal. Only the script itself can be reached, and signal zero reaches no one. -/
def kill (shell : Shell) (arguments : List Text) : Shell :=
  let parsed : Option Nat × List Text :=
    match arguments with
    | ['-', 's'] :: name :: processes => (signalNumber? name, processes)
    | ('-' :: name) :: processes => (signalNumber? name, processes)
    | processes => (some 15, processes)
  match parsed with
  | (none, _) => shell.complain 2 "kill: Illegal option"
  | (some signal, processes) =>
      if processes.contains (Nat.toDigits 10 shell.process) then
        if signal = 0 then { shell with status := 0 } else
          { shell with ended := some (.signal signal) }
      else shell.complain 1 "kill: No such process"

/-- The complaint of a program that cannot write its output. -/
def writeComplaint (shell : Shell) (program : Text) : String :=
  let name := String.ofList program
  let own := String.ofList shell.name ++ ": " ++ toString shell.line ++ ": "
  match name with
  | "echo" | "printf" => own ++ name ++ ": " ++ name ++ ": I/O error\n"
  | "cat" => "cat: standard output: Bad file descriptor\n"
  | _ => name ++ ": write error: Bad file descriptor\n"

/-- Take in what a finished program has left behind. -/
def absorb (shell : Shell) (program : Text) (report : Report) : Shell :=
  let failed := shell.outSink = .closed && report.output ≠ []
  let errors :=
    if failed then report.errors ++ Utf8.encode (shell.writeComplaint program).toList
    else report.errors
  { (shell.write shell.outSink report.output).write shell.errSink errors with
    status := if failed then 1 else exitCode report.status
    elapsed := shell.elapsed + report.elapsed }

/-- Whether a program reads the input that it shares with the script. -/
def readsInput (name : Text) : Bool :=
  ["cat", "tr", "head", "sh"].contains (String.ofList name)

/-- What runs a script: its name and its arguments, its text and its input. -/
abbrev Runner := List Text → Text → Bytes → Report

/-- Run `sh` with its arguments. `nested` runs a script. Without arguments the input is the
script. -/
def runShell (nested : Runner) (arguments : List Text) (input : Bytes) : Report :=
  match arguments with
  | [] => nested ["sh".toList] ((Utf8.decode? input).getD []) []
  | ['-', 's'] :: more => nested ("sh".toList :: more) ((Utf8.decode? input).getD []) []
  | [['-', 'c']] => .failure 2 "sh: 0: -c requires an argument"
  | ['-', 'c'] :: script :: [] => nested ["sh".toList] script input
  | ['-', 'c'] :: script :: named => nested named script input
  | file :: _ => .failure 2 ("sh: 0: cannot open " ++ String.ofList file ++ ": No such file")

/-- Run a program by name. What cannot be run is complained about after `blame`. -/
def runNamed (nested : Runner) (shell : Shell) (blame : String) (name : Text)
    (arguments : List Text) : Shell × Style.ExitStatus :=
  let refuse := fun (code : Nat) (reason : String) =>
    (shell.complain code (blame ++ String.ofList name ++ reason), Style.ExitStatus.code code)
  match locate name with
  | .forbidden => refuse 126 ": Permission denied"
  | .blocked => refuse 127 ": not found"
  | .nowhere => refuse 127 ": not found"
  | .program found =>
      let drained := if readsInput found then { shell with input := [] } else shell
      let report :=
        if found = "sh".toList then runShell nested arguments shell.input
        else (runProgram? found arguments shell.input).getD (.failure 127 "")
      (drained.absorb found report, report.status)

/-- Run a simple command. Redirections last as long as the command, except those of an `exec`
without a command. -/
def runSimple (nested : Runner) (previous : Shell) (command : SimpleCommand) : Shell :=
  let shell := { previous with line := command.line }
  let redirected := command.redirections.foldl (fun current item => current.redirect item.1
    item.2) shell
  let restore := fun (after : Shell) =>
    let redirectsInput := command.redirections.any fun item => item.1 = 0
    { after with
      outSink := shell.outSink
      errSink := shell.errSink
      input := if redirectsInput then shell.input else after.input }
  if redirected.ended ≠ shell.ended then redirected
  else
    match command.words.map shell.expand with
    | [] => restore { redirected with status := 0 }
    | name :: arguments =>
        match String.ofList name with
        | "exec" =>
            match arguments with
            | [] => { redirected with status := 0 }
            | inner :: more =>
                let ran := redirected.runNamed nested "exec: " inner more
                { restore ran.1 with ended := some ran.2 }
        | "exit" =>
            match arguments with
            | [] => { restore redirected with ended := some (.code shell.status) }
            | shown :: _ =>
                match (String.ofList shown).toNat? with
                | some code => { restore redirected with ended := some (.code (code % 256)) }
                | none =>
                    { restore (redirected.complain 2
                        ("exit: Illegal number: " ++ String.ofList shown)) with
                      ended := some (.code 2) }
        | "kill" => restore (redirected.kill arguments)
        | ":" => restore { redirected with status := 0 }
        | "set" => restore { redirected with status := 0 }
        | "trap" => restore { redirected with status := 0 }
        | "wait" => restore { redirected with status := 0 }
        | _ => restore (redirected.runNamed nested "" name arguments).1

/-- Run the commands of a pipeline. All of them run at the same time, so the longest sets the
time. -/
def runPipeline (nested : Runner) (shell : Shell) : List SimpleCommand → Shell
  | [] => shell
  | [command] => shell.runSimple nested command
  | command :: later =>
      let first := { shell with outSink := .pipe, piped := [] }.runSimple nested command
      let rest := runPipeline nested
        { shell with
          input := first.piped
          output := first.output
          errors := first.errors } later
      { rest with
        input := first.input
        piped := shell.piped ++ rest.piped.drop shell.piped.length
        elapsed := max first.elapsed rest.elapsed
        outSink := shell.outSink
        errSink := shell.errSink
        status := match rest.ended with
          | some status => exitCode status
          | none => rest.status
        ended := none }

/-- Run the steps of a script until one ends it. -/
def runSteps (nested : Runner) (shell : Shell) : List ScriptStep → Shell
  | [] => shell
  | step :: steps =>
      if shell.ended.isSome then shell
      else
        let wanted := match step.joint with
          | .always => true
          | .afterSuccess => shell.status = 0
          | .afterFailure => shell.status ≠ 0
        let ran := if wanted then shell.runPipeline nested step.commands else shell
        let turned :=
          if wanted && step.negated then { ran with status := if ran.status = 0 then 1 else 0 }
          else ran
        runSteps nested turned steps

/-- What a shell leaves behind. -/
def report (shell : Shell) : Report :=
  ⟨shell.output, shell.errors, shell.ended.getD (.code shell.status), shell.elapsed⟩

end Shell

/-- Run a script on its input. Scripts may run scripts to the given depth. -/
def runScript (depth : Nat) (named : List Text) (script : Text) (input : Bytes) : Report :=
  let name := named.headD "sh".toList
  match depth with
  | 0 => .failure 2 "sh: 0: Cannot fork"
  | depth + 1 =>
      match parseScript script with
      | .error reason => .failure 2 (String.ofList name ++ ": " ++ reason.message)
      | .ok steps =>
          let shell : Shell :=
            { process := 100 + depth, name := name, arguments := named.tail, input := input }
          (shell.runSteps (runScript depth) steps).report

end HtmlMinifier.Process

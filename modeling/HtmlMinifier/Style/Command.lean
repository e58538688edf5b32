/-
# Compressing styles with a command

A command is a program with arguments and a limit on its time. It is given the style text as its
input, and its output is the answer, provided that it starts, ends in time, ends well and writes
UTF-8. When more than one of these goes wrong, the first in this order is the one that is reported.

Which programs there are is part of the library: the small programs of `HtmlMinifier.Process` and
the shell that runs scripts over them.
-/
import HtmlMinifier.Process.Shell

namespace HtmlMinifier.Style

/-- A command that compresses style text. The time limit is in milliseconds. -/
structure Command where
  program : Text
  arguments : List Text := []
  timeout : Nat := 2000
  deriving DecidableEq, Repr

/-- The name of the program that a command starts, or why none can be started. -/
def resolveProgram (program : Text) : Except CompressorError Text :=
  if program.contains '\x00' then .error (.cannotStart program .nulByte)
  else
    match Process.locate program with
    | .program name => .ok name
    | .forbidden => .error (.cannotStart program .permissionDenied)
    | .blocked => .error (.cannotStart program .notADirectory)
    | .nowhere => .error (.notFound program)

/-- What a started program leaves behind. -/
def launch (name : Text) (arguments : List Text) (input : Bytes) : Process.Report :=
  if name = "sh".toList then Process.Shell.runShell (Process.runScript 32) arguments input
  else (Process.runProgram? name arguments input).getD (.failure 127 "")

/-- What a report is worth as an answer. -/
def judge (command : Command) (report : Process.Report) : Except CompressorError Text :=
  if command.timeout ≤ report.elapsed then .error (.timeout command.program command.timeout)
  else if report.status ≠ .code 0 then
    .error (.failed command.program report.status
      (Text.trimWhiteSpace (Utf8.decodeLossy report.errors)))
  else
    match Utf8.decode? report.output with
    | some text => .ok text
    | none => .error (.invalidUtf8 command.program)

/-- Compress style text with a command. -/
def Command.compress (command : Command) : Compressor := fun css =>
  match resolveProgram command.program with
  | .error reason => .error reason
  | .ok name =>
      if command.arguments.any fun argument => argument.contains '\x00' then
        .error (.cannotStart command.program .nulByte)
      else judge command (launch name command.arguments (Utf8.encode css))

end HtmlMinifier.Style

/-
# The program

The outer layer of the command line: it hands the words of the command line, the files of the
computer and the standard streams to a run, and prints what the run leaves behind.
-/
import HtmlMinifier.CommandLine.Run

namespace HtmlMinifier.CommandLine

/-- A failure of the operating system as a reason why a file cannot be read or written. -/
def fileError (failure : IO.Error) : FileError :=
  match failure with
  | .noFileOrDirectory .. => .notFound
  | .permissionDenied .. => .permissionDenied
  | .inappropriateType _ 21 _ => .isADirectory
  | .inappropriateType _ _ "not a directory" => .notADirectory
  | other => .other (toString other)

/-- Try an action on files. -/
def attemptFile {α : Type} (action : IO α) : IO (Except FileError α) := do
  match ← action.toBaseIO with
  | .ok value => pure (.ok value)
  | .error failure => pure (.error (fileError failure))

/-- The files of the computer and the standard input. -/
def computer : Surroundings IO where
  read path := attemptFile do
    pure (← IO.FS.readBinFile (String.ofList path)).toList
  write path bytes := attemptFile (IO.FS.writeBinFile (String.ofList path) ⟨bytes.toArray⟩)
  input := attemptFile do
    pure (← (← IO.getStdin).readBinToEnd).toList

end HtmlMinifier.CommandLine

/-- Run the command line. -/
def main (words : List String) : IO UInt32 := do
  let outcome ← HtmlMinifier.CommandLine.run (words.map String.toList)
    HtmlMinifier.CommandLine.computer
  (← IO.getStderr).putStr outcome.errors
  (← IO.getStdout).putStr outcome.output
  pure outcome.code.toUInt32

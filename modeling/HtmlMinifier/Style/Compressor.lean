/-
# Compressors of style text

A compressor answers the text of one `style` element with a shorter one, or fails. A failure is
never fatal: the writer keeps the text as it was and the log says why. The failures here are those
of an outside command: it cannot be started, takes too long, ends badly or writes what is not text.
-/
import HtmlMinifier.Log
import HtmlMinifier.Text.Basic

namespace HtmlMinifier.Style

/-- How a command ended. -/
inductive ExitStatus where
  | code (value : Nat)
  | signal (number : Nat)
  deriving DecidableEq, Repr

/-- The names of the signals that commonly end a command. -/
def signalName : Nat → String
  | 1 => " (SIGHUP)"
  | 2 => " (SIGINT)"
  | 3 => " (SIGQUIT)"
  | 6 => " (SIGABRT)"
  | 9 => " (SIGKILL)"
  | 10 => " (SIGUSR1)"
  | 12 => " (SIGUSR2)"
  | 13 => " (SIGPIPE)"
  | 14 => " (SIGALRM)"
  | 15 => " (SIGTERM)"
  | _ => ""

/-- The status as messages show it. -/
def ExitStatus.describe : ExitStatus → String
  | .code value => "exit status: " ++ toString value
  | .signal number => "signal: " ++ toString number ++ signalName number

/-- Why a command could not be started at all. -/
inductive StartFailure where
  | permissionDenied
  | notADirectory
  | nulByte
  deriving DecidableEq, Repr

/-- The operating system's words for the failure. -/
def StartFailure.message : StartFailure → String
  | .permissionDenied => "Permission denied (os error 13)"
  | .notADirectory => "Not a directory (os error 20)"
  | .nulByte => "nul byte found in provided data"

/-- Why a compressor has no answer. The time limit is in milliseconds. -/
inductive CompressorError where
  | notFound (program : Text)
  | cannotStart (program : Text) (reason : StartFailure)
  | brokenPipe (program : Text) (reason : String)
  | timeout (program : Text) (limit : Nat)
  | failed (program : Text) (status : ExitStatus) (errorOutput : Text)
  | invalidUtf8 (program : Text)
  deriving DecidableEq, Repr

/-- The decimal digits of `value` below one, out of `places`, without trailing zeros. -/
def fractionDigits (value places : Nat) : String :=
  let digits := (Nat.toDigits 10 value)
  let padded := List.replicate (places - digits.length) '0' ++ digits
  String.ofList (padded.reverse.dropWhile (· = '0')).reverse

/-- A time in milliseconds in the largest unit of which it is at least one: seconds with as many
decimals as it takes, milliseconds, or none at all as nanoseconds. -/
def describeTime (milliseconds : Nat) : String :=
  if milliseconds = 0 then "0ns"
  else if milliseconds < 1000 then toString milliseconds ++ "ms"
  else if milliseconds % 1000 = 0 then toString (milliseconds / 1000) ++ "s"
  else toString (milliseconds / 1000) ++ "." ++ fractionDigits (milliseconds % 1000) 3 ++ "s"

/-- The program that the error is about. -/
def CompressorError.program : CompressorError → Text
  | .notFound program => program
  | .cannotStart program _ => program
  | .brokenPipe program _ => program
  | .timeout program _ => program
  | .failed program _ _ => program
  | .invalidUtf8 program => program

/-- The program's name in backquotes, as every message quotes it. -/
def quoted (program : Text) : String := "`" ++ String.ofList program ++ "`"

/-- The error in words. -/
def CompressorError.message : CompressorError → String
  | .notFound program => "CSS compressor " ++ quoted program ++ " not found"
  | .cannotStart program reason =>
      "failed to start CSS compressor " ++ quoted program ++ ": " ++ reason.message
  | .brokenPipe program reason =>
      "I/O error while talking to CSS compressor " ++ quoted program ++ ": " ++ reason
  | .timeout program limit =>
      "CSS compressor " ++ quoted program ++ " did not finish within " ++ describeTime limit
  | .failed program status errorOutput =>
      "CSS compressor " ++ quoted program ++ " failed (" ++ status.describe ++ "): " ++
        String.ofList errorOutput
  | .invalidUtf8 program =>
      "CSS compressor " ++ quoted program ++ " produced output that is not UTF-8"

/-- A compressor of style text. -/
abbrev Compressor := Text → Except CompressorError Text

/-- What the log says about an answer to style text. A command that runs out of time is killed, and
that is reported first. -/
def answerLog (given : Text) : Except CompressorError Text → List Log.Entry
  | .ok compressed =>
      [⟨.trace, "minify.css",
        "style compressed " ++ toString (Text.utf8Length given) ++ " -> " ++
          toString (Text.utf8Length compressed) ++ " bytes"⟩]
  | .error reason =>
      let kept : Log.Entry :=
        ⟨.warn, "minify.css", "keeping original <style> text: " ++ reason.message⟩
      match reason with
      | .timeout program limit =>
          [⟨.trace, "minify.css", "killing " ++ quoted program ++ " after " ++ describeTime limit⟩,
            kept]
      | _ => [kept]

end HtmlMinifier.Style

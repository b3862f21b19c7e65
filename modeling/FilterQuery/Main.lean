/-
FilterQuery.Main — the program.

The program is `CommandLine.run` with the real standard input and real
files. Of what the log variable may say, a single level is understood.
-/
import FilterQuery.CommandLine

namespace FilterQuery

open CommandLine (FileError)

/-- The number of a system error; some reads give it negated, in 32 bits. -/
def errorNumber (n : UInt32) : Nat :=
  if n.toNat < 2147483648 then n.toNat else 4294967296 - n.toNat

/-- The system's words for an error, and the given ones for a number that
is not listed. -/
def errorWords (number : Nat) (given : String) : String :=
  match number with
  | 2 => "No such file or directory"
  | 5 => "Input/output error"
  | 13 => "Permission denied"
  | 20 => "Not a directory"
  | 21 => "Is a directory"
  | 36 => "File name too long"
  | 40 => "Too many levels of symbolic links"
  | _ => given

/-- An error of the system. -/
def systemError (n : UInt32) (given : String) : FileError :=
  .system (errorWords (errorNumber n) given) (errorNumber n)

/-- Why a read failed. -/
def fileError : IO.Error → FileError
  | .alreadyExists _ n words | .otherError n words | .resourceBusy n words
  | .resourceVanished n words | .unsupportedOperation n words | .hardwareFault n words
  | .unsatisfiedConstraints n words | .illegalOperation n words | .protocolError n words
  | .timeExpired n words | .interrupted _ n words | .noFileOrDirectory _ n words
  | .invalidArgument _ n words | .permissionDenied _ n words | .resourceExhausted _ n words
  | .inappropriateType _ n words | .noSuchThing _ n words => systemError n words
  | .unexpectedEof => systemError 5 ""
  | .userError words => systemError 5 words

/-- The text that some bytes hold. -/
def textOfBytes (bytes : ByteArray) : Except FileError String :=
  match String.fromUTF8? bytes with
  | some text => .ok text
  | none => .error .notText

/-- A text read, or why it cannot be. -/
def reading (read : IO ByteArray) : IO (Except FileError String) := do
  try
    return textOfBytes (← read)
  catch e => return .error (fileError e)

/-- The words for how many levels are shown. -/
def levelWords : List String := ["off", "error", "warn", "info", "debug", "trace"]

/-- The notes that a word asks for: all up to a level. A word that is none of
these is passed over. -/
def shownNotes (word : Option String) : LogEvent → Bool :=
  match word.bind fun w => levelWords.idxOf? w.toLower with
  | some rank => fun e => e.level.rank ≤ rank
  | none => LogEvent.upTo .warn

/-- The real standard input and real files, and a log that is asked for in a
variable of the system. -/
def systemEnvironment (terminal : Bool) (log : Option String) : CommandLine.Environment IO where
  standardInput := reading do (← IO.getStdin).readBinToEnd
  fileText path := reading (IO.FS.readBinFile path)
  terminal := terminal
  shows := shownNotes log

end FilterQuery

/-- Run the program on its command line. -/
def main (args : List String) : IO UInt32 := do
  let terminal ← (← IO.getStdin).isTty
  let log ← IO.getEnv "RUST_LOG"
  let result ← FilterQuery.CommandLine.run (FilterQuery.systemEnvironment terminal log) args
  IO.print result.stdout
  IO.eprint result.stderr
  return result.exitCode.toUInt32

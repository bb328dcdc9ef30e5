/-!
# What can go wrong

Scanning never fails.  A run can fail because it was asked for something that does not exist, a
named file cannot be read, the input breaks, or the output is refused.  Each failure holds its
cause; the wording is in the functions `message` alone.
-/

namespace TokenStream

/-- Said of bytes that were to be text. -/
def notTextMessage : String := "stream did not contain valid UTF-8"

/-- Why a named file cannot be read as text. -/
inductive FileFault where
  | notFound
  /-- Something on the way is no directory. -/
  | notADirectory
  /-- What was found is no file. -/
  | isADirectory
  | nameTooLong
  /-- No name contains the character zero. -/
  | nulInName
  | notText
  /-- Any other fault, in the words in which it was reported. -/
  | reported (text : String)
  deriving DecidableEq, Repr

namespace FileFault

/-- Faults of the system are told in its words, with its number for them. -/
def message : FileFault → String
  | notFound => "No such file or directory (os error 2)"
  | notADirectory => "Not a directory (os error 20)"
  | isADirectory => "Is a directory (os error 21)"
  | nameTooLong => "File name too long (os error 36)"
  | nulInName => "file name contained an unexpected NUL byte"
  | notText => notTextMessage
  | reported text => text

end FileFault

/-- Why a line of input cannot be read. -/
inductive InputFault where
  | notText
  | reported (text : String)
  deriving DecidableEq, Repr

namespace InputFault

/-- A reported fault speaks for itself. -/
def message : InputFault → String
  | notText => notTextMessage
  | reported text => text

end InputFault

/-- Why output is refused. -/
inductive OutputFault where
  | closed
  /-- Not even one byte more is taken. -/
  | nothingAccepted
  | flushFailed
  | reported (text : String)
  deriving DecidableEq, Repr

namespace OutputFault

/-- A reported fault speaks for itself. -/
def message : OutputFault → String
  | closed => "closed"
  | nothingAccepted => "failed to write whole buffer"
  | flushFailed => "flush failed"
  | reported text => text

end OutputFault

/-- Why an argument list is refused. -/
inductive UsageFault where
  /-- The session does not know this option. -/
  | unknownOption (argument : String)
  /-- No file was named. -/
  | missingPath
  /-- More was named than one file. -/
  | unexpectedArgument (argument : String)
  | unknownCommand (argument : String)
  deriving DecidableEq, Repr

namespace UsageFault

/-- An argument is quoted as it was given. -/
def message : UsageFault → String
  | unknownOption argument => "unknown repl option '" ++ argument ++ "'"
  | missingPath => "missing file path for 'lex'"
  | unexpectedArgument argument => "unexpected argument '" ++ argument ++ "' for 'lex'"
  | unknownCommand argument => "unknown command '" ++ argument ++ "'"

end UsageFault

/-- Why a run ended without success. -/
inductive Failure where
  | file (path : String) (fault : FileFault)
  | input (fault : InputFault)
  | output (fault : OutputFault)
  | usage (fault : UsageFault)
  deriving DecidableEq, Repr

namespace Failure

/-- All but a usage fault say what was being done. -/
def message : Failure → String
  | file path fault => "failed to read '" ++ path ++ "': " ++ fault.message
  | input fault => "failed to read input: " ++ fault.message
  | output fault => "failed to write output: " ++ fault.message
  | usage fault => fault.message

/-- The exit code is the same for every failure. -/
def exitCode (_ : Failure) : Nat := 1

/-- Only a usage fault calls for the usage text. -/
def isUsage : Failure → Bool
  | usage _ => true
  | _ => false

end Failure

end TokenStream

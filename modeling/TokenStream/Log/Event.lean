import TokenStream.Token.Lexeme

/-!
# What is logged

The log of a run is a list of entries in the order in which things happened: events, each with a
level, a target, a message and numbers, and the scope that surrounds the listing of a file.  How
a log is filtered and shown is another matter; an entry holds all that is known.
-/

namespace TokenStream

/-- How important an entry of the log is, the most important first. -/
inductive Level where
  | error
  | warn
  | info
  | debug
  | trace
  deriving DecidableEq, Repr

namespace Level

/-- The detail that a level stands for: the more detail, the less important. -/
def detail : Level → Nat
  | error => 0
  | warn => 1
  | info => 2
  | debug => 3
  | trace => 4

/-- A level is shown in capitals. -/
def name : Level → String
  | error => "ERROR"
  | warn => "WARN"
  | info => "INFO"
  | debug => "DEBUG"
  | trace => "TRACE"

end Level

/-- Something that happened. -/
inductive Event where
  /-- A byte was met that belongs to no token. -/
  | illegalByte (byte : UInt8) (position : Nat)
  /-- The tokens of one line of a session have been written. -/
  | scannedLine (tokens : Nat)
  /-- A session has met the end of its input. -/
  | inputExhausted
  /-- The tokens of a file have been written. -/
  | scannedFile (bytes tokens : Nat)
  deriving DecidableEq, Repr

namespace Event

/-- A single byte is worth tracing only; the rest is for debugging. -/
def level : Event → Level
  | illegalByte .. => .trace
  | scannedLine _ | inputExhausted | scannedFile .. => .debug

/-- The part of the program that an event comes from. -/
def target : Event → String
  | illegalByte .. => "monkey_lexer::scanner"
  | scannedLine _ | inputExhausted => "monkeyc::repl"
  | scannedFile .. => "monkeyc::commands::lex"

/-- The message of an event, without its numbers. -/
def message : Event → String
  | illegalByte .. => "illegal byte"
  | scannedLine _ => "scanned line"
  | inputExhausted => "input exhausted"
  | scannedFile .. => "scanned file"

/-- The numbers of an event under their names, in the order in which they are shown. -/
def fields : Event → List (String × Nat)
  | illegalByte byte position => [("byte", byte.toNat), ("position", position)]
  | scannedLine tokens => [("tokens", tokens)]
  | inputExhausted => []
  | scannedFile bytes tokens => [("bytes", bytes), ("tokens", tokens)]

end Event

/-- The scope of the listing of one file. -/
structure Scope where
  path : String
  deriving DecidableEq, Repr

namespace Scope

/-- What a scope is called. -/
def name : String := "lex_file"

/-- A scope is shown where events of this level are. -/
def level : Level := .debug

/-- The part of the program that a scope comes from. -/
def target : String := "monkeyc::commands::lex"

end Scope

/-- An entry of the log. -/
inductive Entry where
  | event (e : Event)
  /-- The scope of a file begins. -/
  | opened (scope : Scope)
  /-- What follows lies in the scope. -/
  | entered
  /-- What follows lies outside again. -/
  | left
  deriving DecidableEq, Repr

/-- What scanning a lexeme of a text logs: an illegal byte with its offset, and nothing for any
other token. -/
def Lexeme.events (source : String) (lexeme : Lexeme) : List Event :=
  if lexeme.token.kind == .illegal then
    [.illegalByte (Text.byteAt source lexeme.span.start) lexeme.span.start]
  else []

end TokenStream

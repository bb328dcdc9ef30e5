import TokenStream.Report

/-!
# The command line

Carries out scripts on the streams of the process.  A session is held line by line, so that its
answers appear as the lines come in; what it does is what `Session` says of each line.
-/

namespace TokenStream

/-- The streams of a process and what it shows of its log. -/
structure Terminal where
  input : IO.FS.Stream
  output : IO.FS.Stream
  remarks : IO.FS.Stream
  filter : Option Filter
  inScope : IO.Ref Bool

namespace Terminal

/-- Shows an entry of the log, if it is to be shown. -/
def record (t : Terminal) (entry : Entry) : IO Unit := do
  match t.filter with
  | none => return
  | some filter =>
    let inScope ← t.inScope.get
    t.remarks.putStr (Log.line filter inScope entry)
    t.inScope.set (Log.inScopeAfter filter inScope entry)

/-- Carries out one action; yields what is wrong if it fails. -/
def attempt (t : Terminal) : Action → IO (Option OutputFault)
  | .record entry => do
    t.record entry
    return none
  | .write text => guarded (t.output.write text.toUTF8)
  | .flush => guarded t.output.flush
where
  guarded (act : IO Unit) : IO (Option OutputFault) := do
    try
      act
      return none
    catch e => return some (.reported (toString e))

/-- Carries out actions up to the first that fails. -/
def perform (t : Terminal) : List Action → IO (Option OutputFault)
  | [] => return none
  | action :: rest => do
    match ← t.attempt action with
    | some fault => return some fault
    | none => t.perform rest

/-- Carries out a script, and sees to it that nothing written is held back. -/
def carryOut {α : Type} (t : Terminal) (script : Script α) : IO (Except Failure α) := do
  let fault ← t.perform (script.actions ++ [.flush])
  for entry in script.closing do
    t.record entry
  match fault with
  | some fault => return .error (.output fault)
  | none => return script.outcome

/-- The bytes of the input up to and including the next line feed. -/
partial def readPiece (t : Terminal) (before : List UInt8 := []) : IO (List UInt8) := do
  match (← t.input.read 1).data.toList with
  | [] => return before.reverse
  | b :: _ =>
    if b == Input.lineFeed then return (b :: before).reverse
    else t.readPiece (b :: before)

/-- Holds a session, line by line until the input ends. -/
partial def converse (t : Terminal) (prompt : String) : IO (Except Failure Unit) := do
  if let some fault ← t.perform (Session.opening prompt) then
    return .error (.output fault)
  try
    let piece ← t.readPiece
    if piece.isEmpty then return (← t.carryOut (Session.ending none))
    match Text.ofBytes? piece with
    | none => return .error (.input .notText)
    | some line =>
      if let some fault ← t.perform (Session.answer line) then
        return .error (.output fault)
  catch e => return .error (.input (.reported (toString e)))
  t.converse prompt

/-- What is wrong with a file, given the error of the system. -/
def faultOf (e : IO.Error) : FileFault :=
  match e with
  | .noFileOrDirectory .. => .notFound
  | .inappropriateType _ code _ => if isCode code 20 then .notADirectory else .isADirectory
  | .invalidArgument _ code _ => if isCode code 36 then .nameTooLong else other
  | _ => other
where
  other : FileFault := .reported (toString e)
  isCode (code expected : UInt32) : Bool := code == expected || code == 0 - expected

/-- Reads a file as text. -/
def read (path : String) : IO (Except FileFault String) := do
  try
    match Text.ofBytes? (← IO.FS.readBinFile path).data.toList with
    | some text => return .ok text
    | none => return .error .notText
  catch e => return .error (faultOf e)

/-- Does what a command asks for. -/
def obey (t : Terminal) (command : Command) : IO (Except Failure Unit) := do
  match command with
  | .session prompt => t.converse prompt
  | .listFile path =>
    let content ← read path
    t.carryOut (command.script (fun _ => content) { bytes := [] })
  | .help | .version => t.carryOut (command.script (fun _ => .error .notFound) { bytes := [] })

end Terminal

end TokenStream

open TokenStream in
def main (arguments : List String) : IO UInt32 := do
  let filter := (← IO.getEnv "RUST_LOG").map Filter.ofText
  let terminal : Terminal :=
    { input := ← IO.getStdin, output := ← IO.getStdout, remarks := ← IO.getStderr
      filter, inScope := ← IO.mkRef false }
  let prompt ← IO.getEnv Command.promptVariable
  let result ←
    match Command.ofArguments prompt arguments with
    | .error fault => pure (.error (.usage fault))
    | .ok command => terminal.obey command
  match result with
  | .ok () => return 0
  | .error failure =>
    terminal.remarks.putStr (Report.complaint failure)
    return failure.exitCode.toUInt32

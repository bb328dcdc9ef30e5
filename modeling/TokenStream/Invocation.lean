import TokenStream.Session

/-!
# What a run is asked for

The arguments of a run name a command.  Only the session takes options, any number of prompts of
which the last counts; the prompt of the environment stands in where no option gives one.  The
first argument that fits nowhere is the one that is reported.
-/

namespace TokenStream

/-- What a run is asked to do. -/
inductive Command where
  /-- List the tokens of each line of the input. -/
  | session (prompt : String)
  /-- List the tokens of a file. -/
  | listFile (path : String)
  | help
  | version
  deriving DecidableEq, Repr

namespace Command

/-- The environment variable that holds a prompt. -/
def promptVariable : String := "MONKEY_PROMPT"

/-- The prompt that the environment holds.  A value that is no text counts as none. -/
def environmentPrompt (value : Option (List UInt8)) : Option String := value.bind Text.ofBytes?

/-- What an option of the session begins with; the rest of it is the prompt. -/
def promptOption : String := "--prompt="

/-- The prompt that the options of a session choose, beginning from `prompt`. -/
def promptFrom (prompt : String) : List String → Except UsageFault String
  | [] => .ok prompt
  | option :: rest =>
    match Text.after? promptOption option with
    | some chosen => promptFrom chosen rest
    | none => .error (.unknownOption option)

/-- The command that an argument list asks for, given the prompt of the environment. -/
def ofArguments (environmentPrompt : Option String) : List String → Except UsageFault Command
  | [] => .ok (.session (environmentPrompt.getD Session.defaultPrompt))
  | "repl" :: options =>
    (promptFrom (environmentPrompt.getD Session.defaultPrompt) options).map .session
  | "lex" :: [] => .error .missingPath
  | "lex" :: [path] => .ok (.listFile path)
  | "lex" :: _ :: extra :: _ => .error (.unexpectedArgument extra)
  | "help" :: _ | "--help" :: _ | "-h" :: _ => .ok .help
  | "version" :: _ | "--version" :: _ | "-V" :: _ => .ok .version
  | other :: _ => .error (.unknownCommand other)

/-- How to ask. -/
def usage : String :=
  String.intercalate "\n"
    ["Usage: monkey [command]",
      "",
      "Commands:",
      "  repl [--prompt=<s>]   Print the tokens of each line read from stdin (default)",
      "  lex <file>            Print the tokens of a file",
      "  help                  Show this message",
      "  version               Show the version",
      "",
      "Environment:",
      "  MONKEY_PROMPT         Prompt for the repl (default \">> \")",
      "  RUST_LOG              Log filter, e.g. monkey_lexer=trace"]

/-- The name of the program and its version. -/
def versionLine : String := "monkey 0.1.0\n"

/-- A way to read a file as text. -/
abbrev FileReader := String → Except FileFault String

/-- What a command does with the given files and input. -/
def script (command : Command) (files : FileReader) (input : Input) : Script Unit :=
  match command with
  | .session prompt => Session.script prompt input
  | .listFile path => (FileListing.script path (files path)).map fun _ => ()
  | .help => { actions := [.write (usage ++ "\n")], outcome := .ok () }
  | .version => { actions := [.write versionLine], outcome := .ok () }

end Command

/-- All that a run is given from outside, its sink apart. -/
structure Invocation where
  arguments : List String
  /-- The prompt set in the environment. -/
  environmentPrompt : Option String := none
  files : Command.FileReader
  input : Input

namespace Invocation

/-- The command asked for, or what is wrong with the arguments. -/
def command (i : Invocation) : Except UsageFault Command :=
  Command.ofArguments i.environmentPrompt i.arguments

/-- The script of a run; a run that asks for nothing known does nothing. -/
def script (i : Invocation) : Script Unit :=
  match i.command with
  | .error fault => .fail (.usage fault)
  | .ok command => command.script i.files i.input

end Invocation

end TokenStream

import TokenStream.Listing

/-!
# Sessions

A session prompts for a line, reads it, lists its tokens, and so on until the input ends.  No
line depends on the lines before it.  The input is cut into pieces behind every line feed; a
piece that is no text ends the session, and so does an input that breaks off.
-/

namespace TokenStream

/-- Input of a session: bytes, and then either the end or a failure with the given text. -/
structure Input where
  bytes : List UInt8
  failure : Option String := none
  deriving DecidableEq, Repr

namespace Input

/-- The byte that ends a line. -/
def lineFeed : UInt8 := '\n'.toUInt8

/-- Cuts bytes behind every line feed.  The last piece may lack one; no piece is empty. -/
def splitLines : List UInt8 → List (List UInt8)
  | [] => []
  | b :: rest =>
    if b == lineFeed then [b] :: splitLines rest
    else
      match splitLines rest with
      | [] => [[b]]
      | piece :: pieces => (b :: piece) :: pieces

/-- The pieces of an input that can be read.  Where the input breaks off, an incomplete last piece
is lost. -/
def pieces (input : Input) : List (List UInt8) :=
  let all := splitLines input.bytes
  match input.failure with
  | none => all
  | some _ => all.filter fun piece => piece.getLast? == some lineFeed

end Input

namespace Session

/-- Shown before a line is read, unless another prompt is asked for. -/
def defaultPrompt : String := ">> "

/-- What comes before a line is read: the prompt, shown at once. -/
def opening (prompt : String) : List Action := [.write prompt, .flush]

/-- A line without the carriage returns and line feeds at its end. -/
def content (line : String) : String :=
  String.ofList (line.toList.reverse.dropWhile fun c => c == '\n' || c == '\r').reverse

/-- What a line is answered with: its tokens. -/
def answer (line : String) : List Action :=
  let source := content line
  Listing.actions "" source ++ [.log (.scannedLine (Listing.count source))]

/-- The end of a session whose input has no further piece. -/
def ending (failure : Option String) : Script Unit :=
  match failure with
  | none => { actions := [.log .inputExhausted], outcome := .ok () }
  | some text => .fail (.input (.reported text))

/-- A session over the pieces of an input and what comes after them. -/
def converse (prompt : String) (failure : Option String) : List (List UInt8) → Script Unit
  | [] => .after (opening prompt) (ending failure)
  | piece :: rest =>
    .after (opening prompt) <|
      match Text.ofBytes? piece with
      | none => .fail (.input .notText)
      | some line => .after (answer line) (converse prompt failure rest)

/-- A session over an input. -/
def script (prompt : String) (input : Input) : Script Unit :=
  converse prompt input.failure input.pieces

end Session

end TokenStream

import TokenStream.Run.Script

/-!
# Listing the tokens of a text

A listing scans one token, logs it if it is illegal, writes it on a line of its own, and goes on
to the next; so a listing that is cut short has scanned no further than the line that failed.
-/

namespace TokenStream

namespace Listing

/-- Scanning and writing one lexeme of a text. -/
def line (indent source : String) (lexeme : Lexeme) : List Action :=
  (lexeme.events source).map Action.log ++ [.write (indent ++ lexeme.token.display ++ "\n")]

/-- Scanning and writing all tokens of a text, each on a line that begins with `indent`. -/
def actions (indent source : String) : List Action :=
  (lexemes source).flatMap (line indent source)

/-- The number of tokens of a text. -/
def count (source : String) : Nat := (lexemes source).length

/-- Writes the tokens of a text and yields their number. -/
def script (source : String) : Script Nat :=
  { actions := actions "" source, outcome := .ok (count source) }

end Listing

namespace FileListing

/-- Said above the tokens of a file. -/
def header (path : String) : String := "Tokens for '" ++ path ++ "':\n"

/-- Said below them. -/
def summary (count : Nat) : String := toString count ++ " tokens\n"

/-- Writes the tokens of a file between a header and their number, given what reading the file has
brought.  All of it happens within a scope of the log, which reading the file belongs to. -/
def script (path : String) (content : Except FileFault String) : Script Nat :=
  let scope : List Action := [.record (.opened ⟨path⟩), .record .entered]
  match content with
  | .error fault =>
    { actions := scope, outcome := .error (.file path fault), closing := [.left] }
  | .ok source =>
    let count := Listing.count source
    { actions := scope ++ [.write (header path)] ++ Listing.actions "  " source
        ++ [.write (summary count), .log (.scannedFile source.utf8ByteSize count)]
      outcome := .ok count
      closing := [.left] }

end FileListing

end TokenStream

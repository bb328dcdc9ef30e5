import TokenStream.Token.Kind

/-!
# Tokens and reserved words

A token is a kind and the text it was read from.  Words are told from reserved words by exact
comparison with the entries of `Keyword.table`.
-/

namespace TokenStream

/-- A kind together with the text of the token. -/
structure Token where
  kind : Kind
  text : String
  deriving DecidableEq, Repr

namespace Keyword

/-- The reserved words and their kinds. -/
def table : List (String × Kind) := [("fn", .keywordFn), ("let", .keywordLet)]

/-- The kind of a reserved word; none for any other text. -/
def find? (text : String) : Option Kind :=
  (table.find? fun entry => entry.1 == text).map Prod.snd

/-- The kind of a word: that of the reserved word it spells, or an identifier. -/
def resolve (text : String) : Kind := (find? text).getD .ident

end Keyword

namespace Token

/-- What follows the last token of a text. -/
def endOfInput : Token := ⟨.endOfInput, ""⟩

/-- The kind alone marks the end of the input, whatever the text. -/
def isEndOfInput (token : Token) : Bool := token.kind == .endOfInput

/-- A run of letters: a reserved word or an identifier. -/
def word (text : String) : Token := ⟨Keyword.resolve text, text⟩

/-- A byte that belongs to no other token, shown as the character with its value as code point. -/
def illegal (byte : UInt8) : Token := ⟨.illegal, String.singleton (Char.ofUInt8 byte)⟩

/-- A token shows its kind and its text, the text as it is. -/
def display (token : Token) : String :=
  "\x7bType:" ++ token.kind.name ++ " Literal:" ++ token.text ++ "\x7d"

instance : ToString Token := ⟨display⟩

end Token

end TokenStream

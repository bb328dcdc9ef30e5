/-!
# Kinds of token

The kinds in their fixed order, with the spelling of those that are always written alike.  A kind
is shown by its name: its spelling if it is a symbol, and a word in capitals otherwise.
-/

namespace TokenStream

/-- What a token is. -/
inductive Kind where
  | illegal
  | endOfInput
  | ident
  | int
  | assign
  | plus
  | minus
  | bang
  | asterisk
  | slash
  | lessThan
  | greaterThan
  | equal
  | notEqual
  | comma
  | semicolon
  | leftParen
  | rightParen
  | leftBrace
  | rightBrace
  | keywordFn
  | keywordLet
  deriving DecidableEq, Repr

namespace Kind

/-- Every kind once, in order. -/
def all : List Kind :=
  [illegal, endOfInput, ident, int, assign, plus, minus, bang, asterisk, slash, lessThan,
    greaterThan, equal, notEqual, comma, semicolon, leftParen, rightParen, leftBrace, rightBrace,
    keywordFn, keywordLet]

/-- The one spelling of a kind, if it has only one. -/
def spelling? : Kind → Option String
  | illegal | endOfInput | ident | int => none
  | assign => some "="
  | plus => some "+"
  | minus => some "-"
  | bang => some "!"
  | asterisk => some "*"
  | slash => some "/"
  | lessThan => some "<"
  | greaterThan => some ">"
  | equal => some "=="
  | notEqual => some "!="
  | comma => some ","
  | semicolon => some ";"
  | leftParen => some "("
  | rightParen => some ")"
  | leftBrace => some "\x7b"
  | rightBrace => some "\x7d"
  | keywordFn => some "fn"
  | keywordLet => some "let"

/-- A symbol is named by its spelling, any other kind by a word in capitals. -/
def name : Kind → String
  | illegal => "ILLEGAL"
  | endOfInput => "EOF"
  | ident => "IDENT"
  | int => "INT"
  | keywordFn => "FUNCTION"
  | keywordLet => "LET"
  | assign => "="
  | plus => "+"
  | minus => "-"
  | bang => "!"
  | asterisk => "*"
  | slash => "/"
  | lessThan => "<"
  | greaterThan => ">"
  | equal => "=="
  | notEqual => "!="
  | comma => ","
  | semicolon => ";"
  | leftParen => "("
  | rightParen => ")"
  | leftBrace => "\x7b"
  | rightBrace => "\x7d"

instance : ToString Kind := ⟨name⟩

/-- The kinds of reserved words. -/
def isKeyword : Kind → Bool
  | keywordFn | keywordLet => true
  | _ => false

theorem mem_all (kind : Kind) : kind ∈ all := by cases kind <;> decide

/-- Kinds are told apart by their names. -/
theorem name_injective {a b : Kind} (h : a.name = b.name) : a = b := by
  revert h
  cases a <;> cases b <;> decide

end Kind

end TokenStream

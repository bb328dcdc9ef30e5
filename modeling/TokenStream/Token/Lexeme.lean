import TokenStream.Text.Cursor
import TokenStream.Token.Alphabet
import TokenStream.Token.Basic

/-!
# The tokens of a text

A pull at a cursor skips blanks and then reads one token:

* a symbol, two bytes wide where the second is an equals sign that belongs to it;
* a word, the longest run of letters;
* a number, the longest run of digits;
* else a single illegal byte.

If only blanks remain, the pull yields nothing and leaves the cursor behind them.  Every token is
at least one byte wide (`position_lt_readToken`), so pulling comes to an end, and the tokens of a
text are what can be pulled from its beginning on.
-/

namespace TokenStream

/-- A token and the bytes of the text that it was read from. -/
structure Lexeme where
  token : Token
  span : Span
  deriving DecidableEq, Repr

namespace Cursor

/-! ## One token -/

/-- The cursor behind the blanks that it stands on. -/
def skipBlanks (c : Cursor) : Cursor := (c.eatWhile isBlank).2

/-- The token at a cursor that stands neither on a blank nor at the end, and the cursor behind
it. -/
def readToken (c : Cursor) : Token × Cursor :=
  match Kind.symbol? c.current c.peek with
  | some (kind, width) =>
    let (text, after) := c.take width
    (⟨kind, text⟩, after)
  | none =>
    if isLetter c.current then
      let (text, after) := c.eatWhile isLetter
      (Token.word text, after)
    else if isDigit c.current then
      let (text, after) := c.eatWhile isDigit
      (⟨.int, text⟩, after)
    else
      (Token.illegal c.current, c.advance)

@[simp]
theorem source_skipBlanks (c : Cursor) : c.skipBlanks.source = c.source := rfl

theorem position_le_skipBlanks (c : Cursor) : c.position ≤ c.skipBlanks.position := by
  rw [skipBlanks, position_eatWhile]
  exact Text.le_runEnd ..

@[simp]
theorem source_readToken (c : Cursor) : c.readToken.2.source = c.source := by
  unfold readToken
  split
  · rfl
  · split
    · rfl
    · split <;> rfl

/-- A token is at least one byte wide. -/
theorem position_lt_readToken {c : Cursor} (h : c.atEnd = false) :
    c.position < c.readToken.2.position := by
  unfold readToken
  split
  · rename_i kind width hs
    have := Kind.symbol?_width_pos hs
    simp only [take, advance]
    omega
  · split
    · rename_i hletter
      exact position_lt_eatWhile h hletter
    · split
      · rename_i hdigit
        exact position_lt_eatWhile h hdigit
      · exact Nat.lt_succ_self _

/-! ## One pull -/

/-- The next token with its span, and the cursor behind it; where only blanks remain nothing, and
the cursor behind them. -/
def pull (c : Cursor) : Option Lexeme × Cursor :=
  let front := c.skipBlanks
  if h : front.atEnd = true then (none, front)
  else
    let read := front.readToken
    let span : Span :=
      { start := front.position
        stop := read.2.position
        start_le_stop := Nat.le_of_lt (position_lt_readToken (Bool.eq_false_iff.2 h)) }
    (some { token := read.1, span }, read.2)

/-- The number of bytes that are left. -/
def remaining (c : Cursor) : Nat := c.source.utf8ByteSize - c.position

theorem pull_of_atEnd {c : Cursor} (h : c.skipBlanks.atEnd = true) :
    c.pull = (none, c.skipBlanks) := by
  simp [pull, h]

/-- A pull that yields a lexeme has read it behind the blanks. -/
theorem pull_eq_some {c after : Cursor} {lexeme : Lexeme} (h : c.pull = (some lexeme, after)) :
    c.skipBlanks.atEnd = false ∧ lexeme.token = c.skipBlanks.readToken.1
      ∧ lexeme.span.start = c.skipBlanks.position ∧ lexeme.span.stop = after.position
      ∧ after = c.skipBlanks.readToken.2 := by
  unfold pull at h
  dsimp only at h
  split at h
  · simp at h
  · rename_i hend
    obtain ⟨hsome, rfl⟩ := Prod.mk.inj h
    obtain rfl := Option.some.inj hsome
    exact ⟨Bool.eq_false_iff.2 hend, rfl, rfl, rfl, rfl⟩

theorem remaining_pull_lt {c after : Cursor} {lexeme : Lexeme}
    (h : c.pull = (some lexeme, after)) : after.remaining < c.remaining := by
  obtain ⟨hend, -, -, -, rfl⟩ := pull_eq_some h
  have hread := position_lt_readToken hend
  have hskip := position_le_skipBlanks c
  have hfront := position_lt_of_not_atEnd hend
  simp only [remaining, source_readToken, source_skipBlanks] at hfront ⊢
  omega

/-! ## Many pulls -/

/-- All that is left to pull, and the cursor at the end of the text. -/
def drain (c : Cursor) : List Lexeme × Cursor :=
  match h : c.pull with
  | (none, after) => ([], after)
  | (some lexeme, after) =>
    have := remaining_pull_lt h
    let rest := after.drain
    (lexeme :: rest.1, rest.2)
termination_by c.remaining

/-- What the next `n` pulls yield, or fewer if the end of the text comes first. -/
def pullUpTo (c : Cursor) : Nat → List Lexeme × Cursor
  | 0 => ([], c)
  | n + 1 =>
    match c.pull with
    | (none, after) => ([], after)
    | (some lexeme, after) =>
      let rest := after.pullUpTo n
      (lexeme :: rest.1, rest.2)

theorem drain_of_pull_none {c after : Cursor} (h : c.pull = (none, after)) :
    c.drain = ([], after) := by
  rw [drain]
  split
  · simp_all
  · simp_all

theorem drain_of_pull_some {c after : Cursor} {lexeme : Lexeme}
    (h : c.pull = (some lexeme, after)) :
    c.drain = (lexeme :: after.drain.1, after.drain.2) := by
  rw [drain]
  split
  · simp_all
  · simp_all

end Cursor

/-! ## A whole text -/

/-- The tokens of a text with their spans, in order. -/
def lexemes (source : String) : List Lexeme := (Cursor.drain { source }).1

/-- The tokens of a text, in order. -/
def tokens (source : String) : List Token := (lexemes source).map Lexeme.token

/-- The tokens of a text, closed by the token that marks the end. -/
def tokenize (source : String) : List Token := tokens source ++ [Token.endOfInput]

end TokenStream

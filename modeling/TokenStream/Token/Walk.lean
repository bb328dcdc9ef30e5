import TokenStream.Token.Lexeme

/-!
# Walks through a token stream

A walk asks for tokens in several ways, one after the other, and may return to a place that it has
marked.  Each request says how much it pulls (`Request.pull`) and what it answers from
the lexemes pulled (`Request.answer`), so that all of them see one and the same stream.
-/

namespace TokenStream

/-- A way to ask for tokens. -/
inductive Request where
  /-- The next token, where the end of the text counts as one. -/
  | token
  /-- The next token, if there is one. -/
  | next
  /-- The token after the next `n`, if there are that many. -/
  | nth (n : Nat)
  /-- All that are left. -/
  | rest
  /-- How many are left, which consumes them. -/
  | count
  deriving DecidableEq, Repr

/-- What a request is answered with. -/
inductive Answer where
  | token (t : Token)
  | maybe (t : Option Token)
  | tokens (ts : List Token)
  | number (n : Nat)
  deriving DecidableEq, Repr

namespace Request

/-- The lexemes that a request pulls, and the cursor behind them. -/
def pull (r : Request) (c : Cursor) : List Lexeme × Cursor :=
  match r with
  | token | next => c.pullUpTo 1
  | nth n => c.pullUpTo (n + 1)
  | rest | count => c.drain

/-- The answer to a request, given the lexemes that it pulled. -/
def answer (r : Request) (pulled : List Lexeme) : Answer :=
  let tokens := pulled.map Lexeme.token
  match r with
  | token => .token (tokens.head?.getD Token.endOfInput)
  | next => .maybe tokens.head?
  | nth n => .maybe tokens[n]?
  | rest => .tokens tokens
  | count => .number tokens.length

end Request

/-- A cursor on its way, and the place to return to. -/
structure Walk where
  cursor : Cursor
  mark : Cursor
  deriving DecidableEq, Repr

/-- One step of a walk. -/
inductive Walk.Step where
  | ask (r : Request)
  /-- Mark this place. -/
  | save
  /-- Go back to the place marked last, which stays marked. -/
  | restore
  deriving DecidableEq, Repr

namespace Walk

/-- A walk begins at the start of the text, which is marked. -/
def start (source : String) : Walk :=
  let cursor : Cursor := { source }
  ⟨cursor, cursor⟩

/-- What a step of a walk shows. -/
structure Outcome where
  /-- The answer, where the step asked for something. -/
  answer : Option Answer
  /-- What the step pulled. -/
  pulled : List Lexeme
  /-- The offset that the walk has reached. -/
  position : Nat
  deriving DecidableEq, Repr

/-- One step: what it shows, and the walk after it. -/
def step (w : Walk) : Step → Outcome × Walk
  | .ask r =>
    let (pulled, cursor) := r.pull w.cursor
    (⟨some (r.answer pulled), pulled, cursor.position⟩, { w with cursor })
  | .save => (⟨none, [], w.cursor.position⟩, { w with mark := w.cursor })
  | .restore => (⟨none, [], w.mark.position⟩, { w with cursor := w.mark })

/-- What the steps of a walk show, one after the other. -/
def run (w : Walk) : List Step → List Outcome
  | [] => []
  | s :: rest =>
    let (outcome, after) := w.step s
    outcome :: after.run rest

end Walk

end TokenStream

import TokenStream.Text.Bytes

/-!
# A cursor over the bytes of a text

A cursor is a text and an offset.  It looks at the byte under it and at the next one, and it only
ever moves forward: by a number of bytes, over a run of bytes, or past the end, where it keeps
reading the sentinel.
-/

namespace TokenStream

/-- A place in a text.  The position may lie beyond the end. -/
structure Cursor where
  source : String
  position : Nat := 0
  deriving DecidableEq, Repr

namespace Cursor

/-- The byte under the cursor. -/
def current (c : Cursor) : UInt8 := Text.byteAt c.source c.position

/-- The offset of the next byte to be read. -/
def readPosition (c : Cursor) : Nat := c.position + 1

/-- The byte after the one under the cursor. -/
def peek (c : Cursor) : UInt8 := Text.byteAt c.source c.readPosition

/-- Nothing is left to read.  Only the offset decides, for a text may contain the sentinel. -/
def atEnd (c : Cursor) : Bool := decide (c.source.utf8ByteSize ≤ c.position)

/-- The cursor `n` bytes further on. -/
def advance (c : Cursor) (n : Nat := 1) : Cursor := { c with position := c.position + n }

/-- The text between two offsets of the text under the cursor. -/
def slice (c : Cursor) (span : Span) : String := Text.slice c.source span

/-- The text of the next `n` bytes, and the cursor behind them. -/
def take (c : Cursor) (n : Nat) : String × Cursor :=
  (c.slice ⟨c.position, c.position + n, Nat.le_add_right _ _⟩, c.advance n)

/-- The longest run of bytes from the cursor on that satisfy `p`, and the cursor behind it.  The
run ends with the text even if `p` holds of the sentinel. -/
def eatWhile (c : Cursor) (p : UInt8 → Bool) : String × Cursor :=
  c.take (Text.runEnd c.source p c.position - c.position)

theorem position_lt_of_not_atEnd {c : Cursor} (h : c.atEnd = false) :
    c.position < c.source.utf8ByteSize := by
  simpa [atEnd] using h

@[simp]
theorem source_eatWhile (c : Cursor) (p : UInt8 → Bool) : (c.eatWhile p).2.source = c.source := rfl

/-- The cursor behind a run stands at the first byte that does not belong to it. -/
@[simp]
theorem position_eatWhile (c : Cursor) (p : UInt8 → Bool) :
    (c.eatWhile p).2.position = Text.runEnd c.source p c.position := by
  have := Text.le_runEnd c.source p c.position
  simp only [eatWhile, take, advance]
  omega

/-- A run that begins with a byte satisfying `p` moves the cursor. -/
theorem position_lt_eatWhile {c : Cursor} {p : UInt8 → Bool} (h : c.atEnd = false)
    (hp : p c.current = true) : c.position < (c.eatWhile p).2.position := by
  rw [position_eatWhile]
  exact Text.lt_runEnd (position_lt_of_not_atEnd h) hp

end Cursor

end TokenStream

import TokenStream.Proofs.Tracing
import TokenStream.Proofs.Windows

/-!
# Scanning up to the sentinel

A window passes over blanks, words and numbers without looking for the end of the text, and the
sentinel stops it all the same, for it is no blank, no letter and no digit.  So scanning by windows
needs no bound: each pull ends, and it yields what the cursor in its place yields
(`Window.next_of_reached`); and pulling until the end is met comes to an end, with the tokens of the
text (`Window.scan_eq`).

The offset is asked for one thing only, whether a sentinel that is met is the end or stands in the
text.
-/

namespace TokenStream

namespace Window

/-- A pull that may go on for ever, and that may be refused a cut. -/
abbrev Pull := ExceptT ReversedOffsets Part

/-! ## The program -/

/-- The byte after the one at the window. -/
def peek (w : Window) : UInt8 := Text.byteAt w.source w.readPosition

/-- The text from a window up to a later one, and the later one. -/
def upTo (w after : Window) : Pull (String × Window) := do
  let text ← liftExcept (w.cursor.cut w.position after.position)
  return (text, after)

/-- The text of the run of bytes that satisfy `p`, and the window behind it. -/
def eat (w : Window) (p : UInt8 → Bool) : Pull (String × Window) :=
  ExceptT.mk ((w.eatWhile p).map fun r => r.1.map fun text => (text, r.2))

/-- The token of the byte at the window.  A byte above 127 is no text, so its token is made from
the byte itself. -/
def illegal (w : Window) : Pull (Token × Window) :=
  if w.current < 128 then do
    let (text, after) ← w.upTo w.advance
    return (⟨.illegal, text⟩, after)
  else
    return (Token.illegal w.current, w.advance)

/-- The token at a window that does not stand on a blank. -/
def readToken (w : Window) : Pull (Token × Window) :=
  match Kind.symbol? w.current w.peek with
  | some (kind, width) => do
    let (text, after) ← w.upTo (advance^[width] w)
    return (⟨kind, text⟩, after)
  | none =>
    if w.current == Text.sentinel && w.atEnd then return (Token.endOfInput, w)
    else if isLetter w.current then do
      let (text, after) ← w.eat isLetter
      return (Token.word text, after)
    else if isDigit w.current then do
      let (text, after) ← w.eat isDigit
      return (⟨.int, text⟩, after)
    else w.illegal

/-- The next token, where the end of the text counts as one. -/
def next (w : Window) : Pull (Token × Window) := do
  let (_, front) ← w.eat isBlank
  front.readToken

/-- One turn of the loop that collects tokens: it stops with the token that marks the end, or at a
cut that was refused. -/
def scanTurn (s : List Token × Window) :
    Part (Except ReversedOffsets (List Token) ⊕ List Token × Window) :=
  s.2.next.run.map fun
    | .error reversed => .inl (.error reversed)
    | .ok (t, after) =>
      if t.isEndOfInput then .inl (.ok (s.1 ++ [t])) else .inr (s.1 ++ [t], after)

/-- All tokens of a text, if pulling them comes to an end. -/
def scan (source : String) : Part (Except ReversedOffsets (List Token)) :=
  PFun.fix scanTurn ([], start source)

end Window

/-! ## One token -/

namespace Cursor

/-- The window at the place of a cursor. -/
def window (c : Cursor) : Window := Window.ofPosition c.source c.position

section Window

variable {c : Cursor}

@[simp]
lemma current_window : c.window.current = c.current := rfl

@[simp]
lemma peek_window : c.window.peek = c.peek := rfl

@[simp]
lemma atEnd_window : c.window.atEnd = c.atEnd := rfl

lemma advance_window (n : Nat) : (c.advance n).window = Window.advance^[n] c.window :=
  (Window.iterate_advance c.source c.position n).symm

/-- Moving forward leaves the offsets in order, so that the cut is not refused. -/
lemma upTo_window (n : Nat) :
    c.window.upTo (c.advance n).window = pure ((c.take n).1, (c.take n).2.window) := by
  have hcut : c.window.cursor.cut c.window.position (c.advance n).window.position =
      .ok (c.take n).1 := c.cut_of_le (Nat.le_add_right ..)
  rw [Window.upTo, hcut]
  exact pure_bind ..

/-- The window stops where the cursor does that looks for the end. -/
lemma eat_window {p : UInt8 → Bool} (hp : p Text.sentinel = false) :
    c.window.eat p = pure ((c.eatWhile p).1, (c.eatWhile p).2.window) := by
  have hcursor : c.eatWhile p = _ := Window.eatWhile_cursor c.source p c.position
  rw [Window.eat, window, Window.eatWhile_ofPosition c.source hp, Part.map_some, hcursor]
  rfl

/-- Where a window has passed the end, its byte is the sentinel, which is no symbol. -/
lemma readToken_window_of_atEnd (h : c.atEnd = true) :
    c.window.readToken = pure (Token.endOfInput, c.window) := by
  have hcurrent : c.current = Text.sentinel := Text.byteAt_of_le (of_decide_eq_true h)
  have hsymbol : Kind.symbol? Text.sentinel c.peek = none :=
    Kind.symbol?_eq_none_iff.2 (by decide)
  rw [Window.readToken, current_window, peek_window, atEnd_window, hcurrent, hsymbol]
  simp only [h, beq_self_eq_true, Bool.and_self, if_true]

lemma illegal_window (h : c.atEnd = false) :
    c.window.illegal = pure (Token.illegal c.current, c.advance.window) := by
  rw [Window.illegal, current_window]
  by_cases hlt : c.current < 128
  · have hcut : c.window.upTo c.window.advance = _ := upTo_window 1
    rw [if_pos hlt, hcut, take_one h hlt]
    exact pure_bind ..
  · rw [if_neg hlt]
    rfl

/-- Where no blanks stand, a window reads the token that the cursor reads. -/
theorem readToken_window (h : c.atEnd = false) (hblank : isBlank c.current = false) :
    c.window.readToken = pure (c.readToken.1, c.readToken.2.window) := by
  rw [Window.readToken, current_window, peek_window, atEnd_window]
  by_cases hmem : c.current ∈ symbolBytes
  · obtain ⟨kind, width, hsymbol⟩ := Kind.exists_symbol?_eq_some hmem c.peek
    rw [hsymbol, readToken_of_symbol? hsymbol]
    simp only [← advance_window, upTo_window]
    exact pure_bind ..
  rw [Kind.symbol?_eq_none_iff.2 hmem]
  simp only [h, Bool.and_false, Bool.false_eq_true, if_false]
  cases hletter : isLetter c.current with
  | true =>
    rw [if_pos rfl, eat_window rfl, readToken_of_isLetter hletter]
    exact pure_bind ..
  | false =>
    rw [if_neg Bool.false_ne_true]
    cases hdigit : isDigit c.current with
    | true =>
      rw [if_pos rfl, eat_window rfl, readToken_of_isDigit hdigit]
      exact pure_bind ..
    | false =>
      have hillegal : isIllegal c.current = true := isIllegal_iff.2 ⟨hblank, hletter, hdigit, hmem⟩
      rw [if_neg Bool.false_ne_true, readToken_of_isIllegal hillegal]
      exact illegal_window h

/-- A window pulls what the cursor in its place pulls. -/
theorem next_window (c : Cursor) :
    c.window.next = pure (c.nextToken.1, c.nextToken.2.window) := by
  -- the sentinel is no blank, so the window stops in front of the next token or at the end
  have hnext : c.window.next = c.skipBlanks.window.readToken := by
    rw [Window.next, eat_window rfl]
    exact pure_bind ..
  rw [hnext]
  cases hend : c.skipBlanks.atEnd with
  | true =>
    rw [readToken_window_of_atEnd hend, nextToken_of_none (pull_of_atEnd hend)]
  | false =>
    obtain ⟨p, rest, h⟩ := exists_faces hend
    have hblank := (p.spells.classes_of_mem h.current_mem).1
    rw [readToken_window hend hblank, nextToken_of_some h.pull_eq, h.readToken_front]
    rfl

end Window

@[simp]
lemma source_nextToken (c : Cursor) : c.nextToken.2.source = c.source := by
  rcases c.pull_cases with ⟨-, hpull⟩ | ⟨p, rest, -, hpull⟩
  · rw [nextToken_of_none hpull]
    rfl
  · rw [nextToken_of_some hpull]
    rfl

end Cursor

namespace Window

/-- Every place of a text can be reached. -/
lemma reached_window (c : Cursor) : Reached c.source c.window := by
  obtain ⟨source, i⟩ := c
  induction i with
  | zero => exact Reached.start
  | succ i ih => exact ih.advance

/-- Wherever a window has been moved to, its next pull ends, no cut is refused, and the pull yields
what the cursor in the same place yields.  The window behind it stands where the cursor stands
then. -/
theorem next_of_reached {source : String} {w : Window} (h : w.Reached source) :
    ∃ after, w.next.run = Part.some (.ok (w.cursor.nextToken.1, after)) ∧ after.Reached source ∧
      after.cursor = w.cursor.nextToken.2 := by
  let c : Cursor := { source, position := w.position }
  have hw : w = c.window := h.eq_ofPosition
  have hcursor : w.cursor = c := congrArg cursor hw
  refine ⟨c.nextToken.2.window, ?_, ?_, hcursor ▸ rfl⟩
  · rw [hcursor, hw, c.next_window]
    rfl
  · have hafter := reached_window c.nextToken.2
    rw [c.source_nextToken] at hafter
    exact hafter

/-! ## All tokens -/

section Scan

variable {c after : Cursor} {lexeme : Lexeme} (ts : List Token)

lemma scanTurn_of_pull_none (h : c.pull = (none, after)) :
    scanTurn (ts, c.window) = Part.some (.inl (.ok (ts ++ [Token.endOfInput]))) := by
  rw [scanTurn, c.next_window, Cursor.nextToken_of_none h]
  exact Part.map_some ..

lemma scanTurn_of_pull_some (h : c.pull = (some lexeme, after)) :
    scanTurn (ts, c.window) = Part.some (.inr (ts ++ [lexeme.token], after.window)) := by
  have hgoes := (Cursor.pull_some h).2.1
  rw [scanTurn, c.next_window, Cursor.nextToken_of_some h]
  refine (Part.map_some ..).trans (congrArg Part.some ?_)
  simp only [hgoes, Bool.false_eq_true, if_false]

end Scan

/-- Collecting tokens comes to an end, with all that can be pulled. -/
theorem fix_scanTurn (c : Cursor) (ts : List Token) :
    PFun.fix scanTurn (ts, c.window) =
      Part.some (.ok (ts ++ c.drain.1.map Lexeme.token ++ [Token.endOfInput])) := by
  -- on what is left to pull: each turn takes up one lexeme of it
  fun_induction Cursor.drain c generalizing ts with
  | case1 c after hpull =>
    refine Part.eq_some_iff.2 (PFun.fix_stop ?_)
    rw [scanTurn_of_pull_none ts hpull]
    simp
  | case2 c lexeme after hpull _ rest ih =>
    have hturn := Part.eq_some_iff.1 (scanTurn_of_pull_some ts hpull)
    rw [PFun.fix_fwd_eq hturn, ih, List.map_cons, List.append_assoc ts, List.singleton_append]

/-- Scanning a text by windows comes to an end, and it yields the tokens of the text. -/
theorem scan_eq (source : String) : scan source = Part.some (.ok (tokenize source)) :=
  fix_scanTurn { source } []

end Window

end TokenStream

import TokenStream.Proofs.Termination

/-!
# A scan that records what it does

A scan cuts texts out of its source at pairs of offsets and reports the illegal bytes that it
meets.  Here it is written as a program that records both (`Scan`) and that fails at a cut whose
offsets are in the wrong order.

The program never does fail, and it yields what the cursor yields (`Scan.yields_next`,
`Scan.exists_yields_all`).  So what it records is told from the bytes ahead of the cursor:

* the cuts of a pull lie inside the text, and those that are not empty lie between characters, even
  if the cursor itself stands inside a character (`cuts_are_clean`);
* the events of scanning a whole text are its illegal bytes (`illegal_bytes_reported`).
-/

namespace TokenStream

/-- A pair of offsets at which a text is cut out. -/
structure Cut where
  start : Nat
  stop : Nat
  deriving DecidableEq, Repr

/-- The text between the offsets is all there, and it consists of whole characters. -/
structure Cut.Clean (source : String) (cut : Cut) : Prop where
  start_le_stop : cut.start ≤ cut.stop
  stop_le : cut.stop ≤ source.utf8ByteSize
  isBoundary : cut.start < cut.stop →
    Text.IsBoundary source cut.start ∧ Text.IsBoundary source cut.stop

/-- What a scan has done, in order. -/
structure Trace where
  cuts : List Cut := []
  events : List Event := []
  deriving DecidableEq, Repr

namespace Trace

instance : Append Trace := ⟨fun s t => ⟨s.cuts ++ t.cuts, s.events ++ t.events⟩⟩

@[simp]
lemma cuts_append (s t : Trace) : (s ++ t).cuts = s.cuts ++ t.cuts := rfl

@[simp]
lemma events_append (s t : Trace) : (s ++ t).events = s.events ++ t.events := rfl

lemma append_empty (t : Trace) : t ++ {} = t := by
  obtain ⟨cuts, events⟩ := t
  exact congrArg₂ Trace.mk (List.append_nil _) (List.append_nil _)

lemma append_assoc (r s t : Trace) : r ++ s ++ t = r ++ (s ++ t) :=
  congrArg₂ Trace.mk (List.append_assoc ..) (List.append_assoc ..)

end Trace

/-- A scan records a trace and may be refused a cut. -/
abbrev Scan := StateT Trace (Except ReversedOffsets)

namespace Scan

/-! ## The program -/

def record (made : Trace) : Scan Unit := modify (· ++ made)

/-- The text between two offsets, which have to be in order. -/
def cut (source : String) (start stop : Nat) : Scan String := do
  record { cuts := [⟨start, stop⟩] }
  let span ← Span.ofOffsets start stop
  return Text.slice source span

/-- The text from a cursor up to a later one, and the later one. -/
def upTo (c after : Cursor) : Scan (String × Cursor) := do
  let text ← cut c.source c.position after.position
  return (text, after)

/-- The longest run of bytes that satisfy `p`, and the cursor behind it. -/
def eatWhile (c : Cursor) (p : UInt8 → Bool) : Scan (String × Cursor) :=
  upTo c (c.eatWhile p).2

/-- The token of the byte under the cursor.  A byte above 127 is no text, so its token is made
from the byte itself. -/
def illegal (c : Cursor) : Scan (Token × Cursor) := do
  record { events := [.illegalByte c.current c.position] }
  if c.current < 128 then
    let (text, after) ← upTo c c.advance
    return (⟨.illegal, text⟩, after)
  else
    return (Token.illegal c.current, c.advance)

/-- The token at a cursor that does not stand on a blank.  That the text has ended shows as the
sentinel, and it is told from a sentinel in the text by the offset. -/
def token (c : Cursor) : Scan (Token × Cursor) :=
  match Kind.symbol? c.current c.peek with
  | some (kind, width) => do
    let (text, after) ← upTo c (c.advance width)
    return (⟨kind, text⟩, after)
  | none =>
    if c.current == Text.sentinel && c.atEnd then return (Token.endOfInput, c)
    else if isLetter c.current then do
      let (text, after) ← eatWhile c isLetter
      return (Token.word text, after)
    else if isDigit c.current then do
      let (text, after) ← eatWhile c isDigit
      return (⟨.int, text⟩, after)
    else illegal c

/-- The next token, where the end of the text counts as one. -/
def next (c : Cursor) : Scan (Token × Cursor) := do
  let (_, front) ← eatWhile c isBlank
  token front

/-- All tokens up to the end of the text, if it comes within `n` pulls. -/
def all : Nat → Cursor → Scan (Option (List Token))
  | 0, _ => return none
  | n + 1, c => do
    let (t, after) ← next c
    if t.isEndOfInput then return some [t]
    let rest ← all n after
    return rest.map (t :: ·)

end Scan

namespace Cursor

/-! ## What it records -/

/-- What reading a token records: one cut, unless the byte under the cursor is above 127, and that
byte if it is illegal. -/
def tokenTrace (c : Cursor) : Trace where
  cuts := if c.current < 128 then [⟨c.position, c.readToken.2.position⟩] else []
  events := if isIllegal c.current then [.illegalByte c.current c.position] else []

/-- What a pull records. -/
def pullTrace (c : Cursor) : Trace :=
  { cuts := [⟨c.position, c.skipBlanks.position⟩] } ++
    if c.skipBlanks.atEnd then {} else c.skipBlanks.tokenTrace

lemma tokenTrace_of_legal {c : Cursor} (h : isIllegal c.current = false) :
    c.tokenTrace = { cuts := [⟨c.position, c.readToken.2.position⟩] } := by
  simp [tokenTrace, h, lt_of_not_isIllegal h]

/-- A byte below 128 is a character by itself. -/
lemma take_one {c : Cursor} (h : c.atEnd = false) (hlt : c.current < 128) :
    c.take 1 = (String.singleton (Char.ofUInt8 c.current), c.advance) := by
  have hbytes : Text.bytes (String.singleton (Char.ofUInt8 c.current)) = [c.current] := by
    rw [Text.bytes_singleton, Text.encode_ofUInt8 _ hlt]
  have hahead : c.ahead = Text.bytes (String.singleton (Char.ofUInt8 c.current)) ++ _ :=
    (Text.drop_bytes (position_lt_of_not_atEnd h)).trans
      (congrArg (· ++ _) hbytes.symm)
  have htake := take_of_ahead (by simp) hahead
  rwa [hbytes] at htake

end Cursor

namespace Scan

/-- The scan comes to the result `a` and adds `made` to what has been recorded before. -/
def Yields {α : Type} (s : Scan α) (a : α) (made : Trace) : Prop :=
  ∀ before, StateT.run s before = .ok (a, before ++ made)

section Yields

variable {α β : Type} {a : α} {b : β} {made more : Trace}

lemma yields_pure (a : α) : Yields (pure a) a {} := by
  intro before
  rw [before.append_empty]
  rfl

lemma Yields.bind {s : Scan α} {f : α → Scan β} (hs : Yields s a made)
    (hf : Yields (f a) b more) : Yields (s >>= f) b (made ++ more) := by
  intro before
  rw [StateT.run_bind, hs before, ← Trace.append_assoc]
  exact hf _

/-- A result that is only turned into another one leaves no trace. -/
lemma Yields.map {s : Scan α} (hs : Yields s a made) (f : α → β) :
    Yields (do return f (← s)) (f a) made := by
  have h := hs.bind (f := fun a => pure (f a)) (yields_pure (f a))
  rwa [made.append_empty] at h

lemma yields_record (made : Trace) : Yields (record made) () made := fun _ => rfl

/-- Offsets in order are not refused. -/
lemma yields_cut (source : String) {start stop : Nat} (h : start ≤ stop) :
    Yields (cut source start stop) (Text.slice source ⟨start, stop, h⟩)
      { cuts := [⟨start, stop⟩] } := by
  have hspan : Yields (Span.ofOffsets start stop : Scan Span) ⟨start, stop, h⟩ {} := by
    intro before
    rw [before.append_empty, Span.ofOffsets, dif_pos h]
    rfl
  have hcut := (yields_record { cuts := [⟨start, stop⟩] }).bind (f := fun _ => do
    return Text.slice source (← Span.ofOffsets start stop)) (hspan.map _)
  rwa [Trace.append_empty] at hcut

end Yields

/-! ## One token -/

section Token

variable {c : Cursor}

lemma yields_upTo (c : Cursor) (n : Nat) :
    Yields (upTo c (c.advance n)) (c.take n) { cuts := [⟨c.position, c.position + n⟩] } :=
  (yields_cut c.source (Nat.le_add_right ..)).map fun text => (text, c.advance n)

lemma yields_eatWhile (c : Cursor) (p : UInt8 → Bool) :
    Yields (eatWhile c p) (c.eatWhile p)
      { cuts := [⟨c.position, (c.eatWhile p).2.position⟩] } :=
  yields_upTo c _

/-- At the end of the text the byte under the cursor is the sentinel, which is no symbol. -/
lemma yields_token_of_atEnd (h : c.atEnd = true) :
    Yields (token c) (Token.endOfInput, c) {} := by
  have hcurrent : c.current = Text.sentinel := Text.byteAt_of_le (of_decide_eq_true h)
  have hsymbol : Kind.symbol? Text.sentinel c.peek = none :=
    Kind.symbol?_eq_none_iff.2 (by decide)
  rw [token, hcurrent, hsymbol]
  simp only [h, beq_self_eq_true, Bool.and_self, if_true]
  exact yields_pure _

lemma yields_illegal (h : c.atEnd = false) :
    Yields (illegal c) (Token.illegal c.current, c.advance)
      ({ events := [.illegalByte c.current c.position] } ++
        { cuts := if c.current < 128 then [⟨c.position, c.position + 1⟩] else [] }) := by
  refine (yields_record _).bind ?_
  by_cases hlt : c.current < 128
  · have hcut := yields_upTo c 1
    rw [Cursor.take_one h hlt] at hcut
    rw [if_pos hlt, if_pos hlt]
    exact hcut.map fun r => (Token.mk .illegal r.1, r.2)
  · rw [if_neg hlt, if_neg hlt]
    exact yields_pure _

lemma token_of_symbol? {kind : Kind} {width : Nat}
    (hsymbol : Kind.symbol? c.current c.peek = some (kind, width)) :
    token c = do
      let (text, after) ← upTo c (c.advance width)
      return (⟨kind, text⟩, after) := by
  rw [token, hsymbol]

/-- What is no symbol and not the end is told by the class of its byte. -/
lemma token_of_not_symbol (h : c.atEnd = false) (hsymbol : c.current ∉ symbolBytes) :
    token c =
      if isLetter c.current then do
        let (text, after) ← eatWhile c isLetter
        return (Token.word text, after)
      else if isDigit c.current then do
        let (text, after) ← eatWhile c isDigit
        return (⟨.int, text⟩, after)
      else illegal c := by
  rw [token, Kind.symbol?_eq_none_iff.2 hsymbol]
  simp only [h, Bool.and_false, Bool.false_eq_true, if_false]

/-- Where no blanks stand, a scan reads the token that the cursor reads. -/
theorem yields_token (h : c.atEnd = false) (hblank : isBlank c.current = false) :
    Yields (token c) c.readToken c.tokenTrace := by
  by_cases hmem : c.current ∈ symbolBytes
  · obtain ⟨kind, width, hsymbol⟩ := Kind.exists_symbol?_eq_some hmem c.peek
    rw [Cursor.tokenTrace_of_legal (by simp [isIllegal, hmem]), Cursor.readToken_of_symbol? hsymbol,
      token_of_symbol? hsymbol]
    exact (yields_upTo c width).map fun r => (Token.mk kind r.1, r.2)
  rw [token_of_not_symbol h hmem]
  cases hletter : isLetter c.current with
  | true =>
    rw [Cursor.tokenTrace_of_legal (by simp [isIllegal, hletter]),
      Cursor.readToken_of_isLetter hletter, if_pos rfl]
    exact (yields_eatWhile c isLetter).map fun r => (Token.word r.1, r.2)
  | false =>
    rw [if_neg Bool.false_ne_true]
    cases hdigit : isDigit c.current with
    | true =>
      rw [Cursor.tokenTrace_of_legal (by simp [isIllegal, hdigit]),
        Cursor.readToken_of_isDigit hdigit, if_pos rfl]
      exact (yields_eatWhile c isDigit).map fun r => (Token.mk .int r.1, r.2)
    | false =>
      have hillegal : isIllegal c.current = true := isIllegal_iff.2 ⟨hblank, hletter, hdigit, hmem⟩
      rw [if_neg Bool.false_ne_true, Cursor.tokenTrace, Cursor.readToken_of_isIllegal hillegal,
        hillegal]
      exact yields_illegal h

end Token

end Scan

/-! ## What stands ahead -/

namespace Cursor

variable {c : Cursor} {p : Segment} {rest : List UInt8}

/-- Behind the blanks a cursor stands in front of the spelling of a segment, whose token it
reads. -/
structure Faces (c : Cursor) (p : Segment) (rest : List UInt8) : Prop where
  ahead_eq : c.ahead = p.gap ++ (p.spelling ++ rest)
  pull_eq : c.pull = (some (p.lexeme c.position), c.advance p.bytes.length)
  position_front : c.skipBlanks.position = c.position + p.gap.length
  readToken_front : c.skipBlanks.readToken = (p.token, c.advance p.bytes.length)

lemma exists_faces (h : c.skipBlanks.atEnd = false) : ∃ p rest, c.Faces p rest := by
  rcases c.pull_cases with ⟨-, hpull⟩ | ⟨p, rest, hahead, hpull⟩
  · simp [pull, h] at hpull
  · obtain ⟨-, htoken, hstart, -, hafter⟩ := pull_eq_some hpull
    exact ⟨p, rest, hahead.trans (List.append_assoc ..), hpull, hstart.symm,
      Prod.ext htoken.symm hafter.symm⟩

lemma blank_of_atEnd (h : c.skipBlanks.atEnd = true) :
    Blank c.ahead ∧ c.skipBlanks.position = c.position + c.ahead.length := by
  rcases c.pull_cases with ⟨hblank, hpull⟩ | ⟨p, rest, hahead, hpull⟩
  · rw [pull_of_atEnd h] at hpull
    exact ⟨hblank, congrArg Cursor.position (Prod.mk.inj hpull).2⟩
  · rw [pull_of_atEnd h] at hpull
    exact absurd (Prod.mk.inj hpull).1 (by simp)

namespace Faces

lemma ahead_front (h : c.Faces p rest) : c.skipBlanks.ahead = p.spelling ++ rest := by
  have hfront : c.skipBlanks = c.advance p.gap.length :=
    congrArg (Cursor.mk c.source) h.position_front
  rw [hfront, ahead_advance_of_append h.ahead_eq]

lemma position_after (h : c.Faces p rest) :
    (c.advance p.bytes.length).position = c.skipBlanks.position + p.spelling.length := by
  rw [h.position_front, advance, Segment.bytes, List.length_append, Nat.add_assoc]

lemma current_mem (h : c.Faces p rest) : c.skipBlanks.current ∈ p.spelling := by
  obtain ⟨b, more, hb⟩ := List.exists_cons_of_ne_nil p.spells.ne_nil
  rw [current_eq, h.ahead_front, hb]
  exact List.mem_cons_self ..

end Faces

/-- The events of a pull are those of the lexeme that it yields. -/
lemma events_pullTrace (c : Cursor) :
    c.pullTrace.events = c.pull.1.toList.flatMap (Lexeme.events c.source) := by
  cases hend : c.skipBlanks.atEnd with
  | true =>
    rw [pull_of_atEnd hend, pullTrace, hend]
    rfl
  | false =>
    obtain ⟨p, rest, h⟩ := exists_faces hend
    have hkind := p.spells.isIllegal_iff_of_mem h.current_mem
    have hlexeme : (p.lexeme c.position).events c.source =
        if p.token.kind == .illegal then
          [.illegalByte c.skipBlanks.current c.skipBlanks.position]
        else [] := by
      rw [current, h.position_front]
      rfl
    rw [h.pull_eq, pullTrace, hend, Trace.events_append, Option.toList_some,
      List.flatMap_singleton, hlexeme]
    simp [tokenTrace, hkind]

end Cursor

namespace Scan

/-! ## Pulls -/

/-- A scan pulls what the cursor pulls. -/
theorem yields_next (c : Cursor) : Yields (next c) c.nextToken c.pullTrace := by
  refine (yields_eatWhile c isBlank).bind ?_
  cases hend : c.skipBlanks.atEnd with
  | true =>
    rw [Cursor.nextToken_of_none (Cursor.pull_of_atEnd hend), if_pos rfl]
    exact yields_token_of_atEnd hend
  | false =>
    obtain ⟨p, rest, h⟩ := Cursor.exists_faces hend
    have hnext : c.nextToken = c.skipBlanks.readToken := by
      rw [Cursor.nextToken_of_some h.pull_eq, h.readToken_front]
      rfl
    rw [hnext, if_neg Bool.false_ne_true]
    exact yields_token hend (p.spells.classes_of_mem h.current_mem).1

section All

variable {c after : Cursor} {lexeme : Lexeme} {n : Nat}

lemma yields_all_of_pull_none (h : c.pull = (none, after)) :
    Yields (all (n + 1) c) (some [Token.endOfInput]) c.pullTrace := by
  have hnext := yields_next c
  rw [Cursor.nextToken_of_none h] at hnext
  rw [← c.pullTrace.append_empty]
  exact hnext.bind (yields_pure _)

lemma yields_all_of_pull_some {ts : List Token} {made : Trace} (h : c.pull = (some lexeme, after))
    (hrest : Yields (all n after) (some ts) made) :
    Yields (all (n + 1) c) (some (lexeme.token :: ts)) (c.pullTrace ++ made) := by
  have hnext := yields_next c
  rw [Cursor.nextToken_of_some h] at hnext
  refine hnext.bind ?_
  simp only [(Cursor.pull_some h).2.1, Bool.false_eq_true, if_false]
  exact hrest.map fun rest => rest.map (lexeme.token :: ·)

/-- A scan of all that is left comes to its end, with the tokens and the events of what the cursor
can pull. -/
theorem exists_yields_all (hn : c.solid < n) :
    ∃ made, Yields (all n c) (some (c.drain.1.map Lexeme.token ++ [Token.endOfInput])) made ∧
      made.events = c.drain.1.flatMap (Lexeme.events c.source) := by
  induction n generalizing c with
  | zero => exact absurd hn (Nat.not_lt_zero _)
  | succ n ih =>
    have hevents := c.events_pullTrace
    rcases hpull : c.pull with ⟨_ | lexeme, after⟩
    · rw [Cursor.drain_of_pull_none hpull]
      rw [hpull] at hevents
      exact ⟨c.pullTrace, yields_all_of_pull_none hpull, hevents⟩
    · have hmoves := (Cursor.pull_some hpull).2.2
      have hsolid := hmoves.solid_lt
      obtain ⟨made, hmade, hrest⟩ := ih (c := after) (by omega)
      rw [Cursor.drain_of_pull_some hpull]
      refine ⟨c.pullTrace ++ made, yields_all_of_pull_some hpull hmade, ?_⟩
      rw [Trace.events_append, hevents, hpull, hrest, hmoves.source_eq, Option.toList_some,
        List.flatMap_singleton, List.flatMap_cons]

end All

end Scan

/-! ## Cuts -/

/-- Bytes below 128 stand between characters. -/
lemma Cut.clean_of_lt {source : String} {as rest : List UInt8} {i : Nat}
    (hi : i ≤ source.utf8ByteSize) (h : (Text.bytes source).drop i = as ++ rest)
    (hlt : ∀ b ∈ as, b < 128) : Cut.Clean source ⟨i, i + as.length⟩ := by
  by_cases hnil : as = []
  · subst hnil
    exact ⟨Nat.le_refl _, hi, fun hstart => absurd hstart (Nat.lt_irrefl _)⟩
  · have hbytes := Text.bytes_ofList_ofUInt8 hlt
    have hne : String.ofList (as.map Char.ofUInt8) ≠ "" := by simpa using hnil
    rw [← hbytes] at h ⊢
    exact ⟨Nat.le_add_right .., Text.add_length_le_of_drop hne h,
      fun _ => Text.isBoundary_of_drop hne h⟩

/-- The cuts of a pull are clean wherever it starts inside a text. -/
theorem Cursor.clean_of_mem_pullTrace {c : Cursor} (hc : c.position ≤ c.source.utf8ByteSize) :
    ∀ cut ∈ c.pullTrace.cuts, cut.Clean c.source := by
  intro cut hcut
  cases hend : c.skipBlanks.atEnd with
  | true =>
    obtain ⟨hblank, hposition⟩ := blank_of_atEnd hend
    rw [pullTrace, hend, if_pos rfl, Trace.append_empty, List.mem_singleton, hposition] at hcut
    subst hcut
    exact Cut.clean_of_lt hc (List.append_nil _).symm fun b hb => lt_of_isBlank (hblank b hb)
  | false =>
    obtain ⟨p, rest, h⟩ := exists_faces hend
    rw [pullTrace, hend, if_neg Bool.false_ne_true, Trace.cuts_append, List.mem_append,
      List.mem_singleton] at hcut
    have hgap := Cut.clean_of_lt hc h.ahead_eq fun b hb => lt_of_isBlank (p.blank_gap b hb)
    rcases hcut with rfl | hcut
    · rwa [h.position_front]
    · by_cases hlt : c.skipBlanks.current < 128
      · rw [tokenTrace, if_pos hlt, List.mem_singleton, h.readToken_front, h.position_after] at hcut
        have hwide := (p.spells.lt_iff_of_mem h.current_mem).1 hlt
        rw [hcut]
        exact Cut.clean_of_lt (h.position_front ▸ hgap.stop_le) h.ahead_front
          (p.spells.lt_of_not_isWide hwide)
      · rw [tokenTrace, if_neg hlt] at hcut
        exact absurd hcut List.not_mem_nil

-- between the two bytes of a character, where a cut is clean only because it is empty
example : ¬ Text.IsBoundary "é" 1 ∧ (Cursor.afterPulls "é" 1).pullTrace =
    { cuts := [⟨1, 1⟩], events := [.illegalByte 0xA9 1] } :=
  ⟨by decide, by cbv⟩

/-- No cut of a scan fails or falls back to anything.  Wherever a number of pulls has led, be it
inside a character, the next one cuts between offsets in order and inside the text, and where such
a cut is not empty, its offsets lie between characters.  So each token has a text, unless it is the
end, and the text consists of the bytes from the front of the token to the place behind it, unless
the token is that of a byte above 127. -/
theorem cuts_are_clean (source : String) (n : Nat) :
    let c : Cursor := Cursor.afterPulls source n
    let start := c.skipBlanks.position
    let t := c.nextToken.1
    let after := c.nextToken.2
    ∃ trace, StateT.run (Scan.next c) {} = .ok ((t, after), trace) ∧
      (∀ cut ∈ trace.cuts, cut.Clean source) ∧
      (t.isEndOfInput = true ∨ t.text ≠ "") ∧
      (t.IsWide ∨
        Text.bytes t.text = ((Text.bytes source).drop start).take (after.position - start)) := by
  intro c start t after
  obtain ⟨hsource, hposition⟩ : c.source = source ∧ c.position ≤ source.utf8ByteSize :=
    Cursor.afterPulls_spec source n
  have hclean : ∀ cut ∈ c.pullTrace.cuts, cut.Clean source := by
    have hinside := c.clean_of_mem_pullTrace (by rwa [hsource])
    rwa [hsource] at hinside
  refine ⟨c.pullTrace, Scan.yields_next c {}, hclean, ?_⟩
  cases hend : c.skipBlanks.atEnd with
  | true =>
    have hnext := Cursor.nextToken_of_none (Cursor.pull_of_atEnd hend)
    have ht : t = Token.endOfInput := congrArg Prod.fst hnext
    have hafter : after.position = start := congrArg (Cursor.position ∘ Prod.snd) hnext
    rw [ht, hafter, Nat.sub_self, List.take_zero]
    exact ⟨Or.inl rfl, Or.inr rfl⟩
  | false =>
    obtain ⟨p, rest, h⟩ := Cursor.exists_faces hend
    have hnext := Cursor.nextToken_of_some h.pull_eq
    have ht : t = p.token := congrArg Prod.fst hnext
    have hafter : after.position = start + p.spelling.length :=
      (congrArg (Cursor.position ∘ Prod.snd) hnext).trans h.position_after
    have hahead : (Text.bytes source).drop start = p.spelling ++ rest := by
      rw [← hsource]
      exact h.ahead_front
    rw [ht, hafter, hahead, Nat.add_sub_cancel_left, List.take_left]
    refine ⟨Or.inr p.spells.text_ne_empty, or_iff_not_imp_left.2 fun hwide => ?_⟩
    exact (p.spells.eq_bytes_text_of_not_isWide hwide).symm

/-! ## Events -/

/-- Illegal bytes are reported wherever they stand and as often as they stand there.  Scanning a
text reports the bytes that are neither blank nor of a word, a number or a symbol, each with its
offset, in order; and the illegal tokens of the text are the characters with the values of these
bytes, in the same order. -/
theorem illegal_bytes_reported (source : String) :
    let start : Cursor := { source }
    let pulls := (Text.bytes source).countP (fun b => !isBlank b) + 1
    ∃ reported : List (UInt8 × Nat),
      reported.Pairwise (fun p q => p.2 < q.2) ∧
      (∀ b i, (b, i) ∈ reported ↔ Text.byteAt? source i = some b ∧ isBlank b = false ∧
        isLetter b = false ∧ isDigit b = false ∧ b ∉ symbolBytes) ∧
      (∃ trace, StateT.run (Scan.all pulls start) {} = .ok (some (tokenize source), trace) ∧
        trace.events = reported.map fun p => .illegalByte p.1 p.2) ∧
      (lexemes source).flatMap (Lexeme.events source) =
        reported.map (fun p => .illegalByte p.1 p.2) ∧
      (tokenize source).filter (fun t => t.kind == .illegal) =
        reported.map fun p => ⟨.illegal, String.singleton (Char.ofNat p.1.toNat)⟩ := by
  intro start pulls
  obtain ⟨made, hmade, hevents⟩ :=
    Scan.exists_yields_all (n := pulls) (c := start) (Nat.lt_succ_self _)
  refine ⟨illegalAt 0 (Text.bytes source), pairwise_illegalAt .., fun b i => ?_,
    ⟨made, hmade {}, hevents.trans (events_lexemes source)⟩, events_lexemes source, ?_⟩
  · rw [mem_illegalAt_iff, isIllegal_iff]
  · have hchar : ∀ b : UInt8, Token.illegal b =
        ⟨.illegal, String.singleton (Char.ofNat b.toNat)⟩ := fun b => by
      rw [← Text.toNat_ofUInt8, Char.ofNat_toNat]
      rfl
    have hend : [Token.endOfInput].filter (fun t => t.kind == .illegal) = [] := rfl
    rw [tokenize, List.filter_append, hend, List.append_nil, filter_tokens, ← map_fst_illegalAt 0,
      List.map_map]
    exact List.map_congr_left fun p _ => hchar p.1

end TokenStream

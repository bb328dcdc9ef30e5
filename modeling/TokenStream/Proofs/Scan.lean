import TokenStream.Proofs.Grammar

/-!
# Scanning is reading

What a cursor does depends only on the bytes ahead of it.  If these begin with a segment whose
token is as long as it could be, a pull yields that token and leaves the cursor behind it
(`pull_of_ahead`); if they are blank, it yields nothing; and there is no third case (`pull_cases`).
So the lexemes of a text are laid out as the segments of its reading (`lexemes_of_reads`), and since
every text has a reading, the tokens of a text are those of any of its readings (`tokens_eq_iff`).
-/

namespace TokenStream

namespace Cursor

variable {c : Cursor} {x : String} {rest : List UInt8}

/-- The bytes that a cursor has not read. -/
def ahead (c : Cursor) : List UInt8 := (Text.bytes c.source).drop c.position

lemma ahead_advance (c : Cursor) (n : Nat) : (c.advance n).ahead = c.ahead.drop n := by
  simp [ahead, advance, List.drop_drop]

lemma ahead_advance_of_append {as : List UInt8} (h : c.ahead = as ++ rest) :
    (c.advance as.length).ahead = rest := by
  rw [ahead_advance, h, List.drop_left]

lemma atEnd_iff (c : Cursor) : c.atEnd = true ↔ c.ahead = [] := by
  simp [atEnd, ahead, Text.length_bytes]

lemma current_eq (c : Cursor) : c.current = c.ahead.head?.getD Text.sentinel :=
  Text.byteAt_eq_head ..

lemma peek_eq (c : Cursor) : c.peek = (c.ahead.drop 1).head?.getD Text.sentinel := by
  rw [peek, Text.byteAt_eq_head, ahead, List.drop_drop]
  rfl

/-! ## One token -/

lemma take_of_ahead (hx : x ≠ "") (h : c.ahead = Text.bytes x ++ rest) :
    c.take (Text.bytes x).length = (x, c.advance (Text.bytes x).length) := by
  rw [take, slice, Text.slice_eq_of_drop hx h]

lemma eatWhile_eq_take (c : Cursor) (p : UInt8 → Bool) :
    c.eatWhile p = c.take (c.ahead.takeWhile p).length := by
  rw [eatWhile, Text.runEnd_eq, Nat.add_sub_cancel_left]
  rfl

lemma takeWhile_append_of_stop {p : UInt8 → Bool} {as : List UInt8} (hall : ∀ b ∈ as, p b = true)
    (hstop : ∀ b, rest.head? = some b → p b = false) : (as ++ rest).takeWhile p = as := by
  rw [List.takeWhile_append_of_pos hall]
  cases rest with
  | nil => exact List.append_nil as
  | cons b rest => rw [List.takeWhile_cons_of_neg (by simp [hstop b rfl]), List.append_nil]

lemma eatWhile_of_ahead {p : UInt8 → Bool} (hx : x ≠ "") (h : c.ahead = Text.bytes x ++ rest)
    (hall : ∀ b ∈ Text.bytes x, p b = true) (hstop : ∀ b, rest.head? = some b → p b = false) :
    c.eatWhile p = (x, c.advance (Text.bytes x).length) := by
  rw [eatWhile_eq_take, h, takeWhile_append_of_stop hall hstop, take_of_ahead hx h]

lemma skipBlanks_of_ahead {gap : List UInt8} (hgap : Blank gap) (h : c.ahead = gap ++ rest)
    (hstop : ∀ b, rest.head? = some b → isBlank b = false) :
    c.skipBlanks = c.advance gap.length := by
  rw [skipBlanks, eatWhile_eq_take, h, takeWhile_append_of_stop hgap hstop]
  rfl

lemma readToken_of_symbol? {kind : Kind} {width : Nat}
    (h : Kind.symbol? c.current c.peek = some (kind, width)) :
    c.readToken = (⟨kind, (c.take width).1⟩, (c.take width).2) := by
  rw [readToken, h]

lemma readToken_of_isLetter (h : isLetter c.current = true) :
    c.readToken = (Token.word (c.eatWhile isLetter).1, (c.eatWhile isLetter).2) := by
  have hsymbol : Kind.symbol? c.current c.peek = none :=
    Kind.symbol?_eq_none_iff.2 (classes_of_isLetter _ h).2.2.2
  rw [readToken, hsymbol]
  simp only [h, if_true]

lemma readToken_of_isDigit (h : isDigit c.current = true) :
    c.readToken = (⟨.int, (c.eatWhile isDigit).1⟩, (c.eatWhile isDigit).2) := by
  obtain ⟨-, -, hletter, hnone⟩ := classes_of_isDigit _ h
  have hsymbol : Kind.symbol? c.current c.peek = none := Kind.symbol?_eq_none_iff.2 hnone
  rw [readToken, hsymbol]
  simp only [hletter, h, if_true, Bool.false_eq_true, if_false]

lemma readToken_of_isIllegal (h : isIllegal c.current = true) :
    c.readToken = (Token.illegal c.current, c.advance) := by
  obtain ⟨-, hletter, hdigit, hnone⟩ := isIllegal_iff.1 h
  have hsymbol : Kind.symbol? c.current c.peek = none := Kind.symbol?_eq_none_iff.2 hnone
  rw [readToken, hsymbol]
  simp only [hletter, hdigit, Bool.false_eq_true, if_false]

/-- A word is read whole, and it is a reserved one exactly if it is spelled like it. -/
lemma readToken_word (hx : x ≠ "") (h : c.ahead = Text.bytes x ++ rest)
    (hletters : ∀ b ∈ Text.bytes x, isLetter b = true)
    (hstop : ∀ b, rest.head? = some b → isLetter b = false) :
    c.readToken = (Token.word x, c.advance (Text.bytes x).length) := by
  obtain ⟨b, more, hb⟩ := List.exists_cons_of_ne_nil (Text.bytes_ne_nil hx)
  have hcur : c.current = b := by rw [current_eq, h, hb]; rfl
  have hletter : isLetter b = true := hletters b (by simp [hb])
  rw [readToken_of_isLetter (hcur ▸ hletter), eatWhile_of_ahead hx h hletters hstop]

lemma readToken_number (hx : x ≠ "") (h : c.ahead = Text.bytes x ++ rest)
    (hdigits : ∀ b ∈ Text.bytes x, isDigit b = true)
    (hstop : ∀ b, rest.head? = some b → isDigit b = false) :
    c.readToken = (⟨.int, x⟩, c.advance (Text.bytes x).length) := by
  obtain ⟨b, more, hb⟩ := List.exists_cons_of_ne_nil (Text.bytes_ne_nil hx)
  have hcur : c.current = b := by rw [current_eq, h, hb]; rfl
  have hdigit : isDigit b = true := hdigits b (by simp [hb])
  rw [readToken_of_isDigit (hcur ▸ hdigit), eatWhile_of_ahead hx h hdigits hstop]

lemma readToken_symbol {kind : Kind} (hx : kind.spelling? = some x) (hkey : kind.isKeyword = false)
    (h : c.ahead = Text.bytes x ++ rest) (hstop : kind.Stops rest) :
    c.readToken = (⟨kind, x⟩, c.advance (Text.bytes x).length) := by
  obtain ⟨b, more, hb, hsymbol⟩ := Kind.symbol?_of_spelling hx hkey hstop
  have hcur : c.current = b := by rw [current_eq, h, hb]; rfl
  have hpeek : c.peek = (more ++ rest).head?.getD Text.sentinel := by rw [peek_eq, h, hb]; rfl
  have hne := (Spells.classes_of_fixed kind x hx).1
  rw [← hcur, ← hpeek] at hsymbol
  rw [readToken_of_symbol? hsymbol, take_of_ahead hne h]

lemma readToken_illegal {b : UInt8} (hb : isIllegal b = true) (h : c.ahead = b :: rest) :
    c.readToken = (Token.illegal b, c.advance) := by
  have hcur : c.current = b := by rw [current_eq, h]; rfl
  rw [readToken_of_isIllegal (hcur ▸ hb), hcur]

lemma word_of_isKeyword {kind : Kind} (hx : kind.spelling? = some x)
    (hkey : kind.isKeyword = true) : Token.word x = ⟨kind, x⟩ := by
  cases kind <;> simp only [Kind.isKeyword, Bool.false_eq_true] at hkey
  case keywordFn => obtain rfl := Option.some.inj hx; rfl
  case keywordLet => obtain rfl := Option.some.inj hx; rfl

lemma word_of_ne (hfn : x ≠ "fn") (hlet : x ≠ "let") : Token.word x = ⟨.ident, x⟩ := by
  have hnone : Keyword.find? x = none := by
    simp [Keyword.find?, Keyword.table, hfn.symm, hlet.symm]
  rw [Token.word, Keyword.resolve, hnone]
  rfl

/-- Where words go on, they go on with letters. -/
lemma stops_isLetter {kind : Kind} (hword : kind.isWord = true) (hstop : kind.Stops rest) :
    ∀ b, rest.head? = some b → isLetter b = false := by
  intro b hb
  by_contra hletter
  have hcont := Kind.continues_iff.2 (Or.inl ⟨hword, by simpa using hletter⟩)
  rw [hstop b hb] at hcont
  exact absurd hcont (by simp)

/-- A cursor in front of a spelling reads its token, unless the token would be read on. -/
theorem readToken_of_ahead {spelling : List UInt8} {t : Token} (hspells : Spells spelling t)
    (h : c.ahead = spelling ++ rest) (hstop : t.kind.Stops rest) :
    c.readToken = (t, c.advance spelling.length) := by
  cases hspells with
  | @fixed kind x hx =>
    cases hkey : kind.isKeyword with
    | false => exact readToken_symbol hx hkey h hstop
    | true =>
      -- a reserved word is read like any other word
      have hword : kind.isWord = true := by simp [Kind.isWord, hkey]
      obtain ⟨hne, hbytes⟩ := Spells.classes_of_fixed kind x hx
      have hletters : ∀ b ∈ Text.bytes x, isLetter b = true := fun b hb =>
        (hbytes b hb).2.1.trans hword
      rw [readToken_word hne h hletters (stops_isLetter hword hstop), word_of_isKeyword hx hkey]
  | @ident x hne hletters hfn hlet =>
    rw [readToken_word hne h hletters hstop, word_of_ne hfn hlet]
  | int hne hdigits => exact readToken_number hne h hdigits hstop
  | @illegal b c' hb hc =>
    obtain rfl := Text.eq_ofUInt8 hc
    exact readToken_illegal hb h

/-! ## Pulls -/

lemma advance_advance (c : Cursor) (m n : Nat) : (c.advance m).advance n = c.advance (m + n) := by
  simp [advance, Nat.add_assoc]

/-- A cursor in front of a segment yields its token and comes to stand behind it, unless the token
would be read on. -/
theorem pull_of_ahead (p : Segment) (h : c.ahead = p.bytes ++ rest)
    (hstop : p.token.kind.Stops rest) :
    c.pull = (some (p.lexeme c.position), c.advance p.bytes.length) := by
  rw [Segment.bytes, List.append_assoc] at h
  have hfront : c.skipBlanks = c.advance p.gap.length := by
    refine skipBlanks_of_ahead p.blank_gap h ?_
    intro b hb
    -- the blanks end where the spelling begins, for it has no blank in it
    rw [List.head?_append_of_ne_nil _ p.spells.ne_nil] at hb
    have hmem : b ∈ p.spelling := List.mem_of_mem_head? hb
    exact (p.spells.classes_of_mem hmem).1
  have hahead := ahead_advance_of_append h
  have hread := readToken_of_ahead p.spells hahead hstop
  have hend : (c.advance p.gap.length).atEnd = false := by
    rw [Bool.eq_false_iff, ne_eq, atEnd_iff, hahead]
    simp [p.spells.ne_nil]
  simp only [pull, hfront, hend, hread, Bool.false_eq_true, dite_false]
  simp [Segment.lexeme, Segment.bytes, advance, Nat.add_assoc]

lemma pull_of_blank (h : Blank c.ahead) : c.pull = (none, c.advance c.ahead.length) := by
  have hfront : c.skipBlanks = c.advance c.ahead.length :=
    skipBlanks_of_ahead h (List.append_nil _).symm (by simp)
  have hend : (c.advance c.ahead.length).atEnd = true := by
    rw [atEnd_iff, ahead_advance, List.drop_length]
  rw [pull_of_atEnd (hfront ▸ hend), hfront]

/-- All that a pull can do: pass over the blanks that are left, or take up the segment ahead. -/
theorem pull_cases (c : Cursor) :
    (Blank c.ahead ∧ c.pull = (none, c.advance c.ahead.length)) ∨
      ∃ (p : Segment) (rest : List UInt8), c.ahead = p.bytes ++ rest ∧
        c.pull = (some (p.lexeme c.position), c.advance p.bytes.length) := by
  obtain ⟨ps, tail, h⟩ := exists_reads c.ahead
  generalize hbs : c.ahead = bs at h
  cases h with
  | blank htail =>
    subst hbs
    exact Or.inl ⟨htail, pull_of_blank htail⟩
  | @segment rest _ ps p hstop _ => exact Or.inr ⟨p, rest, rfl, pull_of_ahead p hbs hstop⟩

/-- Draining a cursor yields the lexemes of a reading of the bytes ahead of it. -/
theorem drain_of_reads {bs tail : List UInt8} {ps : List Segment} (h : Reads bs ps tail)
    (hc : c.ahead = bs) : c.drain = (layout c.position ps, c.advance bs.length) := by
  induction h generalizing c with
  | blank htail =>
    subst hc
    exact drain_of_pull_none (pull_of_blank htail)
  | @segment rest tail ps p hstop h ih =>
    have hrest : (c.advance p.bytes.length).ahead = rest := ahead_advance_of_append hc
    rw [drain_of_pull_some (pull_of_ahead p hc hstop), ih hrest, advance_advance, layout,
      List.length_append]
    rfl

end Cursor

/-! ## Texts -/

variable {source : String} {tail : List UInt8} {ps : List Segment}

/-- The lexemes of a text are laid out as the segments of its reading. -/
theorem lexemes_of_reads (h : Reads (Text.bytes source) ps tail) :
    lexemes source = layout 0 ps := by
  rw [lexemes, Cursor.drain_of_reads h rfl]

lemma map_token_layout (start : Nat) (ps : List Segment) :
    (layout start ps).map Lexeme.token = ps.map Segment.token := by
  induction ps generalizing start with
  | nil => rfl
  | cons p ps ih => rw [layout, List.map_cons, List.map_cons, ih]; rfl

theorem tokens_of_reads (h : Reads (Text.bytes source) ps tail) :
    tokens source = ps.map Segment.token := by
  rw [tokens, lexemes_of_reads h, map_token_layout]

/-- Every token of a text has a spelling. -/
lemma exists_spells_of_mem {t : Token} (h : t ∈ tokens source) : ∃ bs, Spells bs t := by
  obtain ⟨ps, tail, hreads⟩ := exists_reads (Text.bytes source)
  rw [tokens_of_reads hreads] at h
  obtain ⟨p, -, rfl⟩ := List.mem_map.1 h
  exact ⟨p.spelling, p.spells⟩

/-- A text that spells a token has that token only. -/
lemma tokens_of_spells {t : Token} (h : Spells (Text.bytes source) t) : tokens source = [t] := by
  let p : Segment := ⟨[], Text.bytes source, t, by simp [Blank], h⟩
  have hreads : Reads (p.bytes ++ []) [p] [] :=
    Reads.segment p (Kind.stops_nil _) (Reads.blank (by simp [Blank]))
  rw [List.append_nil] at hreads
  exact tokens_of_reads hreads

/-- The tokens of a text are those of any reading of its bytes. -/
theorem tokens_eq_iff {ts : List Token} :
    tokens source = ts ↔
      ∃ ps tail, Reads (Text.bytes source) ps tail ∧ ps.map Segment.token = ts := by
  constructor
  · rintro rfl
    obtain ⟨ps, tail, h⟩ := exists_reads (Text.bytes source)
    exact ⟨ps, tail, h, (tokens_of_reads h).symm⟩
  · rintro ⟨ps, tail, h, rfl⟩
    exact tokens_of_reads h

end TokenStream

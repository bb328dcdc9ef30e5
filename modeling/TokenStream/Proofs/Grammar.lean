import Mathlib.Data.List.Chain
import TokenStream.Proofs.Spelling

/-!
# Readings of bytes

A reading of some bytes cuts them into segments and a gap behind the last: a segment is a gap of
blanks and the spelling of one token.  In a reading every token is as long as it could be, that is,
no token would have been read on over the byte behind it.

The main facts are

* `exists_reads`: all bytes have a reading, whether or not they are the bytes of a text;
* `Reads.append`: readings of two stretches make one of both, unless the last token of the first
  would be read on into the second;
* `Reads.split`: a reading may be cut in front of any of its spellings;
* `reads_iff`: that no token could be longer may be said of neighbouring segments instead, without
  a look at the byte behind.
-/

namespace TokenStream

/-- Bytes that only separate tokens. -/
def Blank (gap : List UInt8) : Prop := ∀ b ∈ gap, isBlank b = true

lemma Blank.append {as bs : List UInt8} (ha : Blank as) (hb : Blank bs) : Blank (as ++ bs) := by
  intro b hmem
  rcases List.mem_append.1 hmem with hmem | hmem
  · exact ha b hmem
  · exact hb b hmem

/-- A token with its spelling and the blanks in front of it. -/
structure Segment where
  gap : List UInt8
  spelling : List UInt8
  token : Token
  blank_gap : Blank gap
  spells : Spells spelling token

namespace Segment

/-- All bytes of a segment. -/
def bytes (p : Segment) : List UInt8 := p.gap ++ p.spelling

/-- The same token behind more blanks. -/
def indent (p : Segment) {more : List UInt8} (h : Blank more) : Segment where
  gap := more ++ p.gap
  spelling := p.spelling
  token := p.token
  blank_gap := h.append p.blank_gap
  spells := p.spells

/-- The token of a segment that begins at an offset, with its place. -/
def lexeme (p : Segment) (start : Nat) : Lexeme where
  token := p.token
  span :=
    { start := start + p.gap.length
      stop := start + p.gap.length + p.spelling.length }

/-- Whether the spellings of two neighbours would be read as one if nothing stood between them: two
words, two numbers, or an equals sign behind a symbol that takes it in. -/
def Fuses (p q : Segment) : Prop :=
  (p.token.kind.isWord = true ∧ q.token.kind.isWord = true) ∨
    (p.token.kind = .int ∧ q.token.kind = .int) ∨
    ((p.token.kind = .assign ∨ p.token.kind = .bang) ∧ q.spelling.head? = some '='.toUInt8)

lemma bytes_ne_nil (p : Segment) : p.bytes ≠ [] := by
  simp [bytes, p.spells.ne_nil]

lemma bytes_indent (p : Segment) {more : List UInt8} (h : Blank more) :
    (p.indent h).bytes = more ++ p.bytes :=
  List.append_assoc ..

lemma lexeme_indent (p : Segment) {more : List UInt8} (h : Blank more) (start : Nat) :
    (p.indent h).lexeme start = p.lexeme (start + more.length) := by
  simp [lexeme, indent, Nat.add_assoc]

end Segment

/-- The tokens of segments that follow each other from an offset on, with their places. -/
def layout (start : Nat) : List Segment → List Lexeme
  | [] => []
  | p :: ps => p.lexeme start :: layout (start + p.bytes.length) ps

/-- `Reads bs ps tail`: the bytes `bs` are the segments `ps` and the blanks `tail`, and each token
is as long as it could be. -/
inductive Reads : List UInt8 → List Segment → List UInt8 → Prop
  | blank {tail : List UInt8} (h : Blank tail) : Reads tail [] tail
  | segment {rest tail : List UInt8} {ps : List Segment} (p : Segment)
      (hstop : p.token.kind.Stops rest) (h : Reads rest ps tail) :
      Reads (p.bytes ++ rest) (p :: ps) tail

/-! ## All bytes have a reading -/

lemma head_dropWhile {α : Type} {p : α → Bool} {l more : List α} {a : α}
    (h : l.dropWhile p = a :: more) : p a = false := by
  have := List.head?_dropWhile_not p l
  simpa [h] using this

/-- Bytes of a class below 128 begin with a text that takes in as many of them as it can. -/
lemma exists_run {p : UInt8 → Bool} (hascii : ∀ b, p b = true → b < 128) {b : UInt8}
    (hb : p b = true) (more : List UInt8) :
    ∃ x rest, x ≠ "" ∧ (∀ c ∈ Text.bytes x, p c = true) ∧ b :: more = Text.bytes x ++ rest ∧
      ∀ c, rest.head? = some c → p c = false := by
  have hrun : ∀ c ∈ (b :: more).takeWhile p, p c = true := fun c hc => List.mem_takeWhile_imp hc
  have hbytes := Text.bytes_ofList_ofUInt8 fun c hc => hascii c (hrun c hc)
  refine ⟨_, (b :: more).dropWhile p, ?_, by rwa [hbytes], ?_, ?_⟩
  · rintro h0
    rw [h0, List.takeWhile_cons_of_pos hb] at hbytes
    exact absurd hbytes (by simp [Text.bytes])
  · rw [hbytes, List.takeWhile_append_dropWhile]
  · intro c hc
    obtain ⟨rest, hrest⟩ := List.head?_eq_some_iff.1 hc
    exact head_dropWhile hrest

/-- Bytes that do not begin with a blank begin with the spelling of a token that is as long as it
could be. -/
lemma exists_spelling {b : UInt8} (hblank : isBlank b = false) (more : List UInt8) :
    ∃ spelling token rest, Spells spelling token ∧ b :: more = spelling ++ rest ∧
      token.kind.Stops rest := by
  by_cases hletter : isLetter b = true
  · -- a word, whose kind depends on whether it is reserved
    obtain ⟨x, rest, hne, hletters, heq, hstop⟩ :=
      exists_run (fun c hc => (classes_of_isLetter c hc).1) hletter more
    by_cases hfn : x = "fn"
    · subst hfn
      exact ⟨_, ⟨.keywordFn, "fn"⟩, rest, Spells.fixed rfl, heq, hstop⟩
    by_cases hlet : x = "let"
    · subst hlet
      exact ⟨_, ⟨.keywordLet, "let"⟩, rest, Spells.fixed rfl, heq, hstop⟩
    exact ⟨_, _, rest, Spells.ident hne hletters hfn hlet, heq, hstop⟩
  by_cases hdigit : isDigit b = true
  · obtain ⟨x, rest, hne, hdigits, heq, hstop⟩ :=
      exists_run (fun c hc => (classes_of_isDigit c hc).1) hdigit more
    exact ⟨_, _, rest, Spells.int hne hdigits, heq, hstop⟩
  by_cases hsymbol : b ∈ symbolBytes
  · -- a symbol, of one byte or of two
    obtain ⟨kind, width, hread⟩ :=
      Kind.exists_symbol?_eq_some hsymbol (more.head?.getD Text.sentinel)
    obtain ⟨x, hx, hwidth⟩ := Kind.symbol?_eq_some hread
    rcases hwidth with ⟨hbytes, -, hstop⟩ | ⟨hbytes, -, hnext, hstop⟩
    · refine ⟨_, _, more, Spells.fixed hx, by rw [hbytes]; rfl, ?_⟩
      intro c hc
      rwa [hc] at hstop
    · cases more with
      | nil => exact absurd rfl hnext
      | cons c more =>
        exact ⟨_, _, more, Spells.fixed hx, by rw [hbytes]; rfl, fun c _ => hstop c⟩
  · -- a byte without a use
    have hill : isIllegal b = true :=
      isIllegal_iff.2 ⟨hblank, by simpa using hletter, by simpa using hdigit, hsymbol⟩
    exact ⟨_, _, more, Spells.illegal hill (Text.toNat_ofUInt8 b), rfl, fun _ _ => rfl⟩

theorem exists_reads (bs : List UInt8) : ∃ ps tail, Reads bs ps tail := by
  -- on the number of bytes: what is left behind a segment is shorter, for a spelling is not empty
  induction hn : bs.length using Nat.strongRecOn generalizing bs with
  | ind n ih =>
    have hgap : Blank (bs.takeWhile isBlank) := fun b hb => List.mem_takeWhile_imp hb
    have hcut := List.takeWhile_append_dropWhile (p := isBlank) (l := bs)
    cases hfront : bs.dropWhile isBlank with
    | nil =>
      rw [hfront, List.append_nil] at hcut
      exact ⟨[], bs, Reads.blank (hcut ▸ hgap)⟩
    | cons b more =>
      obtain ⟨spelling, token, rest, hspells, heq, hstop⟩ :=
        exists_spelling (head_dropWhile hfront) more
      let p : Segment := ⟨bs.takeWhile isBlank, spelling, token, hgap, hspells⟩
      have hbs : bs = p.bytes ++ rest := by
        rw [← hcut, hfront, heq, Segment.bytes, List.append_assoc]
      have hlen := congrArg List.length hbs
      have hpos := List.length_pos_iff.2 p.bytes_ne_nil
      rw [List.length_append] at hlen
      obtain ⟨ps, tail, h⟩ := ih rest.length (by omega) rest rfl
      exact ⟨p :: ps, tail, hbs ▸ Reads.segment p hstop h⟩

/-! ## Readings of two stretches -/

namespace Reads

variable {as bs tail tail' : List UInt8} {ps qs : List Segment}

lemma eq_flatMap (h : Reads bs ps tail) : bs = ps.flatMap Segment.bytes ++ tail := by
  induction h with
  | blank => rfl
  | segment p _ _ ih => rw [List.flatMap_cons, List.append_assoc, ← ih]

lemma blank_tail (h : Reads bs ps tail) : Blank tail := by
  induction h with
  | blank h => exact h
  | segment _ _ _ ih => exact ih

lemma eq_nil (h : Reads [] ps tail) : ps = [] ∧ tail = [] := by
  have heq := h.eq_flatMap
  cases ps with
  | nil => exact ⟨rfl, heq.symm⟩
  | cons p ps =>
    rw [List.flatMap_cons, List.append_assoc] at heq
    exact absurd (List.append_eq_nil_iff.1 heq.symm).1 p.bytes_ne_nil

/-- More blanks in front of a reading only move its tokens. -/
lemma prepend (hgap : Blank as) (h : Reads bs qs tail) :
    ∃ rs tail', Reads (as ++ bs) rs tail' ∧
      ∀ start, layout start rs = layout (start + as.length) qs := by
  cases h with
  | blank htail => exact ⟨[], _, Reads.blank (hgap.append htail), fun _ => rfl⟩
  | @segment rest _ ps p hstop h =>
    refine ⟨p.indent hgap :: ps, tail, ?_, fun start => ?_⟩
    · rw [← List.append_assoc, ← p.bytes_indent hgap]
      exact Reads.segment (p.indent hgap) hstop h
    · rw [layout, layout, p.lexeme_indent, p.bytes_indent, List.length_append, Nat.add_assoc]

/-- Two readings make one, unless the last token of the first would be read on into the second. -/
theorem append (h : Reads as ps tail) (h' : Reads bs qs tail')
    (hjoin : tail = [] → ∀ p ∈ ps.getLast?, p.token.kind.Stops bs) :
    ∃ rs tail'', Reads (as ++ bs) rs tail'' ∧
      ∀ start, layout start rs = layout start ps ++ layout (start + as.length) qs := by
  induction h with
  | blank htail => exact prepend htail h'
  | @segment rest tail ps p hstop h ih =>
    have hstop' : p.token.kind.Stops (rest ++ bs) := by
      by_cases hrest : rest = []
      · -- `p` is the last token of the first stretch, and no blanks follow it
        subst hrest
        obtain ⟨rfl, rfl⟩ := h.eq_nil
        exact hjoin rfl p (by simp)
      · exact (Kind.stops_append hrest bs).2 hstop
    obtain ⟨rs, tail'', hrs, hlay⟩ := ih fun htail q hq => hjoin htail q (by
      rw [List.getLast?_cons, Option.mem_def.1 hq]
      rfl)
    refine ⟨p :: rs, tail'', ?_, fun start => ?_⟩
    · rw [List.append_assoc]
      exact Reads.segment p hstop' hrs
    · rw [layout, hlay, layout, List.length_append, List.cons_append, Nat.add_assoc]

/-- A reading may be cut in front of any of its spellings.  The token before the cut would not
have been read on into that spelling. -/
theorem split {p : Segment} (h : Reads bs (ps ++ p :: qs) tail) :
    ∃ front rest, bs = front ++ (p.spelling ++ rest) ∧ Reads front ps p.gap ∧
      Reads rest qs tail ∧ p.token.kind.Stops rest ∧
      (p.gap = [] → ∀ r ∈ ps.getLast?, r.token.kind.Stops p.spelling) := by
  induction ps generalizing bs with
  | nil =>
    cases h with
    | @segment rest _ _ _ hstop h =>
      exact ⟨p.gap, rest, List.append_assoc .., Reads.blank p.blank_gap, h, hstop, by simp⟩
  | cons r ps ih =>
    cases h with
    | @segment more _ _ _ hstop h =>
      obtain ⟨front, rest, rfl, hfront, hrest, hp, hlast⟩ := ih h
      refine ⟨r.bytes ++ front, rest, (List.append_assoc ..).symm, ?_, hrest, hp, ?_⟩
      · -- what follows `r` in `front` begins as before, or is nothing
        refine Reads.segment r ?_ hfront
        by_cases hnil : front = []
        · exact hnil ▸ Kind.stops_nil _
        · exact (Kind.stops_append hnil _).1 hstop
      · intro hgap q hq
        rw [List.getLast?_cons, Option.mem_def, Option.some.injEq] at hq
        cases hps : ps.getLast? with
        | some r' =>
          rw [hps] at hq
          exact hlast hgap q (hps.trans (congrArg some hq))
        | none =>
          -- the token before the cut is the first one, and nothing stands between
          rw [hps] at hq
          obtain rfl : r = q := hq
          obtain rfl := List.getLast?_eq_none_iff.1 hps
          obtain rfl : front = [] := by rw [hfront.eq_flatMap, hgap]; rfl
          exact (Kind.stops_append p.spells.ne_nil rest).1 hstop

end Reads

/-! ## Readings by neighbouring segments -/

/-- Two spellings fuse exactly if the first token would be read on into the second spelling. -/
lemma Segment.fuses_iff {p q : Segment} : p.Fuses q ↔ ¬ p.token.kind.Stops q.spelling := by
  obtain ⟨b, more, hq⟩ := List.exists_cons_of_ne_nil q.spells.ne_nil
  obtain ⟨-, hletter, hdigit⟩ := q.spells.classes_of_mem (b := b) (by simp [hq])
  simp only [Segment.Fuses, Kind.not_stops_iff, Kind.continues_iff, hq, List.head?_cons,
    Option.some.injEq, exists_eq_left', hletter, hdigit, beq_iff_eq]

/-- A token stops before the next segment unless their spellings touch and fuse. -/
lemma Segment.stops_bytes_iff {p q : Segment} (rest : List UInt8) :
    p.token.kind.Stops (q.bytes ++ rest) ↔ (q.gap = [] → ¬ p.Fuses q) := by
  rw [Kind.stops_append q.bytes_ne_nil, Segment.fuses_iff, not_not, Segment.bytes]
  cases hgap : q.gap with
  | nil => simp
  | cons b gap =>
    have hb : isBlank b = true := q.blank_gap b (by simp [hgap])
    simp [Kind.stops_cons, continues_of_isBlank _ hb]

/-- A reading is a way to write the bytes as segments and blanks, such that no spellings that touch
would fuse. -/
theorem reads_iff {bs tail : List UInt8} {ps : List Segment} :
    Reads bs ps tail ↔ bs = ps.flatMap Segment.bytes ++ tail ∧ Blank tail ∧
      ps.IsChain fun p q => q.gap = [] → ¬ p.Fuses q := by
  constructor
  · intro h
    refine ⟨h.eq_flatMap, h.blank_tail, ?_⟩
    induction h with
    | blank => exact List.IsChain.nil
    | @segment rest tail ps p hstop h ih =>
      cases ps with
      | nil => exact List.IsChain.singleton p
      | cons q ps =>
        rw [h.eq_flatMap, List.flatMap_cons, List.append_assoc] at hstop
        exact List.IsChain.cons_cons ((Segment.stops_bytes_iff _).1 hstop) ih
  · rintro ⟨rfl, htail, hchain⟩
    induction ps with
    | nil => exact Reads.blank htail
    | cons p ps ih =>
      rw [List.flatMap_cons, List.append_assoc]
      refine Reads.segment p ?_ (ih hchain.tail)
      cases ps with
      | cons q ps =>
        rw [List.flatMap_cons, List.append_assoc]
        exact (Segment.stops_bytes_iff _).2 (List.isChain_cons_cons.1 hchain).1
      | nil =>
        -- behind the last token there are only blanks
        intro b hb
        exact continues_of_isBlank _ (htail b (List.mem_of_mem_head? hb))

end TokenStream

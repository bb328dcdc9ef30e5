import TokenStream.Log.Event
import TokenStream.Proofs.Scan

/-!
# Illegal bytes

Whether a byte is illegal does not depend on what stands around it.  No word, number, symbol or run
of blanks contains such a byte, and each is a token of its own: the illegal lexemes of a text are
its illegal bytes, one by one at their offsets (`filter_lexemes`).

So are the events of scanning it (`events_lexemes`).  They can be told stretch by stretch, which
makes it easy to follow them through a text that is scanned in pieces (`illegalAt_append`).
-/

namespace TokenStream

/-- The illegal bytes among some bytes, with their offsets if the first byte stands at `start`. -/
def illegalAt (start : Nat) (bs : List UInt8) : List (UInt8 × Nat) :=
  (bs.zipIdx start).filter fun p => isIllegal p.1

/-- The lexeme of an illegal byte at its offset. -/
def Lexeme.ofIllegal (p : UInt8 × Nat) : Lexeme where
  token := Token.illegal p.1
  span := { start := p.2, stop := p.2 + 1 }

/-- The event of an illegal byte at its offset. -/
def Event.ofIllegal (p : UInt8 × Nat) : Event := illegalByte p.1 p.2

lemma isIllegal_of_le (b : UInt8) : 128 ≤ b → isIllegal b = true := by
  revert b
  apply Text.forall_byte
  decide +kernel

lemma lt_of_not_isIllegal {b : UInt8} (h : isIllegal b = false) : b < 128 := by
  by_contra hle
  rw [isIllegal_of_le b (UInt8.not_lt.1 hle)] at h
  exact Bool.false_ne_true h.symm

lemma not_isIllegal_of_isBlank {b : UInt8} (h : isBlank b = true) : isIllegal b = false := by
  simp [isIllegal, h]

lemma Token.illegal_inj {a b : UInt8} : Token.illegal a = Token.illegal b ↔ a = b := by
  constructor
  · intro h
    have hchar := String.singleton_inj.1 (Token.mk.inj h).2
    have hnat := congrArg Char.toNat hchar
    rw [Text.toNat_ofUInt8, Text.toNat_ofUInt8] at hnat
    exact UInt8.toNat_inj.1 hnat
  · rintro rfl
    rfl

/-! ## Stretches of bytes -/

lemma illegalAt_append (start : Nat) (as bs : List UInt8) :
    illegalAt start (as ++ bs) = illegalAt start as ++ illegalAt (start + as.length) bs := by
  rw [illegalAt, List.zipIdx_append, List.filter_append]
  rfl

lemma illegalAt_of_not_isIllegal {bs : List UInt8} (h : ∀ b ∈ bs, isIllegal b = false)
    (start : Nat) : illegalAt start bs = [] := by
  rw [illegalAt, List.filter_eq_nil_iff]
  intro p hp
  rw [h p.1 (List.fst_mem_of_mem_zipIdx hp)]
  exact Bool.false_ne_true

lemma map_fst_illegalAt (start : Nat) (bs : List UInt8) :
    (illegalAt start bs).map Prod.fst = bs.filter isIllegal := by
  have hcomp : (fun p : UInt8 × Nat => isIllegal p.1) = isIllegal ∘ Prod.fst := rfl
  rw [illegalAt, hcomp, ← List.filter_map, List.zipIdx_map_fst]

/-- Every illegal byte is there with its offset, and nothing else. -/
lemma mem_illegalAt_iff {source : String} {b : UInt8} {i : Nat} :
    (b, i) ∈ illegalAt 0 (Text.bytes source) ↔
      Text.byteAt? source i = some b ∧ isIllegal b = true := by
  rw [illegalAt, List.mem_filter, List.mk_mem_zipIdx_iff_getElem?, Text.getElem?_bytes]

/-- The offsets ascend. -/
lemma pairwise_illegalAt (start : Nat) (bs : List UInt8) :
    (illegalAt start bs).Pairwise fun p q => p.2 < q.2 := by
  have hoffsets : ((bs.zipIdx start).map Prod.snd).Pairwise (· < ·) := by
    rw [List.zipIdx_map_snd]
    exact List.pairwise_lt_range'
  exact (List.pairwise_map.1 hoffsets).filter _

/-! ## Illegal tokens -/

namespace Spells

variable {bs : List UInt8} {t : Token}

/-- An illegal byte spells itself. -/
lemma eq_of_kind_eq_illegal (h : Spells bs t) (hkind : t.kind = .illegal) :
    ∃ b, bs = [b] ∧ t = Token.illegal b ∧ isIllegal b = true := by
  cases h with
  | fixed h =>
    obtain rfl := hkind
    exact absurd h (by simp [Kind.spelling?])
  | ident | int => exact absurd hkind (by simp)
  | @illegal b c h hc =>
    obtain rfl := Text.eq_ofUInt8 hc
    exact ⟨b, rfl, rfl, h⟩

/-- It occurs in no other spelling. -/
lemma not_isIllegal_of_mem (h : Spells bs t) (hkind : t.kind ≠ .illegal) :
    ∀ b ∈ bs, isIllegal b = false := by
  cases h with
  | @fixed kind x h =>
    have hall : (Text.bytes x).all (fun b => !isIllegal b) = true := by
      cases kind <;> simp only [Kind.spelling?, reduceCtorEq, Option.some.injEq] at h <;>
        subst h <;> rfl
    simpa using hall
  | ident hne hletters =>
    intro b hb
    simp [isIllegal, hletters b hb]
  | int hne hdigits =>
    intro b hb
    simp [isIllegal, hdigits b hb]
  | illegal => exact absurd rfl hkind

/-- The bytes of a token are illegal exactly if the token is. -/
lemma isIllegal_iff_of_mem {b : UInt8} (h : Spells bs t) (hb : b ∈ bs) :
    isIllegal b = true ↔ t.kind = .illegal := by
  constructor
  · intro hillegal
    by_contra hkind
    rw [h.not_isIllegal_of_mem hkind b hb] at hillegal
    exact Bool.false_ne_true hillegal
  · intro hkind
    obtain ⟨b', rfl, -, hillegal⟩ := h.eq_of_kind_eq_illegal hkind
    rwa [List.mem_singleton.1 hb]

end Spells

/-- The illegal byte of a segment is its token. -/
lemma Segment.illegalAt_bytes (p : Segment) (start : Nat) :
    (illegalAt start p.bytes).map Lexeme.ofIllegal =
      if p.token.kind = .illegal then [p.lexeme start] else [] := by
  have hgap : illegalAt start p.gap = [] := illegalAt_of_not_isIllegal
    (fun b hb => not_isIllegal_of_isBlank (p.blank_gap b hb)) start
  rw [bytes, illegalAt_append, hgap, List.nil_append]
  by_cases hkind : p.token.kind = .illegal
  · obtain ⟨b, hspelling, htoken, hb⟩ := p.spells.eq_of_kind_eq_illegal hkind
    rw [if_pos hkind, hspelling]
    simp [illegalAt, hb, Segment.lexeme, hspelling, htoken, Lexeme.ofIllegal]
  · rw [if_neg hkind, illegalAt_of_not_isIllegal (p.spells.not_isIllegal_of_mem hkind)]
    rfl

lemma filter_layout (start : Nat) (ps : List Segment) :
    (layout start ps).filter (fun lexeme => lexeme.token.kind == .illegal) =
      (illegalAt start (ps.flatMap Segment.bytes)).map Lexeme.ofIllegal := by
  induction ps generalizing start with
  | nil => rfl
  | cons p ps ih =>
    rw [List.flatMap_cons, illegalAt_append, List.map_append, p.illegalAt_bytes, ← ih, layout,
      List.filter_cons]
    by_cases hkind : p.token.kind = .illegal <;> simp [Segment.lexeme, hkind]

/-- The illegal lexemes of a text are its illegal bytes, each at its offset. -/
theorem filter_lexemes (source : String) :
    (lexemes source).filter (fun lexeme => lexeme.token.kind == .illegal) =
      (illegalAt 0 (Text.bytes source)).map Lexeme.ofIllegal := by
  obtain ⟨ps, tail, h⟩ := exists_reads (Text.bytes source)
  have htail : ∀ start, illegalAt start tail = [] := illegalAt_of_not_isIllegal
    fun b hb => not_isIllegal_of_isBlank (h.blank_tail b hb)
  rw [lexemes_of_reads h, filter_layout, h.eq_flatMap, illegalAt_append, htail, List.append_nil]

theorem filter_tokens (source : String) :
    (tokens source).filter (fun t => t.kind == .illegal) =
      ((Text.bytes source).filter isIllegal).map Token.illegal := by
  have htoken : Lexeme.token ∘ Lexeme.ofIllegal = Token.illegal ∘ Prod.fst := rfl
  have hcomp : (fun t : Token => t.kind == .illegal) ∘ Lexeme.token =
      fun lexeme => lexeme.token.kind == .illegal := rfl
  rw [tokens, List.filter_map, hcomp, filter_lexemes, List.map_map, htoken, ← List.map_map,
    map_fst_illegalAt]

lemma illegal_mem_tokens_iff {source : String} {b : UInt8} :
    Token.illegal b ∈ tokens source ↔ b ∈ Text.bytes source ∧ isIllegal b = true := by
  have hkind : (Token.illegal b).kind == .illegal := rfl
  have hmem : Token.illegal b ∈ (tokens source).filter (fun t => t.kind == .illegal) ↔
      Token.illegal b ∈ tokens source := by
    rw [List.mem_filter, and_iff_left hkind]
  rw [← hmem, filter_tokens, List.mem_map, ← List.mem_filter]
  simp only [Token.illegal_inj, exists_eq_right]

/-- A text of illegal bytes has each of them as a token. -/
lemma tokens_of_isIllegal {source : String} (h : ∀ b ∈ Text.bytes source, isIllegal b = true) :
    tokens source = (Text.bytes source).map Token.illegal := by
  have hreads : ∀ bs : List UInt8, (∀ b ∈ bs, isIllegal b = true) →
      ∃ ps, Reads bs ps [] ∧ ps.map Segment.token = bs.map Token.illegal := by
    intro bs hbs
    induction bs with
    | nil => exact ⟨[], Reads.blank (by simp [Blank]), rfl⟩
    | cons b bs ih =>
      obtain ⟨ps, hps, htokens⟩ := ih fun c hc => hbs c (List.mem_cons_of_mem _ hc)
      let p : Segment := ⟨[], [b], Token.illegal b, by simp [Blank],
        Spells.illegal (hbs b (List.mem_cons_self ..)) (Text.toNat_ofUInt8 b)⟩
      exact ⟨p :: ps, Reads.segment p (fun _ _ => rfl) hps, by simp [htokens, p]⟩
  obtain ⟨ps, hps, htokens⟩ := hreads _ h
  rw [tokens_of_reads hps, htokens]

/-! ## Events -/

/-- Scanning a text reports its illegal bytes, each at its offset, and nothing else. -/
theorem events_lexemes (source : String) :
    (lexemes source).flatMap (Lexeme.events source) =
      (illegalAt 0 (Text.bytes source)).map Event.ofIllegal := by
  have hevents : ∀ l : List Lexeme, l.flatMap (Lexeme.events source) =
      (l.filter fun lexeme => lexeme.token.kind == .illegal).flatMap (Lexeme.events source) := by
    intro l
    induction l with
    | nil => rfl
    | cons lexeme l ih =>
      rw [List.flatMap_cons, ih, List.filter_cons]
      by_cases hkind : lexeme.token.kind = .illegal <;> simp [Lexeme.events, hkind]
  rw [hevents, filter_lexemes, List.flatMap_map, List.map_eq_flatMap]
  refine List.flatMap_congr fun p hp => ?_
  obtain ⟨b, i⟩ := p
  have hget := List.mem_zipIdx_iff_getElem?.1 (List.mem_of_mem_filter hp)
  rw [Text.getElem?_bytes] at hget
  simp [Lexeme.events, Lexeme.ofIllegal, Event.ofIllegal, Token.illegal, Text.byteAt, hget]

end TokenStream

import TokenStream.Proofs.TokenTexts

/-!
# Attainable token streams

Not every list of tokens is scanned from some text.  Each token has to be well formed, that is, it
has to be spelled by its text.  And as the illegal bytes above 127 of a text belong to characters,
the bytes of several such tokens in a row have to make up characters again; blanks may stand
between the characters, but no other token can fall into one.

These are the only conditions (`exists_tokenize_iff`).  A text for a list that meets them consists
of the texts of its tokens and of the characters of its blocks of illegal bytes, with spaces
between them.
-/

namespace TokenStream

namespace Token

/-- What a token has to be like: a word that is not reserved, a number, an illegal byte, or the
spelling of a kind that is always written alike. -/
def WellFormed (t : Token) : Prop :=
  match t.kind with
  | .endOfInput => False
  | .ident =>
    t.text ≠ "" ∧ (∀ b ∈ Text.bytes t.text, isLetter b = true) ∧ Keyword.find? t.text = none
  | .int => t.text ≠ "" ∧ ∀ b ∈ Text.bytes t.text, isDigit b = true
  | .illegal => ∃ b, isIllegal b = true ∧ t.text = String.singleton (Char.ofUInt8 b)
  | kind => kind.spelling? = some t.text

/-- The token of a byte above 127. -/
def IsWide (t : Token) : Prop := ∃ b, 128 ≤ b ∧ t = illegal b

end Token

/-- Some bytes above 127 stand among the tokens as a block, without another one right before or
behind them. -/
def IsWideBlock (ts : List Token) (bs : List UInt8) : Prop :=
  ∃ before behind, ts = before ++ bs.map Token.illegal ++ behind ∧ (∀ b ∈ bs, 128 ≤ b) ∧
    (∀ t ∈ before.getLast?, ¬ t.IsWide) ∧ ∀ t ∈ behind.head?, ¬ t.IsWide

/-! ## Well-formed tokens -/

/-- A token is well formed if it has a spelling. -/
lemma Token.wellFormed_iff {t : Token} : t.WellFormed ↔ ∃ bs, Spells bs t := by
  constructor
  · intro h
    obtain ⟨kind, text⟩ := t
    cases kind
    case endOfInput => exact h.elim
    case ident =>
      obtain ⟨hne, hletters, hnone⟩ := h
      refine ⟨_, Spells.ident hne hletters ?_ ?_⟩
      · rintro rfl
        exact absurd hnone (by decide)
      · rintro rfl
        exact absurd hnone (by decide)
    case int => exact ⟨_, Spells.int h.1 h.2⟩
    case illegal =>
      obtain ⟨b, hb, htext⟩ := h
      obtain rfl : text = String.singleton (Char.ofUInt8 b) := htext
      exact ⟨[b], Spells.illegal hb (Text.toNat_ofUInt8 b)⟩
    all_goals exact ⟨_, Spells.fixed h⟩
  · rintro ⟨bs, h⟩
    cases h with
    | @fixed kind x h =>
      cases kind
      case illegal | endOfInput | ident | int => exact absurd h (by simp [Kind.spelling?])
      all_goals exact h
    | @ident x hne hletters hfn hlet =>
      have hnone : Keyword.find? x = none := by
        simp [Keyword.find?, Keyword.table, hfn.symm, hlet.symm]
      exact ⟨hne, hletters, hnone⟩
    | int hne hdigits => exact ⟨hne, hdigits⟩
    | @illegal b c hb hc => exact ⟨b, hb, by rw [Text.eq_ofUInt8 hc]⟩

lemma lt_of_isBlank {b : UInt8} (h : isBlank b = true) : b < 128 :=
  lt_of_not_isIllegal (not_isIllegal_of_isBlank h)

/-- Only the token of a byte above 127 is spelled with such a byte. -/
lemma Spells.lt_of_not_isWide {bs : List UInt8} {t : Token} (h : Spells bs t) (ht : ¬ t.IsWide) :
    ∀ b ∈ bs, b < 128 := by
  intro b hb
  by_cases hkind : t.kind = .illegal
  · obtain ⟨b', rfl, rfl, -⟩ := h.eq_of_kind_eq_illegal hkind
    obtain rfl := List.mem_singleton.1 hb
    by_contra hlt
    exact ht ⟨b, UInt8.not_lt.1 hlt, rfl⟩
  · exact lt_of_not_isIllegal (h.not_isIllegal_of_mem hkind b hb)

/-- The bytes of a token are above 127 exactly if it is the token of such a byte. -/
lemma Spells.lt_iff_of_mem {bs : List UInt8} {t : Token} {b : UInt8} (h : Spells bs t)
    (hb : b ∈ bs) : b < 128 ↔ ¬ t.IsWide := by
  refine ⟨?_, fun ht => h.lt_of_not_isWide ht b hb⟩
  rintro hlt ⟨b', hle, rfl⟩
  obtain ⟨b'', rfl, hinj, -⟩ := h.eq_of_kind_eq_illegal rfl
  obtain rfl := Token.illegal_inj.1 hinj
  obtain rfl := List.mem_singleton.1 hb
  exact absurd hlt (UInt8.not_lt.2 hle)

/-- Any other token is spelled by its text. -/
lemma Spells.eq_bytes_text_of_not_isWide {bs : List UInt8} {t : Token} (h : Spells bs t)
    (ht : ¬ t.IsWide) : bs = Text.bytes t.text := by
  by_cases hkind : t.kind = .illegal
  · obtain ⟨b, rfl, rfl, -⟩ := h.eq_of_kind_eq_illegal hkind
    have hlt : b < 128 := h.lt_of_not_isWide ht b (List.mem_singleton_self b)
    rw [Token.illegal, Text.bytes_singleton, Text.encode_ofUInt8 b hlt]
  · exact h.eq_bytes_text hkind

/-! ## The blocks of a text -/

/-- Apart from blanks, the segments of a block consist of its bytes. -/
lemma filter_flatMap_bytes {ps : List Segment} {bs : List UInt8} (hwide : ∀ b ∈ bs, 128 ≤ b)
    (h : ps.map Segment.token = bs.map Token.illegal) :
    (ps.flatMap Segment.bytes).filter (128 ≤ ·) = bs := by
  induction bs generalizing ps with
  | nil =>
    obtain rfl := List.map_eq_nil_iff.1 h
    rfl
  | cons b bs ih =>
    obtain ⟨p, ps, rfl, htoken, hps⟩ := List.map_eq_cons_iff.1 h
    obtain ⟨b', hspelling, htoken', -⟩ := p.spells.eq_of_kind_eq_illegal (by rw [htoken]; rfl)
    obtain rfl := Token.illegal_inj.1 (htoken.symm.trans htoken')
    have hgap : p.gap.filter (128 ≤ ·) = [] := by
      rw [List.filter_eq_nil_iff]
      intro c hc
      simpa using lt_of_isBlank (p.blank_gap c hc)
    have hb : 128 ≤ b := hwide b (List.mem_cons_self ..)
    rw [List.flatMap_cons, List.filter_append, ih (fun c hc => hwide c (List.mem_cons_of_mem _ hc))
      hps, Segment.bytes, List.filter_append, hgap, hspelling]
    simp [hb]

/-- The bytes of a block make up characters. -/
theorem exists_bytes_of_isWideBlock {source : String} {bs : List UInt8}
    (h : IsWideBlock (tokens source) bs) : ∃ x, Text.bytes x = bs := by
  obtain ⟨before, behind, hts, hwide, hbefore, hbehind⟩ := h
  obtain ⟨ps, tail, hreads⟩ := exists_reads (Text.bytes source)
  rw [tokens_of_reads hreads] at hts
  obtain ⟨front, back, rfl, hfront, rfl⟩ := List.map_eq_append_iff.1 hts
  obtain ⟨front, block, rfl, rfl, hblock⟩ := List.map_eq_append_iff.1 hfront
  have hsource := hreads.eq_flatMap
  rw [List.flatMap_append, List.flatMap_append, List.append_assoc, List.append_assoc] at hsource
  -- what stands before and behind the block is ASCII, so the text may be cut there
  have hleft : ∀ b ∈ (front.flatMap Segment.bytes).getLast?, b < 128 := by
    intro b hb
    rcases List.eq_nil_or_concat' front with rfl | ⟨front, p, rfl⟩
    · simp at hb
    · rw [Segment.getLast?_bytes] at hb
      exact p.spells.lt_of_not_isWide (hbefore _ (by simp)) b (List.mem_of_getLast? hb)
  have hright : ∀ b ∈ (back.flatMap Segment.bytes ++ tail).head?, b < 128 := by
    intro b hb
    cases back with
    | nil => exact lt_of_isBlank (hreads.blank_tail b (List.mem_of_mem_head? hb))
    | cons q back =>
      rw [List.flatMap_cons, List.append_assoc, List.head?_append_of_ne_nil _ q.bytes_ne_nil] at hb
      rcases List.mem_append.1 (List.mem_of_mem_head? hb) with hb | hb
      · exact lt_of_isBlank (q.blank_gap b hb)
      · exact q.spells.lt_of_not_isWide (hbehind _ rfl) b hb
  obtain ⟨-, rest, -, -, hrest⟩ := Text.exists_append_of_lt hsource (Or.inl hleft)
  obtain ⟨x, -, -, hx, -⟩ := Text.exists_append_of_lt hrest (Or.inr hright)
  refine ⟨String.ofList (x.toList.filter (128 ≤ ·.toNat)), ?_⟩
  rw [← Text.filter_bytes, hx, filter_flatMap_bytes hwide hblock]

/-! ## A text for a list of tokens -/

/-- A list of tokens begins with a block, which may be empty. -/
lemma exists_block (ts : List Token) : ∃ (bs : List UInt8) (behind : List Token),
    ts = bs.map Token.illegal ++ behind ∧ (∀ b ∈ bs, 128 ≤ b) ∧
      ∀ t ∈ behind.head?, ¬ t.IsWide := by
  induction ts with
  | nil => exact ⟨[], [], rfl, by simp, by simp⟩
  | cons t ts ih =>
    by_cases ht : t.IsWide
    · obtain ⟨b, hb, rfl⟩ := ht
      obtain ⟨bs, behind, rfl, hwide, hbehind⟩ := ih
      exact ⟨b :: bs, behind, rfl, by simpa [hb] using hwide, hbehind⟩
    · exact ⟨[], t :: ts, rfl, by simp, by simpa using ht⟩

/-- Behind a token that belongs to no block, the blocks are those of the whole list. -/
lemma IsWideBlock.of_append {front ts : List Token} {t : Token} {bs : List UInt8}
    (ht : ¬ t.IsWide) (h : IsWideBlock ts bs) : IsWideBlock (front ++ t :: ts) bs := by
  obtain ⟨before, behind, rfl, hwide, hbefore, hbehind⟩ := h
  refine ⟨front ++ t :: before, behind, by simp, hwide, ?_, hbehind⟩
  intro u hu
  rw [List.getLast?_append_of_ne_nil _ (List.cons_ne_nil _ _), List.getLast?_cons] at hu
  cases hlast : before.getLast? with
  | none =>
    rw [hlast] at hu
    obtain rfl : t = u := Option.some.inj hu
    exact ht
  | some v =>
    rw [hlast] at hu
    obtain rfl : v = u := Option.some.inj hu
    exact hbefore v hlast

/-- The text of a token that is not wide is scanned as this token. -/
lemma tokens_text_of_not_isWide {t : Token} (h : t.WellFormed) (ht : ¬ t.IsWide) :
    tokens t.text = [t] := by
  obtain ⟨bs, hspells⟩ := Token.wellFormed_iff.1 h
  obtain rfl := hspells.eq_bytes_text_of_not_isWide ht
  exact tokens_of_spells hspells

theorem exists_tokens_eq {ts : List Token} (hts : ∀ t ∈ ts, t.WellFormed)
    (hblocks : ∀ bs, IsWideBlock ts bs → ∃ x, Text.bytes x = bs) :
    ∃ source, tokens source = ts := by
  -- on the number of tokens: a first block and the token behind it are taken off at a time
  induction hn : ts.length using Nat.strongRecOn generalizing ts with
  | ind n ih =>
    obtain ⟨bs, behind, rfl, hwide, hbehind⟩ := exists_block ts
    obtain ⟨x, rfl⟩ := hblocks bs ⟨[], behind, rfl, hwide, by simp, hbehind⟩
    have hx : tokens x = (Text.bytes x).map Token.illegal :=
      tokens_of_isIllegal fun b hb => isIllegal_of_le b (hwide b hb)
    cases behind with
    | nil => exact ⟨x, by rw [hx, List.append_nil]⟩
    | cons t rest =>
      have ht : ¬ t.IsWide := hbehind t rfl
      have htext := tokens_text_of_not_isWide (hts t (by simp)) ht
      obtain ⟨source, hsource⟩ := ih rest.length (by simp at hn; omega)
        (fun u hu => hts u (by simp [hu])) (fun cs hcs => hblocks cs (hcs.of_append ht)) rfl
      refine ⟨" ".intercalate [x, t.text, source], ?_⟩
      rw [tokens_intercalate]
      simp [hx, htext, hsource]

/-- The lists of tokens that are scanned from a text are those of well-formed tokens in which the
bytes above 127 of every block are the bytes of a text. -/
theorem exists_tokenize_iff (ts : List Token) :
    (∃ source, tokenize source = ts ++ [Token.endOfInput]) ↔
      (∀ t ∈ ts, t.WellFormed) ∧ ∀ bs, IsWideBlock ts bs → ∃ x, Text.bytes x = bs := by
  simp only [tokenize, List.append_cancel_right_eq]
  constructor
  · rintro ⟨source, rfl⟩
    exact ⟨fun t ht => Token.wellFormed_iff.2 (exists_spells_of_mem ht),
      fun bs => exists_bytes_of_isWideBlock⟩
  · rintro ⟨hts, hblocks⟩
    exact exists_tokens_eq hts hblocks

end TokenStream

import TokenStream.Proofs.Scan

/-!
# Tokens of a concatenation

The tokens of a text in two parts are those of the parts, unless the parts fuse: the last token of
the first part would be read on into the second.  Two bytes at the seam mostly decide, but not for
an equals sign behind an equals sign, which may be the second half of a symbol that is complete.
The last token of the first part tells (`Fuse`).

A reading of the first part sees it all (`fuse_iff`): the parts fuse exactly if the reading ends
with a spelling, and not with blanks, and its token does not stop before the second part.  Then
the last token is read anew, together with the second part.
-/

namespace TokenStream

/-- The last token of a text reaches its end and is a symbol that takes in an equals sign. -/
def EndsOpen (a : String) : Prop :=
  ∃ last, (lexemes a).getLast? = some last ∧ last.span.stop = a.utf8ByteSize ∧
    (last.token.kind = .assign ∨ last.token.kind = .bang)

/-- Two texts fuse if letters meet, or digits meet, or an equals sign meets an equals sign or an
exclamation mark that is a token of its own. -/
def Fuse (a b : String) : Prop :=
  ∃ x y, (Text.bytes a).getLast? = some x ∧ (Text.bytes b).head? = some y ∧
    ((isLetter x = true ∧ isLetter y = true) ∨ (isDigit x = true ∧ isDigit y = true) ∨
      (y = '='.toUInt8 ∧ (x = '='.toUInt8 ∨ x = '!'.toUInt8) ∧ EndsOpen a))

/-- Whether a byte keeps what stands on its two sides apart. -/
def isInert (b : UInt8) : Bool :=
  !(isLetter b || isDigit b || b == '='.toUInt8 || b == '!'.toUInt8)

lemma isInert_of_isBlank (b : UInt8) : isBlank b = true → isInert b = true := by
  rw [isBlank_iff]
  revert b
  decide +kernel

lemma not_fuse_of_getLast? {a b : String}
    (h : ∀ x ∈ (Text.bytes a).getLast?, isInert x = true) : ¬ Fuse a b := by
  rintro ⟨x, y, hx, -, hseam⟩
  have hinert := h x hx
  rcases hseam with ⟨hl, -⟩ | ⟨hd, -⟩ | ⟨-, heq, -⟩
  · simp [isInert, hl] at hinert
  · simp [isInert, hd] at hinert
  · rcases heq with rfl | rfl <;> exact absurd hinert (by decide)

lemma not_fuse_of_head? {a b : String}
    (h : ∀ y ∈ (Text.bytes b).head?, isInert y = true) : ¬ Fuse a b := by
  rintro ⟨x, y, -, hy, hseam⟩
  have hinert := h y hy
  rcases hseam with ⟨-, hl⟩ | ⟨-, hd⟩ | ⟨rfl, -⟩
  · simp [isInert, hl] at hinert
  · simp [isInert, hd] at hinert
  · exact absurd hinert (by decide)

/-! ## The end of a reading -/

lemma layout_append (start : Nat) (ps qs : List Segment) :
    layout start (ps ++ qs) =
      layout start ps ++ layout (start + (ps.flatMap Segment.bytes).length) qs := by
  induction ps generalizing start with
  | nil => rfl
  | cons p ps ih =>
    rw [List.cons_append, layout, layout, ih, List.cons_append, List.flatMap_cons,
      List.length_append, Nat.add_assoc]

/-- A token whose kind is always written alike has that text. -/
lemma Spells.text_eq {bs : List UInt8} {t : Token} {x : String} (h : Spells bs t)
    (hx : t.kind.spelling? = some x) : t.text = x := by
  cases h with
  | fixed h => exact Option.some.inj (h.symm.trans hx)
  | ident | int | illegal => exact absurd hx (by simp [Kind.spelling?])

/-- A symbol that takes in an equals sign is spelled by a single byte. -/
lemma Spells.eq_singleton {bs : List UInt8} {t : Token} (h : Spells bs t)
    (hkind : t.kind = .assign ∨ t.kind = .bang) :
    bs = ['='.toUInt8] ∨ bs = ['!'.toUInt8] := by
  have hbytes := h.eq_bytes_text (by rcases hkind with hk | hk <;> simp [hk])
  rcases hkind with hk | hk
  · have htext : t.text = "=" := h.text_eq (by rw [hk]; rfl)
    rw [htext] at hbytes
    exact Or.inl hbytes
  · have htext : t.text = "!" := h.text_eq (by rw [hk]; rfl)
    rw [htext] at hbytes
    exact Or.inr hbytes

/-- Segments end with the last byte of the last spelling. -/
lemma Segment.getLast?_bytes (front : List Segment) (p : Segment) :
    ((front ++ [p]).flatMap Segment.bytes).getLast? = p.spelling.getLast? := by
  rw [List.flatMap_append, List.flatMap_singleton, Segment.bytes, ← List.append_assoc,
    List.getLast?_append_of_ne_nil _ p.spells.ne_nil]

namespace Reads

variable {bs tail : List UInt8} {ps : List Segment}

/-- Bytes that do not end with a blank end with the spelling of their last token. -/
lemma exists_last {x : UInt8} (h : Reads bs ps tail) (hx : bs.getLast? = some x)
    (hblank : isBlank x = false) :
    tail = [] ∧ ∃ front p, ps = front ++ [p] ∧ x ∈ p.spelling := by
  rw [h.eq_flatMap] at hx
  have htail : tail = [] := by
    by_contra hne
    rw [List.getLast?_append_of_ne_nil _ hne] at hx
    have := h.blank_tail x (List.mem_of_getLast? hx)
    simp [hblank] at this
  subst htail
  rw [List.append_nil] at hx
  refine ⟨rfl, ?_⟩
  rcases List.eq_nil_or_concat' ps with rfl | ⟨front, p, rfl⟩
  · simp at hx
  · refine ⟨front, p, rfl, ?_⟩
    rw [Segment.getLast?_bytes] at hx
    exact List.mem_of_getLast? hx

end Reads

variable {a b : String} {tail : List UInt8} {ps : List Segment}

/-- The last lexeme of a text whose reading ends with a spelling. -/
lemma getLast?_lexemes {front : List Segment} {p : Segment}
    (h : Reads (Text.bytes a) (front ++ [p]) []) :
    ∃ last, (lexemes a).getLast? = some last ∧ last.span.stop = a.utf8ByteSize ∧
      last.token = p.token := by
  refine ⟨p.lexeme (front.flatMap Segment.bytes).length, ?_, ?_, rfl⟩
  · simp [lexemes_of_reads h, layout_append, layout]
  · have hlen := congrArg List.length h.eq_flatMap
    simp only [Text.length_bytes, List.flatMap_append, List.flatMap_singleton, Segment.bytes,
      List.length_append, List.append_nil] at hlen
    simp only [Segment.lexeme, hlen]
    omega

/-- Two texts fuse exactly if a reading of the first ends with a spelling whose token does not stop
before the second. -/
theorem fuse_iff (h : Reads (Text.bytes a) ps tail) :
    Fuse a b ↔ tail = [] ∧ ∃ p ∈ ps.getLast?, ¬ p.token.kind.Stops (Text.bytes b) := by
  constructor
  · rintro ⟨x, y, hx, hy, hseam⟩
    have hblank : isBlank x = false := by
      rcases hseam with ⟨hletter, -⟩ | ⟨hdigit, -⟩ | ⟨-, rfl | rfl, -⟩
      · exact (classes_of_isLetter x hletter).2.1
      · exact (classes_of_isDigit x hdigit).2.1
      · rfl
      · rfl
    -- the last byte of the first text is a byte of its last spelling
    obtain ⟨rfl, front, p, rfl, hmem⟩ := h.exists_last hx hblank
    refine ⟨rfl, p, by simp, Kind.not_stops_iff.2 ⟨y, hy, Kind.continues_iff.2 ?_⟩⟩
    obtain ⟨-, hword, hint⟩ := p.spells.classes_of_mem hmem
    rcases hseam with ⟨hxl, hyl⟩ | ⟨hxd, hyd⟩ | ⟨rfl, -, last, hlast, -, hkind⟩
    · exact Or.inl ⟨hword.symm.trans hxl, hyl⟩
    · exact Or.inr (Or.inl ⟨beq_iff_eq.1 (hint.symm.trans hxd), hyd⟩)
    · obtain ⟨last', hlast', -, htoken⟩ := getLast?_lexemes h
      obtain rfl := Option.some.inj (hlast.symm.trans hlast')
      exact Or.inr (Or.inr ⟨htoken ▸ hkind, rfl⟩)
  · rintro ⟨rfl, p, hp, hstop⟩
    obtain ⟨front, rfl⟩ := List.getLast?_eq_some_iff.1 hp
    obtain ⟨y, hy, hcont⟩ := Kind.not_stops_iff.1 hstop
    obtain ⟨x, hx⟩ : ∃ x, p.spelling.getLast? = some x :=
      ⟨_, List.getLast?_eq_some_getLast p.spells.ne_nil⟩
    have hxa : (Text.bytes a).getLast? = some x := by
      rw [h.eq_flatMap, List.append_nil, Segment.getLast?_bytes, hx]
    obtain ⟨-, hword, hint⟩ := p.spells.classes_of_mem (List.mem_of_getLast? hx)
    refine ⟨x, y, hxa, hy, ?_⟩
    rcases Kind.continues_iff.1 hcont with ⟨hkind, hyl⟩ | ⟨hkind, hyd⟩ | ⟨hkind, rfl⟩
    · exact Or.inl ⟨hword.trans hkind, hyl⟩
    · exact Or.inr (Or.inl ⟨hint.trans (beq_iff_eq.2 hkind), hyd⟩)
    · obtain ⟨last, hlast, hstop, htoken⟩ := getLast?_lexemes h
      have hbyte : x = '='.toUInt8 ∨ x = '!'.toUInt8 := by
        rcases p.spells.eq_singleton hkind with hs | hs
        · rw [hs] at hx
          exact Or.inl (Option.some.inj hx).symm
        · rw [hs] at hx
          exact Or.inr (Option.some.inj hx).symm
      exact Or.inr (Or.inr ⟨rfl, hbyte, last, hlast, hstop, htoken ▸ hkind⟩)

lemma stops_of_not_fuse (hreads : Reads (Text.bytes a) ps tail) (h : ¬ Fuse a b) :
    tail = [] → ∀ p ∈ ps.getLast?, p.token.kind.Stops (Text.bytes b) := by
  intro htail p hp
  by_contra hcont
  exact h ((fuse_iff hreads).2 ⟨htail, p, hp, hcont⟩)

/-! ## The seam -/

lemma tokens_append_of_layout {as bs tail tail' : List UInt8} {ps qs : List Segment}
    (h : Reads as ps tail) (h' : Reads bs qs tail')
    (hjoin : tail = [] → ∀ p ∈ ps.getLast?, p.token.kind.Stops bs)
    (hab : Text.bytes a = as ++ bs) :
    tokens a = ps.map Segment.token ++ qs.map Segment.token := by
  obtain ⟨rs, tail'', hrs, hlay⟩ := h.append h' hjoin
  rw [tokens, lexemes_of_reads (hab ▸ hrs), hlay, List.map_append, map_token_layout,
    map_token_layout]

theorem tokens_append_of_not_fuse (h : ¬ Fuse a b) : tokens (a ++ b) = tokens a ++ tokens b := by
  obtain ⟨ps, tail, hps⟩ := exists_reads (Text.bytes a)
  obtain ⟨qs, tail', hqs⟩ := exists_reads (Text.bytes b)
  rw [tokens_of_reads hps, tokens_of_reads hqs]
  exact tokens_append_of_layout hps hqs (stops_of_not_fuse hps h) (Text.bytes_append a b)

lemma tokens_of_blank (h : Blank (Text.bytes a)) : tokens a = [] :=
  tokens_of_reads (Reads.blank h)

/-- Blanks at the end make no difference. -/
theorem tokens_append_of_blank (h : Blank (Text.bytes b)) : tokens (a ++ b) = tokens a := by
  have hfuse : ¬ Fuse a b :=
    not_fuse_of_head? fun y hy => isInert_of_isBlank y (h y (List.mem_of_mem_head? hy))
  rw [tokens_append_of_not_fuse hfuse, tokens_of_blank h, List.append_nil]

/-- A reading that begins with a spelling begins without blanks. -/
lemma Reads.gap_eq_nil {spelling rest tail : List UInt8} {t : Token} {q : Segment}
    {qs : List Segment} (hspells : Spells spelling t)
    (h : Reads (spelling ++ rest) (q :: qs) tail) : q.gap = [] := by
  obtain ⟨b, more, rfl⟩ := List.exists_cons_of_ne_nil hspells.ne_nil
  have heq := h.eq_flatMap
  rw [List.flatMap_cons, Segment.bytes] at heq
  cases hgap : q.gap with
  | nil => rfl
  | cons b' gap =>
    rw [hgap] at heq
    obtain rfl : b = b' := (List.cons.inj heq).1
    have hblank := q.blank_gap b (by simp [hgap])
    rw [(hspells.classes_of_mem (b := b) (by simp)).1] at hblank
    exact absurd hblank (by simp)

/-- Where a token does not stop, it is not the first to be read from its own spelling on. -/
lemma Reads.head_ne {tail : List UInt8} {t : Token} {qs : List Segment}
    (hspells : Spells (Text.bytes t.text) t) (hkind : t.kind ≠ .illegal)
    (hcont : ¬ t.kind.Stops (Text.bytes b))
    (h : Reads (Text.bytes t.text ++ Text.bytes b) qs tail) :
    (qs.map Segment.token).head? ≠ some t := by
  cases qs with
  | nil => simp
  | cons q qs =>
    intro hq
    obtain rfl : q.token = t := Option.some.inj hq
    have hgap := h.gap_eq_nil hspells
    have hspelling := q.spells.eq_bytes_text hkind
    -- the same token has the same spelling, so it would end where `b` begins
    generalize hbs : Text.bytes q.token.text ++ Text.bytes b = bs at h
    cases h with
    | @segment rest _ _ _ hstop h =>
      rw [Segment.bytes, hgap, hspelling, List.nil_append] at hbs
      exact hcont (List.append_cancel_left hbs ▸ hstop)

/-- Where two texts fuse, the last token of the first is read anew, together with the second, and
becomes another one. -/
theorem tokens_append_of_fuse (h : Fuse a b) : ∃ front t, tokens a = front ++ [t] ∧
    tokens (a ++ b) = front ++ tokens (t.text ++ b) ∧ (tokens (t.text ++ b)).head? ≠ some t := by
  obtain ⟨ps, tail, hps⟩ := exists_reads (Text.bytes a)
  obtain ⟨rfl, p, hp, hcont⟩ := (fuse_iff hps).1 h
  obtain ⟨front, rfl⟩ := List.getLast?_eq_some_iff.1 hp
  have hkind : p.token.kind ≠ .illegal := by
    intro hk
    exact hcont fun _ _ => by rw [hk]; rfl
  have hspelling := p.spells.eq_bytes_text hkind
  -- what stands in front of the last spelling keeps its reading
  obtain ⟨as, rest, has, hfront, hrest, -, hlast⟩ := hps.split
  obtain ⟨qs, tail', hqs⟩ := exists_reads (Text.bytes (p.token.text ++ b))
  have hrest' : rest = [] := by rw [hrest.eq_flatMap]; rfl
  have hseam : Text.bytes (a ++ b) = as ++ Text.bytes (p.token.text ++ b) := by
    rw [Text.bytes_append, Text.bytes_append, has, hrest', hspelling, List.append_nil,
      List.append_assoc]
  refine ⟨front.map Segment.token, p.token, ?_, ?_, ?_⟩
  · rw [tokens_of_reads hps, List.map_append]
    rfl
  · rw [tokens_of_reads hqs]
    refine tokens_append_of_layout hfront hqs (fun hgap r hr => ?_) hseam
    rw [Text.bytes_append, ← hspelling]
    exact (Kind.stops_append p.spells.ne_nil _).2 (hlast hgap r hr)
  · rw [tokens_of_reads hqs]
    rw [Text.bytes_append] at hqs
    exact hqs.head_ne (hspelling ▸ p.spells) hkind hcont

/-- The last token of the first text is not the first one to be read anew. -/
lemma tokens_append_ne_of_fuse (h : Fuse a b) : tokens (a ++ b) ≠ tokens a ++ tokens b := by
  obtain ⟨front, t, ha, hab, hhead⟩ := tokens_append_of_fuse h
  intro heq
  rw [hab, ha, List.append_assoc, List.append_cancel_left_eq] at heq
  exact hhead (by rw [heq]; rfl)

/-- The tokens of a concatenation.  They are those of the parts exactly if the parts do not fuse;
all tokens of the first part but its last stay in any case, and if the parts fuse, the last one is
read anew together with the second part. -/
theorem tokens_append (a b : String) :
    (tokens (a ++ b) = tokens a ++ tokens b ↔ ¬ Fuse a b) ∧
      (tokens a).dropLast <+: tokens (a ++ b) ∧
      (Fuse a b → ∃ t, (tokens a).getLast? = some t ∧
        tokens (a ++ b) = (tokens a).dropLast ++ tokens (t.text ++ b)) := by
  by_cases h : Fuse a b
  · obtain ⟨front, t, ha, hab, -⟩ := tokens_append_of_fuse h
    have hdrop : (tokens a).dropLast = front := by rw [ha, List.dropLast_concat]
    refine ⟨iff_of_false (tokens_append_ne_of_fuse h) (not_not.2 h), ?_, ?_⟩
    · rw [hdrop, hab]
      exact List.prefix_append ..
    · intro _
      refine ⟨t, ?_, ?_⟩
      · rw [ha, List.getLast?_concat]
      · rw [hdrop, hab]
  · have hab := tokens_append_of_not_fuse h
    have hprefix : (tokens a).dropLast <+: tokens a := List.dropLast_prefix _
    refine ⟨iff_of_true hab h, ?_, ?_⟩
    · rw [hab]
      exact hprefix.trans (List.prefix_append ..)
    · intro hfuse
      exact absurd hfuse h

end TokenStream

import TokenStream.Proofs.Concatenation

/-!
# Blanks between tokens

Blanks may be inserted everywhere but inside a token.  There they cut the token in two, which is
always noticed; elsewhere they change nothing (`tokenize_insert_blanks`).

What is to be shown is that two parts of a text fuse exactly if a token of the text crosses the cut
between them.  A text whose parts do not fuse is laid out as its parts are, so each of its tokens
lies in one of them; and a reading that no token crosses at some offset may be cut there
(`Reads.cut`).  Hence it does not matter either how many blanks stand in a place, nor which
(`tokens_normalized`).
-/

namespace TokenStream

/-- The characters that only separate tokens. -/
def isBlankChar (c : Char) : Bool := c == ' ' || c == '\t' || c == '\n' || c == '\r'

lemma blank_of_isBlankChar {cs : List Char} (h : ∀ c ∈ cs, isBlankChar c = true) :
    Blank (Text.bytes (String.ofList cs)) := by
  intro b hb
  rw [Text.bytes_ofList, List.mem_flatMap] at hb
  obtain ⟨c, hc, hb⟩ := hb
  have hblank := h c hc
  simp only [isBlankChar, Bool.or_eq_true, beq_iff_eq] at hblank
  rcases hblank with ((rfl | rfl) | rfl) | rfl <;> obtain rfl := List.mem_singleton.1 hb <;> rfl

/-! ## Cutting a reading -/

/-- The lexemes of some segments lie between the two ends of these. -/
lemma le_of_mem_layout {start : Nat} {ps : List Segment} {lexeme : Lexeme}
    (h : lexeme ∈ layout start ps) :
    start ≤ lexeme.span.start ∧
      lexeme.span.stop ≤ start + (ps.flatMap Segment.bytes).length := by
  induction ps generalizing start with
  | nil => simp [layout] at h
  | cons p ps ih =>
    rw [List.flatMap_cons, List.length_append]
    rcases List.mem_cons.1 h with rfl | h
    · have hlen : p.bytes.length = p.gap.length + p.spelling.length := List.length_append
      simp only [Segment.lexeme]
      omega
    · have := ih h
      omega

/-- An offset lies strictly inside a span. -/
def Span.Crosses (s : Span) (p : Nat) : Prop := s.start < p ∧ p < s.stop

/-- A cut that does not cross the token of a segment lies in its gap or behind its spelling. -/
lemma Segment.cut {p : Segment} {as back : List UInt8} {start : Nat} (hp : p.bytes = as ++ back)
    (hno : ¬ (p.lexeme start).span.Crosses (start + as.length)) :
    back = [] ∨ ∃ gap, p.gap = as ++ gap ∧ back = gap ++ p.spelling := by
  rcases List.append_eq_append_iff.1 hp with ⟨spelling, rfl, hs⟩ | ⟨gap, hgap, rfl⟩
  · -- so much of the spelling stands before the cut: nothing or all
    have hlen := congrArg List.length hs
    rw [List.length_append] at hlen
    simp only [Span.Crosses, lexeme, List.length_append] at hno
    by_cases hspelling : spelling = []
    · subst hspelling
      exact Or.inr ⟨[], by simp, by simpa using hs.symm⟩
    · have hpos := List.length_pos_iff.2 hspelling
      refine Or.inl (List.length_eq_zero_iff.1 ?_)
      omega
  · exact Or.inr ⟨gap, hgap, rfl⟩

/-- A reading may be cut where none of its tokens lies. -/
theorem Reads.cut {as bs tail : List UInt8} {rs : List Segment} {start : Nat}
    (h : Reads (as ++ bs) rs tail)
    (hno : ∀ lexeme ∈ layout start rs, ¬ lexeme.span.Crosses (start + as.length)) :
    ∃ ps qs tail' tail'', Reads as ps tail' ∧ Reads bs qs tail'' ∧
      rs.map Segment.token = ps.map Segment.token ++ qs.map Segment.token := by
  generalize hzs : as ++ bs = zs at h
  induction h generalizing as start with
  | blank htail =>
    subst hzs
    refine ⟨[], [], as, bs, Reads.blank fun b hb => ?_, Reads.blank fun b hb => ?_, rfl⟩
    · exact htail b (List.mem_append_left _ hb)
    · exact htail b (List.mem_append_right _ hb)
  | @segment rest tail ps p hstop h ih =>
    rcases List.append_eq_append_iff.1 hzs with ⟨back, hp, rfl⟩ | ⟨front, rfl, rfl⟩
    · rcases Segment.cut hp (hno _ (List.mem_cons_self ..)) with rfl | ⟨gap, hgap, rfl⟩
      · -- the cut lies between the first segment and the others
        rw [List.append_nil] at hp
        subst hp
        refine ⟨[p], ps, [], tail, ?_, h, rfl⟩
        have hend : Reads [] [] [] := Reads.blank (by simp [Blank])
        have hone := Reads.segment p (Kind.stops_nil _) hend
        rwa [List.append_nil] at hone
      · -- the cut lies in the gap before the first token
        have hblank : Blank as ∧ Blank gap := by
          have := p.blank_gap
          rw [hgap] at this
          exact ⟨fun b hb => this b (List.mem_append_left _ hb),
            fun b hb => this b (List.mem_append_right _ hb)⟩
        let q : Segment := { p with gap, blank_gap := hblank.2 }
        exact ⟨[], q :: ps, as, tail, Reads.blank hblank.1, Reads.segment q hstop h, rfl⟩
    · -- the cut lies behind the first segment
      have hback : ∀ lexeme ∈ layout (start + p.bytes.length) ps,
          ¬ lexeme.span.Crosses (start + p.bytes.length + front.length) := by
        intro lexeme hl
        have := hno lexeme (List.mem_cons_of_mem _ hl)
        rwa [List.length_append, ← Nat.add_assoc] at this
      obtain ⟨qs, rs, tail', tail'', hqs, hrs, htokens⟩ := ih hback rfl
      refine ⟨p :: qs, rs, tail', tail'', Reads.segment p ?_ hqs, hrs, ?_⟩
      · by_cases hnil : front = []
        · exact hnil ▸ Kind.stops_nil _
        · exact (Kind.stops_append hnil _).1 hstop
      · rw [List.map_cons, htokens, List.map_cons, List.cons_append]

/-! ## Tokens that cross a cut -/

section Crossing

variable {a b w : String}

/-- Where two texts do not fuse, every token of their concatenation lies in one of them. -/
lemma not_crosses_of_not_fuse (h : ¬ Fuse a b) :
    ∀ lexeme ∈ lexemes (a ++ b), ¬ lexeme.span.Crosses a.utf8ByteSize := by
  obtain ⟨ps, tail, hps⟩ := exists_reads (Text.bytes a)
  obtain ⟨qs, tail', hqs⟩ := exists_reads (Text.bytes b)
  obtain ⟨rs, tail'', hrs, hlay⟩ := hps.append hqs (stops_of_not_fuse hps h)
  rw [← Text.bytes_append] at hrs
  have hsize := congrArg List.length hps.eq_flatMap
  rw [Text.length_bytes, List.length_append] at hsize
  intro lexeme hl
  rw [lexemes_of_reads hrs, hlay, Text.length_bytes, Nat.zero_add] at hl
  rintro ⟨hstart, hstop⟩
  rcases List.mem_append.1 hl with hl | hl
  · have := (le_of_mem_layout hl).2
    omega
  · have := (le_of_mem_layout hl).1
    omega

/-- The tokens of a concatenation are those of its parts exactly if none of them crosses the cut. -/
theorem tokens_append_iff : tokens (a ++ b) = tokens a ++ tokens b ↔
    ∀ lexeme ∈ lexemes (a ++ b), ¬ lexeme.span.Crosses a.utf8ByteSize := by
  constructor
  · intro h
    exact not_crosses_of_not_fuse fun hfuse => tokens_append_ne_of_fuse hfuse h
  · intro hno
    obtain ⟨rs, tail, hrs⟩ := exists_reads (Text.bytes (a ++ b))
    rw [lexemes_of_reads hrs, ← Text.length_bytes, ← Nat.zero_add (Text.bytes a).length] at hno
    rw [tokens_of_reads hrs]
    rw [Text.bytes_append] at hrs
    obtain ⟨ps, qs, tail', tail'', hps, hqs, htokens⟩ := hrs.cut hno
    rw [htokens, tokens_of_reads hps, tokens_of_reads hqs]

/-- Blanks keep apart what stands on their two sides. -/
lemma tokens_insert_of_blank (hne : w ≠ "") (hw : Blank (Text.bytes w)) :
    tokens (a ++ w ++ b) = tokens a ++ tokens b := by
  have hfuse : ¬ Fuse (a ++ w) b := not_fuse_of_getLast? fun x hx => by
    rw [Text.bytes_append, List.getLast?_append_of_ne_nil _ (Text.bytes_ne_nil hne)] at hx
    exact isInert_of_isBlank x (hw x (List.mem_of_getLast? hx))
  rw [tokens_append_of_not_fuse hfuse, tokens_append_of_blank hw]

/-- Blanks at the beginning make no difference. -/
lemma tokens_prepend_of_blank (hw : Blank (Text.bytes w)) : tokens (w ++ b) = tokens b := by
  have hfuse : ¬ Fuse w b := not_fuse_of_getLast? fun x hx =>
    isInert_of_isBlank x (hw x (List.mem_of_getLast? hx))
  rw [tokens_append_of_not_fuse hfuse, tokens_of_blank hw, List.nil_append]

end Crossing

/-! ## Runs of blanks -/

/-- Every run of blanks becomes a single space. -/
def collapseBlanks : List Char → List Char
  | [] => []
  | c :: rest =>
    if isBlankChar c then ' ' :: collapseBlanks (rest.dropWhile isBlankChar)
    else c :: collapseBlanks rest
termination_by cs => cs.length
decreasing_by
  · exact Nat.lt_succ_of_le (List.dropWhile_suffix isBlankChar).length_le
  · exact Nat.lt_succ_self _

/-- Without the blanks at both ends. -/
def trimBlanks (cs : List Char) : List Char :=
  ((cs.dropWhile isBlankChar).reverse.dropWhile isBlankChar).reverse

/-- A text with single spaces in place of its runs of blanks, and none at its ends. -/
def normalized (source : String) : String :=
  String.ofList (trimBlanks (collapseBlanks source.toList))

/-- Which blanks keep two stretches apart makes no difference. -/
lemma tokens_append_run (front : String) {run : List Char} (hne : run ≠ [])
    (hrun : ∀ c ∈ run, isBlankChar c = true) (rest : List Char) :
    tokens (front ++ String.ofList (run ++ rest)) =
      tokens front ++ tokens (String.ofList rest) := by
  have hw : String.ofList run ≠ "" := by
    intro h
    exact hne (by simpa using congrArg String.toList h)
  rw [String.ofList_append, ← String.append_assoc,
    tokens_insert_of_blank hw (blank_of_isBlankChar hrun)]

lemma tokens_collapseBlanks (front : String) (cs : List Char) :
    tokens (front ++ String.ofList (collapseBlanks cs)) = tokens (front ++ String.ofList cs) := by
  fun_induction collapseBlanks cs generalizing front with
  | case1 => rfl
  | case2 c rest hc ih =>
    have hrun : ∀ d ∈ c :: rest.takeWhile isBlankChar, isBlankChar d = true := by
      intro d hd
      rcases List.mem_cons.1 hd with rfl | hd
      · exact hc
      · exact List.mem_takeWhile_imp hd
    have hspace : ∀ d ∈ [' '], isBlankChar d = true := by simp [isBlankChar]
    have hrest := ih ""
    rw [String.empty_append, String.empty_append] at hrest
    have hcut : c :: rest =
        (c :: rest.takeWhile isBlankChar) ++ rest.dropWhile isBlankChar := by
      rw [List.cons_append, List.takeWhile_append_dropWhile]
    rw [hcut, tokens_append_run front (List.cons_ne_nil _ _) hrun, ← hrest]
    exact tokens_append_run front (List.cons_ne_nil _ _) hspace _
  | case3 c rest hc ih =>
    have hfirst : ∀ cs, front ++ String.ofList (c :: cs) =
        front ++ String.ofList [c] ++ String.ofList cs := by
      intro cs
      rw [String.append_assoc, ← String.ofList_append, List.singleton_append]
    rw [hfirst (collapseBlanks rest), hfirst rest, ih]

lemma tokens_trimBlanks (cs : List Char) :
    tokens (String.ofList (trimBlanks cs)) = tokens (String.ofList cs) := by
  have hleft : cs = cs.takeWhile isBlankChar ++ cs.dropWhile isBlankChar :=
    List.takeWhile_append_dropWhile.symm
  have hright : cs.dropWhile isBlankChar = trimBlanks cs ++
      ((cs.dropWhile isBlankChar).reverse.takeWhile isBlankChar).reverse := by
    rw [trimBlanks, ← List.reverse_append, List.takeWhile_append_dropWhile, List.reverse_reverse]
  have hbegin : Blank (Text.bytes (String.ofList (cs.takeWhile isBlankChar))) :=
    blank_of_isBlankChar fun c hc => List.mem_takeWhile_imp hc
  have hend : Blank (Text.bytes (String.ofList
      ((cs.dropWhile isBlankChar).reverse.takeWhile isBlankChar).reverse)) :=
    blank_of_isBlankChar fun c hc => List.mem_takeWhile_imp (List.mem_reverse.1 hc)
  conv_rhs => rw [hleft, String.ofList_append, tokens_prepend_of_blank hbegin, hright,
    String.ofList_append, tokens_append_of_blank hend]

/-- It does not matter how many blanks stand in a place, nor which. -/
theorem tokens_normalized (source : String) : tokens (normalized source) = tokens source := by
  have hcollapse := tokens_collapseBlanks "" source.toList
  rw [String.empty_append, String.empty_append, String.ofList_toList] at hcollapse
  rw [normalized, tokens_trimBlanks, hcollapse]

/-! ## Insertion -/

namespace Text

lemma IsBoundary.le {source : String} {p : Nat} (h : IsBoundary source p) :
    p ≤ source.utf8ByteSize := by
  obtain ⟨a, b, rfl, rfl⟩ := isBoundary_iff.1 h
  simp

lemma slice_left (a b : String) : slice (a ++ b) ⟨0, a.utf8ByteSize, Nat.zero_le _⟩ = a := by
  have hstart : IsBoundary (a ++ b) 0 := isBoundary_iff.2 ⟨"", a ++ b, by simp, rfl⟩
  have hcut : IsBoundary (a ++ b) a.utf8ByteSize := isBoundary_iff.2 ⟨a, b, rfl, rfl⟩
  apply bytes_injective
  rw [bytes_slice hcut.le ⟨hstart, hcut⟩]
  simp [Span.width, bytes_append, ← length_bytes]

lemma slice_right (a b : String) (h : a.utf8ByteSize ≤ (a ++ b).utf8ByteSize) :
    slice (a ++ b) ⟨a.utf8ByteSize, (a ++ b).utf8ByteSize, h⟩ = b := by
  have hcut : IsBoundary (a ++ b) a.utf8ByteSize := isBoundary_iff.2 ⟨a, b, rfl, rfl⟩
  have hend : IsBoundary (a ++ b) (a ++ b).utf8ByteSize :=
    isBoundary_iff.2 ⟨a ++ b, "", by simp, rfl⟩
  apply bytes_injective
  rw [bytes_slice le_rfl ⟨hcut, hend⟩]
  simp [Span.width, bytes_append, ← length_bytes]

end Text

/-- Blanks inserted into a text change its tokens exactly if they are inserted inside a token.  So
texts that differ in their blanks only have the same tokens. -/
theorem tokenize_insert_blanks :
    (∀ (source w : String) (p : Nat) (hp : Text.IsBoundary source p), w ≠ "" →
      (∀ c ∈ w.toList, isBlankChar c = true) →
      let before := Text.slice source ⟨0, p, Nat.zero_le p⟩
      let behind := Text.slice source ⟨p, source.utf8ByteSize, hp.le⟩
      (tokenize (before ++ w ++ behind) = tokenize source ↔
        ¬ ∃ lexeme ∈ lexemes source, lexeme.span.start < p ∧ p < lexeme.span.stop)) ∧
    ∀ s t : String, normalized s = normalized t → tokenize s = tokenize t := by
  constructor
  · intro source w p hp hne hw before behind
    obtain ⟨a, b, rfl, rfl⟩ := Text.isBoundary_iff.1 hp
    have hbefore : before = a := Text.slice_left a b
    have hbehind : behind = b := Text.slice_right a b hp.le
    have hblank : Blank (Text.bytes w) := by
      have := blank_of_isBlankChar hw
      rwa [String.ofList_toList] at this
    rw [hbefore, hbehind, tokenize, tokenize, List.append_cancel_right_eq,
      tokens_insert_of_blank hne hblank, eq_comm, tokens_append_iff]
    simp only [Span.Crosses, not_exists, not_and]
  · intro s t h
    rw [tokenize, tokenize, ← tokens_normalized s, h, tokens_normalized]

/-- A tab inside a two-byte symbol, and the same tokens between other blanks. -/
theorem tokenize_insert_blanks_inside_symbol :
    let source := "a=="
    let before := Text.slice source ⟨0, 2, Nat.zero_le 2⟩
    let behind := Text.slice source ⟨2, source.utf8ByteSize, by decide⟩
    Text.IsBoundary source 2 ∧ "\t" ≠ "" ∧ (∀ c ∈ "\t".toList, isBlankChar c = true) ∧
      (tokenize (before ++ "\t" ++ behind) = tokenize source ↔
        ¬ ∃ lexeme ∈ lexemes source, lexeme.span.start < 2 ∧ 2 < lexeme.span.stop) ∧
      normalized " a\t\n=" = normalized "a =\r" ∧ tokenize " a\t\n=" = tokenize "a =\r" := by
  have hboundary : Text.IsBoundary "a==" 2 := by decide
  have hblank : ∀ c ∈ "\t".toList, isBlankChar c = true := by
    intro c hc
    obtain rfl := List.mem_singleton.1 hc
    rfl
  have hsame : normalized " a\t\n=" = normalized "a =\r" := by
    simp [normalized, collapseBlanks, trimBlanks, isBlankChar]
  exact ⟨hboundary, by decide, hblank,
    tokenize_insert_blanks.1 "a==" "\t" 2 hboundary (by decide) hblank, hsame,
    tokenize_insert_blanks.2 _ _ hsame⟩

end TokenStream

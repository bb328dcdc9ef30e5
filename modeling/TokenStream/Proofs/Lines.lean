import TokenStream.Proofs.Concatenation
import TokenStream.Session

/-!
# Lines and their tokens

Cutting an input behind every line feed (`Input.splitLines`) is determined by what it yields: the
pieces make up the input again, each but the last ends with its only line feed, and none is empty
(`lineCut_iff`).

No token crosses such a cut.  The pieces of a text are texts, for a line feed is a character of
its own wherever its byte stands, and the tokens of the text are those of the pieces in order
(`exists_lines`).  Nor does anything else depend on the end of a line: without the carriage returns
and line feeds there, a line has the same tokens (`tokens_content`).
-/

namespace TokenStream

namespace Input

/-- The pieces are what is left of some bytes when they are cut behind every line feed. -/
structure LineCut (bs : List UInt8) (pieces : List (List UInt8)) : Prop where
  flatten_eq : pieces.flatten = bs
  ne_nil : ∀ p ∈ pieces, p ≠ []
  /-- There is no line feed before the end of a piece. -/
  inner : ∀ p ∈ pieces, lineFeed ∉ p.dropLast
  /-- Only the last piece may lack its line feed. -/
  complete : ∀ p ∈ pieces.dropLast, p.getLast? = some lineFeed

/-- A first line, in front of the bytes behind it. -/
structure IsLine (line rest : List UInt8) : Prop where
  ne_nil : line ≠ []
  inner : lineFeed ∉ line.dropLast
  complete : rest ≠ [] → line.getLast? = some lineFeed

lemma exists_line {bs : List UInt8} (h : bs ≠ []) :
    ∃ line rest, bs = line ++ rest ∧ IsLine line rest := by
  induction bs with
  | nil => exact absurd rfl h
  | cons b bs ih =>
    by_cases hb : b = lineFeed
    · subst hb
      exact ⟨[lineFeed], bs, rfl, by simp, by simp, fun _ => rfl⟩
    · by_cases hbs : bs = []
      · subst hbs
        exact ⟨[b], [], rfl, by simp, by simp, by simp⟩
      · obtain ⟨line, rest, rfl, hline⟩ := ih hbs
        refine ⟨b :: line, rest, rfl, by simp, ?_, fun hrest => ?_⟩
        · rw [List.dropLast_cons_of_ne_nil hline.ne_nil, List.mem_cons, not_or]
          exact ⟨Ne.symm hb, hline.inner⟩
        · rw [List.getLast?_cons, hline.complete hrest]
          rfl

/-- The first line is the first piece. -/
lemma splitLines_append {line rest : List UInt8} (h : IsLine line rest) :
    splitLines (line ++ rest) = line :: splitLines rest := by
  obtain ⟨hne, hinner, hcomplete⟩ := h
  induction line with
  | nil => exact absurd rfl hne
  | cons b line ih =>
    by_cases hline : line = []
    · subst hline
      by_cases hb : b = lineFeed
      · simp [splitLines, hb]
      · obtain rfl : rest = [] := by
          by_contra hrest
          exact hb (Option.some.inj (hcomplete hrest))
        simp [splitLines, hb]
    · rw [List.dropLast_cons_of_ne_nil hline, List.mem_cons, not_or] at hinner
      rw [List.getLast?_cons_of_ne_nil hline] at hcomplete
      have := ih hline hinner.2 hcomplete
      simp [splitLines, Ne.symm hinner.1, this]

lemma LineCut.nil : LineCut [] [] :=
  ⟨rfl, by simp, by simp, by simp⟩

lemma LineCut.cons {line rest : List UInt8} {pieces : List (List UInt8)} (hline : IsLine line rest)
    (h : LineCut rest pieces) : LineCut (line ++ rest) (line :: pieces) := by
  refine ⟨by rw [List.flatten_cons, h.flatten_eq], ?_, ?_, ?_⟩
  · simpa [hline.ne_nil] using h.ne_nil
  · simpa [hline.inner] using h.inner
  · by_cases hnil : pieces = []
    · simp [hnil]
    · have hrest : rest ≠ [] := by
        obtain ⟨p, more, rfl⟩ := List.exists_cons_of_ne_nil hnil
        rw [← h.flatten_eq]
        simp [h.ne_nil p]
      rw [List.dropLast_cons_of_ne_nil hnil]
      simpa [hline.complete hrest] using h.complete

lemma LineCut.of_cons {bs line : List UInt8} {pieces : List (List UInt8)}
    (h : LineCut bs (line :: pieces)) :
    bs = line ++ pieces.flatten ∧ IsLine line pieces.flatten ∧ LineCut pieces.flatten pieces := by
  have hline : pieces.flatten ≠ [] → line.getLast? = some lineFeed := by
    intro hrest
    have hnil : pieces ≠ [] := by
      rintro rfl
      exact hrest rfl
    exact h.complete line (by simp [List.dropLast_cons_of_ne_nil hnil])
  have hcomplete : ∀ p ∈ pieces.dropLast, p.getLast? = some lineFeed := by
    intro p hp
    have hnil : pieces ≠ [] := by
      rintro rfl
      simp at hp
    exact h.complete p (by simp [List.dropLast_cons_of_ne_nil hnil, hp])
  have hne : ∀ p ∈ pieces, p ≠ [] := fun p hp => h.ne_nil p (List.mem_cons_of_mem line hp)
  have hinner : ∀ p ∈ pieces, lineFeed ∉ p.dropLast := fun p hp =>
    h.inner p (List.mem_cons_of_mem line hp)
  exact ⟨h.flatten_eq.symm, ⟨h.ne_nil line (by simp), h.inner line (by simp), hline⟩,
    ⟨rfl, hne, hinner, hcomplete⟩⟩

theorem lineCut_splitLines (bs : List UInt8) : LineCut bs (splitLines bs) := by
  induction hn : bs.length using Nat.strongRecOn generalizing bs with
  | ind n ih =>
    by_cases hbs : bs = []
    · subst hbs
      exact LineCut.nil
    · obtain ⟨line, rest, rfl, hline⟩ := exists_line hbs
      have hpos := List.length_pos_iff.2 hline.ne_nil
      rw [List.length_append] at hn
      rw [splitLines_append hline]
      exact LineCut.cons hline (ih rest.length (by omega) rest rfl)

/-- Bytes are cut behind every line feed in one way only. -/
theorem lineCut_iff {bs : List UInt8} {pieces : List (List UInt8)} :
    LineCut bs pieces ↔ pieces = splitLines bs := by
  constructor
  · intro h
    induction pieces generalizing bs with
    | nil =>
      rw [← h.flatten_eq]
      rfl
    | cons line pieces ih =>
      obtain ⟨rfl, hline, hrest⟩ := h.of_cons
      rw [splitLines_append hline, ← ih hrest]
  · rintro rfl
    exact lineCut_splitLines bs

end Input

/-! ## The lines of a text -/

/-- The first line of a text is a text. -/
lemma exists_append_of_isLine {source : String} {line rest : List UInt8}
    (hsource : Text.bytes source = line ++ rest) (hline : Input.IsLine line rest) :
    ∃ a b, source = a ++ b ∧ Text.bytes a = line ∧ Text.bytes b = rest := by
  by_cases hrest : rest = []
  · exact Text.exists_append_of_lt hsource (Or.inr (by simp [hrest]))
  · -- a line feed is a character by itself
    refine Text.exists_append_of_lt hsource (Or.inl fun b hb => ?_)
    obtain rfl := Option.some.inj ((hline.complete hrest).symm.trans hb)
    decide

/-- The pieces of a text are texts, and their tokens are its tokens. -/
theorem exists_lines (source : String) : ∃ lines : List String,
    Input.splitLines (Text.bytes source) = lines.map Text.bytes ∧
      lines.flatMap tokens = tokens source := by
  induction hn : (Text.bytes source).length using Nat.strongRecOn generalizing source with
  | ind n ih =>
    by_cases hne : Text.bytes source = []
    · refine ⟨[], by rw [hne]; rfl, ?_⟩
      rw [tokens_of_blank (by simp [Blank, hne])]
      rfl
    obtain ⟨line, rest, hsource, hline⟩ := Input.exists_line hne
    obtain ⟨a, b, rfl, rfl, rfl⟩ := exists_append_of_isLine hsource hline
    have hpos := List.length_pos_iff.2 hline.ne_nil
    rw [hsource, List.length_append] at hn
    obtain ⟨lines, hlines, htokens⟩ := ih _ (by omega) b rfl
    have hfuse : ¬ Fuse a b := by
      by_cases hb : Text.bytes b = []
      · exact not_fuse_of_head? (by simp [hb])
      · refine not_fuse_of_getLast? fun x hx => ?_
        obtain rfl := Option.some.inj ((hline.complete hb).symm.trans hx)
        decide
    refine ⟨a :: lines, ?_, ?_⟩
    · rw [hsource, Input.splitLines_append hline, hlines]
      rfl
    · rw [List.flatMap_cons, htokens, tokens_append_of_not_fuse hfuse]

/-! ## The end of a line -/

/-- What a line ends with is blank. -/
lemma exists_content_append (line : String) :
    ∃ ending, line = Session.content line ++ ending ∧ Blank (Text.bytes ending) := by
  let isEnd : Char → Bool := fun c => c == '\n' || c == '\r'
  let ending := String.ofList (line.toList.reverse.takeWhile isEnd).reverse
  have hline : line = Session.content line ++ ending := by
    rw [Session.content, ← String.ofList_append, ← List.reverse_append,
      List.takeWhile_append_dropWhile, List.reverse_reverse, String.ofList_toList]
  refine ⟨ending, hline, fun b hb => ?_⟩
  rw [Text.bytes_ofList, List.mem_flatMap] at hb
  obtain ⟨c, hc, hb⟩ := hb
  have hend : isEnd c = true := List.mem_takeWhile_imp (List.mem_reverse.1 hc)
  rcases Bool.or_eq_true_iff.1 hend with h | h
  · obtain rfl := beq_iff_eq.1 h
    obtain rfl := List.mem_singleton.1 hb
    rfl
  · obtain rfl := beq_iff_eq.1 h
    obtain rfl := List.mem_singleton.1 hb
    rfl

/-- Carriage returns and line feeds at the end of a line are no part of any token. -/
theorem tokens_content (line : String) : tokens (Session.content line) = tokens line := by
  obtain ⟨ending, hline, hblank⟩ := exists_content_append line
  conv_rhs => rw [hline, tokens_append_of_blank hblank]

end TokenStream

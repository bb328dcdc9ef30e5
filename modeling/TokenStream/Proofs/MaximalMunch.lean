import TokenStream.Proofs.Concatenation

/-!
# The grammar of token streams

Scanning accepts exactly the texts that can be written as gaps and spellings in turn, with no two
spellings that touch and would fuse, and what it returns are the tokens so spelled
(`tokenize_eq_iff`).  As every text has tokens and no text has two lists of them, each text can be
written so in exactly one way up to the choice of tokens.

The byte zero is read beyond the end of a text, but inside a text it is a token like any other
illegal byte: what follows it is scanned as if it stood alone.
-/

namespace TokenStream

/-- The bytes can be written as the tokens with gaps of blanks before, between and behind them,
such that no spellings that touch would fuse. -/
def Written (bs : List UInt8) (ts : List Token) : Prop :=
  ∃ (ps : List Segment) (tail : List UInt8), bs = ps.flatMap Segment.bytes ++ tail ∧ Blank tail ∧
    ps.map Segment.token = ts ∧ ps.IsChain fun p q => q.gap = [] → ¬ p.Fuses q

lemma tokens_eq_iff_written {source : String} {ts : List Token} :
    tokens source = ts ↔ Written (Text.bytes source) ts := by
  rw [tokens_eq_iff]
  constructor
  · rintro ⟨ps, tail, h, hts⟩
    obtain ⟨heq, htail, hchain⟩ := reads_iff.1 h
    exact ⟨ps, tail, heq, htail, hts, hchain⟩
  · rintro ⟨ps, tail, heq, htail, hts, hchain⟩
    exact ⟨ps, tail, reads_iff.2 ⟨heq, htail, hchain⟩, hts⟩

/-! ## The byte zero -/

/-- The byte zero standing alone. -/
def zeroSegment : Segment where
  gap := []
  spelling := [0]
  token := ⟨.illegal, "\x00"⟩
  blank_gap := by simp [Blank]
  spells := Spells.illegal (c := '\x00') (by decide) rfl

lemma tokens_zero : tokens "\x00" = [⟨.illegal, "\x00"⟩] := by
  have h : Reads (Text.bytes "\x00") [zeroSegment] [] := by
    change Reads (zeroSegment.bytes ++ []) [zeroSegment] []
    exact Reads.segment zeroSegment (Kind.stops_nil _) (Reads.blank (by simp [Blank]))
  exact tokens_of_reads h

lemma isInert_zero : isInert 0 = true := by decide

/-- Scanning a text yields exactly the tokens that it can be written as, closed by the end of the
input.  The byte zero ends no text: it is an illegal token between those before and behind it. -/
theorem tokenize_eq_iff :
    (∀ (source : String) (ts : List Token),
      tokenize source = ts ++ [Token.endOfInput] ↔ Written (Text.bytes source) ts) ∧
    ∀ a b : String, tokenize (a ++ "\x00" ++ b) = tokens a ++ ⟨.illegal, "\x00"⟩ :: tokenize b := by
  constructor
  · intro source ts
    rw [tokenize, List.append_cancel_right_eq, tokens_eq_iff_written]
  · intro a b
    have hzero : Text.bytes "\x00" = [0] := rfl
    have hleft : ¬ Fuse a "\x00" := not_fuse_of_head? (by simp [hzero, isInert_zero])
    have hright : ¬ Fuse (a ++ "\x00") b :=
      not_fuse_of_getLast? (by simp [Text.bytes_append, hzero, isInert_zero])
    rw [tokenize, tokens_append_of_not_fuse hright, tokens_append_of_not_fuse hleft, tokens_zero,
      List.append_assoc, List.append_assoc]
    rfl

end TokenStream

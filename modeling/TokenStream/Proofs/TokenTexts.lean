import TokenStream.Proofs.Blanks
import TokenStream.Proofs.IllegalBytes

/-!
# Scanning the texts of tokens

A token keeps the text it was read from, and a text that is scanned by itself is the same token
again.  The one exception is an illegal byte above 127: it is kept as the character with its value,
and that character is written with two bytes, each of which is illegal in its turn.

So the texts of the tokens of a text, set apart by spaces, have the same tokens exactly if the text
is ASCII (`tokenize_joinedTexts`).
-/

namespace TokenStream

/-- What the text of a token is scanned as: the token, or two if it is an illegal character beyond
ASCII. -/
def Token.rescanned (t : Token) : List Token :=
  match t.kind, t.text.toList with
  | .illegal, [c] =>
    if c.toNat < 128 then [t]
    else [illegal (UInt8.ofNat (0xC0 + c.toNat / 64)), illegal (UInt8.ofNat (0x80 + c.toNat % 64))]
  | _, _ => [t]

/-- The texts of the tokens of a text, with a space between any two. -/
def joinedTexts (source : String) : String := " ".intercalate ((tokens source).map Token.text)

/-! ## One token -/

namespace Token

lemma rescanned_of_kind_ne {t : Token} (h : t.kind ≠ .illegal) : t.rescanned = [t] := by
  unfold rescanned
  split
  · exact absurd ‹_› h
  · rfl

lemma rescanned_illegal_of_lt {b : UInt8} (hb : b < 128) : (illegal b).rescanned = [illegal b] := by
  have hsmall : b.toNat < 128 := UInt8.lt_iff_toNat_lt.1 hb
  simp [rescanned, illegal, Text.toNat_ofUInt8, hsmall]

lemma rescanned_illegal_of_le (b : UInt8) : 128 ≤ b →
    (illegal b).rescanned = [illegal (0xC0 + b / 64), illegal (0x80 + b % 64)] := by
  revert b
  apply Text.forall_byte
  decide +kernel

lemma rescanned_ne_nil (t : Token) : t.rescanned ≠ [] := by
  unfold rescanned
  split
  · split <;> simp
  · simp

end Token

/-- The text of a token is scanned as if it stood alone. -/
theorem Spells.tokens_text {bs : List UInt8} {t : Token} (h : Spells bs t) :
    tokens t.text = t.rescanned := by
  by_cases hkind : t.kind = .illegal
  · obtain ⟨b, rfl, rfl, hb⟩ := h.eq_of_kind_eq_illegal hkind
    have hbytes : Text.bytes (Token.illegal b).text = String.utf8EncodeChar (Char.ofUInt8 b) :=
      Text.bytes_singleton _
    by_cases hle : 128 ≤ b
    · -- both bytes of the character are illegal
      have hchar : 128 ≤ (Char.ofUInt8 b).toNat := by
        rw [Text.toNat_ofUInt8]
        exact UInt8.le_iff_toNat_le.1 hle
      have hall : ∀ c ∈ Text.bytes (Token.illegal b).text, isIllegal c = true := by
        rw [hbytes]
        exact fun c hc => isIllegal_of_le c (Text.le_of_mem_encode hchar hc)
      rw [tokens_of_isIllegal hall, hbytes, Text.encode_ofUInt8_of_le b hle,
        Token.rescanned_illegal_of_le b hle]
      rfl
    · have hlt : b < 128 := UInt8.not_le.1 hle
      have hspells : Spells (Text.bytes (Token.illegal b).text) (Token.illegal b) := by
        rwa [hbytes, Text.encode_ofUInt8 b hlt]
      rw [tokens_of_spells hspells, Token.rescanned_illegal_of_lt hlt]
  · rw [Token.rescanned_of_kind_ne hkind]
    exact tokens_of_spells (h.eq_bytes_text hkind ▸ h)

/-! ## All tokens -/

/-- Spaces keep texts apart. -/
lemma tokens_intercalate (texts : List String) :
    tokens (" ".intercalate texts) = texts.flatMap tokens := by
  have hspace : Blank (Text.bytes " ") := by
    intro b hb
    obtain rfl := List.mem_singleton.1 hb
    rfl
  induction texts with
  | nil => exact tokens_of_blank (by simp [Blank, Text.bytes])
  | cons text texts ih =>
    cases texts with
    | nil => simp
    | cons next texts =>
      rw [String.intercalate_cons_cons, tokens_insert_of_blank (by decide) hspace, ih]
      rfl

lemma tokens_joinedTexts (source : String) :
    tokens (joinedTexts source) = (tokens source).flatMap Token.rescanned := by
  rw [joinedTexts, tokens_intercalate, List.flatMap_map]
  refine List.flatMap_congr fun t ht => ?_
  obtain ⟨bs, hspells⟩ := exists_spells_of_mem ht
  exact hspells.tokens_text

lemma length_le_flatMap_rescanned (ts : List Token) :
    ts.length ≤ (ts.flatMap Token.rescanned).length := by
  induction ts with
  | nil => exact Nat.zero_le _
  | cons t ts ih =>
    have hpos := List.length_pos_iff.2 t.rescanned_ne_nil
    rw [List.flatMap_cons, List.length_append, List.length_cons]
    omega

/-- Tokens stay as they are exactly if there is no illegal byte above 127 among them. -/
lemma flatMap_rescanned_eq_iff (source : String) :
    (tokens source).flatMap Token.rescanned = tokens source ↔
      ∀ b ∈ Text.bytes source, b < 128 := by
  constructor
  · intro h b hb
    by_contra hlt
    have hle : 128 ≤ b := UInt8.not_lt.1 hlt
    have hmem : Token.illegal b ∈ tokens source :=
      illegal_mem_tokens_iff.2 ⟨hb, isIllegal_of_le b hle⟩
    obtain ⟨as, bs, hts⟩ := List.append_of_mem hmem
    have hlen := congrArg List.length h
    have has := length_le_flatMap_rescanned as
    have hbs := length_le_flatMap_rescanned bs
    simp only [hts, List.flatMap_append, List.flatMap_cons, Token.rescanned_illegal_of_le b hle,
      List.length_append, List.length_cons, List.length_nil] at hlen
    omega
  · intro h
    have hsame : ∀ t ∈ tokens source, t.rescanned = [t] := by
      intro t ht
      by_cases hkind : t.kind = .illegal
      · obtain ⟨bs, hspells⟩ := exists_spells_of_mem ht
        obtain ⟨b, -, rfl, -⟩ := hspells.eq_of_kind_eq_illegal hkind
        exact Token.rescanned_illegal_of_lt (h b (illegal_mem_tokens_iff.1 ht).1)
      · exact Token.rescanned_of_kind_ne hkind
    rw [List.flatMap_congr hsame, List.flatMap_singleton']

/-- The texts of the tokens of a text, with spaces between them, have the tokens of the text but for
illegal characters beyond ASCII, which have become two tokens each.  So nothing changes exactly if
the text is ASCII. -/
theorem tokenize_joinedTexts (source : String) :
    tokenize (joinedTexts source) =
        (tokens source).flatMap Token.rescanned ++ [Token.endOfInput] ∧
      (tokenize (joinedTexts source) = tokenize source ↔
        ∀ c ∈ source.toList, c.toNat < 128) := by
  constructor
  · rw [tokenize, tokens_joinedTexts]
  · rw [tokenize, tokenize, List.append_cancel_right_eq, tokens_joinedTexts,
      flatMap_rescanned_eq_iff, Text.forall_mem_bytes_lt_iff]

end TokenStream

import Mathlib.Data.List.TakeWhile
import Mathlib.Tactic.Common
import TokenStream.Text.Bytes

/-!
# Texts inside the bytes of a text

The bytes of a text are the codes of its characters one after the other, and a byte below 128 is
the code of a character of its own.  So a run of such bytes is a text again, wherever it stands.

Conversely a stretch of the bytes of a text that is itself the code of a text lies between two
boundaries, for the bytes on its two sides are whole characters.  The slice there is that text
(`slice_eq_of_drop`); this is what lets later files speak of bytes alone.  In particular a text may
be cut at each side of a byte below 128 (`exists_append_of_lt`), and what is left of a text without
such bytes is a text (`filter_bytes`).
-/

namespace TokenStream

namespace Text

/-! ## The codes of characters -/

lemma toNat_ofUInt8 (b : UInt8) : (Char.ofUInt8 b).toNat = b.toNat :=
  UInt8.toNat_toUInt32 b

lemma eq_ofUInt8 {c : Char} {b : UInt8} (h : c.toNat = b.toNat) : c = Char.ofUInt8 b := by
  rw [← toNat_ofUInt8] at h
  exact Char.toNat_inj.1 h

lemma bytes_eq_flatMap (source : String) :
    bytes source = source.toList.flatMap String.utf8EncodeChar := by
  rw [bytes, ← String.utf8Encode_toList]
  simp [List.utf8Encode]

lemma bytes_ofList (cs : List Char) :
    bytes (String.ofList cs) = cs.flatMap String.utf8EncodeChar := by
  rw [bytes_eq_flatMap, String.toList_ofList]

lemma bytes_singleton (c : Char) : bytes (String.singleton c) = String.utf8EncodeChar c := by
  rw [bytes_eq_flatMap, String.toList_singleton, List.flatMap_singleton]

lemma encode_ofUInt8 (b : UInt8) : b < 128 → String.utf8EncodeChar (Char.ofUInt8 b) = [b] := by
  revert b
  apply forall_byte
  decide +kernel

/-- A character below 128 is written with the byte of its value, and any other with bytes between
128 and 247. -/
lemma toNat_of_mem_encode {c : Char} {b : UInt8} (h : b ∈ String.utf8EncodeChar c) :
    b.toNat = c.toNat ∧ c.toNat < 128 ∨ 128 ≤ b.toNat ∧ b.toNat < 248 := by
  have hmod : ∀ n, b = UInt8.ofNat n → b.toNat = n % 256 := by
    rintro n rfl
    exact UInt8.toNat_ofNat'
  show b.toNat = c.val.toNat ∧ c.val.toNat < 128 ∨ _
  simp only [String.utf8EncodeChar] at h
  split at h
  · have := hmod _ (List.mem_singleton.1 h)
    omega
  · -- every byte of a longer code carries a mark
    right
    split at h
    · simp only [List.mem_cons, List.not_mem_nil, or_false] at h
      rcases h with h | h <;> have := hmod _ h <;> omega
    · split at h
      · simp only [List.mem_cons, List.not_mem_nil, or_false] at h
        rcases h with h | h | h <;> have := hmod _ h <;> omega
      · simp only [List.mem_cons, List.not_mem_nil, or_false] at h
        rcases h with h | h | h | h <;> have := hmod _ h <;> omega

/-- A byte below 128 is part of no character but its own. -/
lemma eq_ofUInt8_of_mem_encode {c : Char} {b : UInt8} (hb : b < 128)
    (h : b ∈ String.utf8EncodeChar c) : c = Char.ofUInt8 b := by
  have hsmall : b.toNat < 128 := UInt8.lt_iff_toNat_lt.1 hb
  rcases toNat_of_mem_encode h with ⟨hvalue, -⟩ | ⟨hlarge, -⟩
  · exact eq_ofUInt8 hvalue.symm
  · omega

/-- So it stands where the character of its value stands. -/
lemma mem_bytes_iff {source : String} {b : UInt8} (hb : b < 128) :
    b ∈ bytes source ↔ Char.ofUInt8 b ∈ source.toList := by
  rw [bytes_eq_flatMap, List.mem_flatMap]
  constructor
  · rintro ⟨c, hc, hmem⟩
    rwa [← eq_ofUInt8_of_mem_encode hb hmem]
  · intro hmem
    exact ⟨_, hmem, by simp [encode_ofUInt8 b hb]⟩

/-- Bytes below 128 are the text of the characters with their values. -/
lemma bytes_ofList_ofUInt8 {bs : List UInt8} (h : ∀ b ∈ bs, b < 128) :
    bytes (String.ofList (bs.map Char.ofUInt8)) = bs := by
  rw [bytes_ofList, List.flatMap_map]
  induction bs with
  | nil => rfl
  | cons b bs ih =>
    have hb : b < 128 := h b (by simp)
    rw [List.flatMap_cons, encode_ofUInt8 b hb, ih fun c hc => h c (by simp [hc])]
    rfl

/-- A character beyond ASCII is written with bytes above 127 only. -/
lemma le_of_mem_encode {c : Char} {b : UInt8} (hc : 128 ≤ c.toNat)
    (h : b ∈ String.utf8EncodeChar c) : 128 ≤ b := by
  by_contra hb
  rw [UInt8.not_le] at hb
  have hsmall : b.toNat < 128 := UInt8.lt_iff_toNat_lt.1 hb
  rw [eq_ofUInt8_of_mem_encode hb h, toNat_ofUInt8] at hc
  omega

/-- The character with the value of a byte above 127 is written with two bytes. -/
lemma encode_ofUInt8_of_le (b : UInt8) : 128 ≤ b →
    String.utf8EncodeChar (Char.ofUInt8 b) = [0xC0 + b / 64, 0x80 + b % 64] := by
  revert b
  apply forall_byte
  decide +kernel

lemma exists_eq_ofUInt8 {c : Char} (hc : c.toNat < 128) : ∃ b < 128, c = Char.ofUInt8 b := by
  have hb : (UInt8.ofNat c.toNat).toNat = c.toNat := by
    rw [UInt8.toNat_ofNat']
    omega
  exact ⟨UInt8.ofNat c.toNat, UInt8.lt_iff_toNat_lt.2 (by rwa [hb]), eq_ofUInt8 hb.symm⟩

/-- The bytes above 127 of a text are those of its characters beyond ASCII. -/
lemma filter_bytes (source : String) : (bytes source).filter (128 ≤ ·) =
    bytes (String.ofList (source.toList.filter (128 ≤ ·.toNat))) := by
  rw [bytes_ofList, bytes_eq_flatMap]
  induction source.toList with
  | nil => rfl
  | cons c cs ih =>
    rw [List.flatMap_cons, List.filter_append, ih]
    by_cases hc : 128 ≤ c.toNat
    · have hall : ∀ b ∈ String.utf8EncodeChar c, decide (128 ≤ b) = true := fun b hb =>
        decide_eq_true (le_of_mem_encode hc hb)
      rw [List.filter_eq_self.2 hall, List.filter_cons_of_pos (by simpa using hc),
        List.flatMap_cons]
    · obtain ⟨b, hb, rfl⟩ := exists_eq_ofUInt8 (Nat.lt_of_not_le hc)
      rw [encode_ofUInt8 b hb, List.filter_cons_of_neg (by simpa using hb),
        List.filter_cons_of_neg (by simpa using hc)]
      rfl

lemma bytes_ne_nil {source : String} (h : source ≠ "") : bytes source ≠ [] := by
  intro hnil
  exact h (bytes_injective (hnil.trans (by rfl : [] = bytes "")))

/-- A text is ASCII if its bytes are. -/
lemma forall_mem_bytes_lt_iff {source : String} :
    (∀ b ∈ bytes source, b < 128) ↔ ∀ c ∈ source.toList, c.toNat < 128 := by
  constructor
  · intro h c hc
    by_contra hle
    have hmem : c ∈ source.toList.filter (128 ≤ ·.toNat) :=
      List.mem_filter.2 ⟨hc, decide_eq_true (Nat.le_of_not_lt hle)⟩
    have hne : bytes (String.ofList (source.toList.filter (128 ≤ ·.toNat))) ≠ [] :=
      bytes_ne_nil fun hnil => List.ne_nil_of_mem hmem (by simpa using congrArg String.toList hnil)
    obtain ⟨b, hb⟩ := List.exists_mem_of_ne_nil _ (filter_bytes source ▸ hne)
    obtain ⟨hb, hle⟩ := List.mem_filter.1 hb
    exact absurd (h b hb) (UInt8.not_lt.2 (of_decide_eq_true hle))
  · intro h b hb
    rw [bytes_eq_flatMap, List.mem_flatMap] at hb
    obtain ⟨c, hc, hb⟩ := hb
    obtain ⟨b', hb', rfl⟩ := exists_eq_ofUInt8 (h c hc)
    rw [encode_ofUInt8 b' hb', List.mem_singleton] at hb
    rwa [hb]

/-! ## What stands at an offset -/

lemma byteAt_eq_head (source : String) (i : Nat) :
    byteAt source i = ((bytes source).drop i).head?.getD sentinel := by
  rw [List.head?_drop, getElem?_bytes]
  rfl

section Stretch

variable {source x : String} {rest : List UInt8} {i : Nat}

lemma add_length_le_of_drop (hx : x ≠ "") (h : (bytes source).drop i = bytes x ++ rest) :
    i + (bytes x).length ≤ source.utf8ByteSize := by
  have hpos := List.length_pos_iff.2 (bytes_ne_nil hx)
  have hlen := congrArg List.length h
  rw [List.length_drop, List.length_append, length_bytes source] at hlen
  omega

/-- Where the bytes of a text spell a text, that text begins and ends at a boundary. -/
lemma isBoundary_of_drop (hx : x ≠ "") (h : (bytes source).drop i = bytes x ++ rest) :
    IsBoundary source i ∧ IsBoundary source (i + (bytes x).length) := by
  have hpos := List.length_pos_iff.2 (bytes_ne_nil hx)
  have hstop := add_length_le_of_drop hx h
  -- the bytes between the two offsets are those of `x`, so they are valid by themselves
  have hextract : source.toByteArray.extract i (i + (bytes x).length) = x.toByteArray := by
    apply ByteArray.ext
    apply Array.toList_inj.1
    have hdrop : source.toByteArray.data.toList.drop i = bytes x ++ rest := h
    rw [ByteArray.data_extract, Array.toList_extract, List.extract_eq_take_drop, hdrop]
    simp [bytes]
  have hvalid := x.isValidUTF8
  rw [← hextract] at hvalid
  have hcut := (String.Pos.Raw.isValidUTF8_extract_iff (s := source) ⟨i⟩ ⟨i + (bytes x).length⟩
    (by simp [String.Pos.Raw.le_iff]) (by simpa [String.Pos.Raw.le_iff] using hstop)).1 hvalid
  refine hcut.resolve_left fun heq => ?_
  have := congrArg String.Pos.Raw.byteIdx heq
  simp only at this
  omega

/-- Where the bytes of a text spell a text, the slice is that text. -/
theorem slice_eq_of_drop (hx : x ≠ "") (h : (bytes source).drop i = bytes x ++ rest) :
    slice source ⟨i, i + (bytes x).length, Nat.le_add_right _ _⟩ = x := by
  apply bytes_injective
  rw [bytes_slice (add_length_le_of_drop hx h) (isBoundary_of_drop hx h)]
  simp [Span.width, h]

end Stretch

/-- A text may be cut at each side of a byte below 128. -/
theorem exists_append_of_lt {source : String} {as bs : List UInt8}
    (h : bytes source = as ++ bs)
    (hcut : (∀ b ∈ as.getLast?, b < 128) ∨ ∀ b ∈ bs.head?, b < 128) :
    ∃ a b, source = a ++ b ∧ bytes a = as ∧ bytes b = bs := by
  by_cases has : as = []
  · subst has
    exact ⟨"", source, by simp, rfl, h⟩
  by_cases hbs : bs = []
  · subst hbs
    exact ⟨source, "", by simp, by rw [h, List.append_nil], rfl⟩
  -- the byte is a character by itself, so there is a boundary at each side of it
  have hchar : ∀ b : UInt8, b < 128 → bytes (String.singleton (Char.ofUInt8 b)) = [b] :=
    fun b hb => by rw [bytes_singleton, encode_ofUInt8 b hb]
  have hboundary : IsBoundary source as.length := by
    rcases hcut with hlast | hhead
    · obtain ⟨b, hb⟩ := Option.ne_none_iff_exists'.1 (mt List.getLast?_eq_none_iff.1 has)
      obtain ⟨front, rfl⟩ := List.getLast?_eq_some_iff.1 hb
      have hb' := hchar b (hlast b hb)
      have hdrop : (bytes source).drop front.length =
          bytes (String.singleton (Char.ofUInt8 b)) ++ bs := by
        rw [h, hb', List.append_assoc, List.drop_left]
      have hbehind := (isBoundary_of_drop (by simp) hdrop).2
      rwa [hb', ← List.length_append] at hbehind
    · obtain ⟨b, more, rfl⟩ := List.exists_cons_of_ne_nil hbs
      have hb' := hchar b (hhead b rfl)
      have hdrop : (bytes source).drop as.length =
          bytes (String.singleton (Char.ofUInt8 b)) ++ more := by
        rw [h, hb', List.drop_left]
        rfl
      exact (isBoundary_of_drop (by simp) hdrop).1
  obtain ⟨a, b, hab, hlen⟩ := isBoundary_iff.1 hboundary
  rw [hab, bytes_append] at h
  obtain ⟨ha, hb⟩ := List.append_inj h (by rw [length_bytes, hlen])
  exact ⟨a, b, hab, ha, hb⟩

end Text

end TokenStream

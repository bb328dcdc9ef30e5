import TokenStream.Text.Span

/-!
# A text as bytes

A text is read here through its UTF-8 bytes, and every position in it is a byte offset.  Offsets
at or beyond the end read as the byte `sentinel`, which may also occur inside a text: only the
offset tells the two apart.

The view of all of this is the list `Text.bytes`.  Reading a byte is looking it up in that list
(`getElem?_bytes`), a run of bytes is the longest fitting prefix of what remains of it
(`runEnd_eq`), and the bytes of a slice are a stretch of it (`bytes_slice`).
-/

namespace TokenStream.Text

/-- What is read beyond the end of a text. -/
def sentinel : UInt8 := 0

/-- The UTF-8 bytes of a text. -/
def bytes (source : String) : List UInt8 := source.toByteArray.data.toList

/-- The text with the given UTF-8 bytes, if they are valid. -/
def ofBytes? (bytes : List UInt8) : Option String := String.fromUTF8? ⟨bytes.toArray⟩

/-- The byte at an offset inside the text. -/
def byteAt? (source : String) (i : Nat) : Option UInt8 :=
  if h : i < source.utf8ByteSize then some (source.getUTF8Byte ⟨i⟩ h) else none

/-- The byte at an offset, or the sentinel at or beyond the end. -/
def byteAt (source : String) (i : Nat) : UInt8 := (byteAt? source i).getD sentinel

/-- The first offset at or after `i` at which there is no byte that satisfies `p`. -/
def runEnd (source : String) (p : UInt8 → Bool) (i : Nat) : Nat :=
  if h : i < source.utf8ByteSize then
    if p (source.getUTF8Byte ⟨i⟩ h) then runEnd source p (i + 1) else i
  else i
termination_by source.utf8ByteSize - i

/-- An offset that lies between two characters of a text, or at either end of it. -/
def IsBoundary (source : String) (i : Nat) : Prop := String.Pos.Raw.IsValid source ⟨i⟩

instance (source : String) (i : Nat) : Decidable (IsBoundary source i) :=
  inferInstanceAs (Decidable (String.Pos.Raw.IsValid source ⟨i⟩))

/-- The text between two offsets.  Offsets beyond the end stand for the end, and a span that
begins or ends inside a character holds no text. -/
def slice (source : String) (span : Span) : String :=
  let inside := span.clamp source.utf8ByteSize
  if h : IsBoundary source inside.start ∧ IsBoundary source inside.stop then
    source.extract (source.pos ⟨inside.start⟩ h.1) (source.pos ⟨inside.stop⟩ h.2)
  else ""

/-- What follows `start`, if the text begins with it. -/
def after? (start source : String) : Option String :=
  if start.toList.isPrefixOf source.toList then
    some (String.ofList (source.toList.drop start.toList.length))
  else none

/-- A fact about bytes is a fact about the numbers below 256. -/
theorem forall_byte {p : UInt8 → Prop} (h : ∀ n < 256, p (UInt8.ofNat n)) (b : UInt8) : p b := by
  have hb := h b.toNat b.toNat_lt
  rwa [UInt8.ofNat_toNat] at hb

/-! ## Texts and lists of bytes -/

theorem length_bytes (source : String) : (bytes source).length = source.utf8ByteSize := by
  simp [bytes]

theorem bytes_append (a b : String) : bytes (a ++ b) = bytes a ++ bytes b := by
  simp [bytes]

theorem bytes_injective {a b : String} (h : bytes a = bytes b) : a = b := by
  rw [← String.toByteArray_inj]
  exact ByteArray.ext (Array.toList_inj.1 h)

/-- Reading bytes as a text accepts exactly what texts consist of. -/
theorem ofBytes?_eq_some_iff {bs : List UInt8} {source : String} :
    ofBytes? bs = some source ↔ bs = bytes source := by
  unfold ofBytes? String.fromUTF8? bytes
  split
  · simp only [Option.some.injEq]
    constructor
    · rintro rfl
      rfl
    · rintro rfl
      rfl
  · rename_i h
    simp only [reduceCtorEq, false_iff]
    rintro rfl
    exact h source.isValidUTF8

/-- What follows is what the text consists of behind its start. -/
theorem after?_eq_some_iff {start source rest : String} :
    after? start source = some rest ↔ source = start ++ rest := by
  unfold after?
  rw [← String.toList_inj, String.toList_append, Option.ite_none_right_eq_some,
    List.isPrefixOf_iff_prefix, Option.some.injEq]
  constructor
  · rintro ⟨⟨more, hmore⟩, rfl⟩
    simp [← hmore]
  · intro h
    rw [h, List.drop_left, String.ofList_toList]
    exact ⟨List.prefix_append .., rfl⟩

/-! ## Bytes at offsets -/

theorem getElem?_bytes (source : String) (i : Nat) : (bytes source)[i]? = byteAt? source i := by
  unfold byteAt? bytes String.getUTF8Byte
  split
  · rename_i h
    rw [List.getElem?_eq_getElem (by simpa using h)]
    rfl
  · rename_i h
    exact List.getElem?_eq_none (by simpa using h)

theorem byteAt_of_lt {source : String} {i : Nat} (h : i < source.utf8ByteSize) :
    byteAt source i = source.getUTF8Byte ⟨i⟩ h := by
  simp [byteAt, byteAt?, h]

theorem byteAt_of_le {source : String} {i : Nat} (h : source.utf8ByteSize ≤ i) :
    byteAt source i = sentinel := by
  simp [byteAt, byteAt?, Nat.not_lt.2 h]

/-- What remains from an offset inside the text begins with the byte there. -/
theorem drop_bytes {source : String} {i : Nat} (h : i < source.utf8ByteSize) :
    (bytes source).drop i = byteAt source i :: (bytes source).drop (i + 1) := by
  rw [byteAt_of_lt h]
  exact List.drop_eq_getElem_cons (by simpa [length_bytes] using h)

/-! ## Runs -/

theorem runEnd_eq (source : String) (p : UInt8 → Bool) (i : Nat) :
    runEnd source p i = i + (((bytes source).drop i).takeWhile p).length := by
  fun_induction runEnd source p i with
  | case1 i h hp ih =>
    rw [← byteAt_of_lt h] at hp
    rw [ih, drop_bytes h, List.takeWhile_cons_of_pos hp, List.length_cons]
    omega
  | case2 i h hp =>
    rw [← byteAt_of_lt h] at hp
    rw [drop_bytes h, List.takeWhile_cons_of_neg hp]
    rfl
  | case3 i h =>
    rw [List.drop_eq_nil_of_le (by simpa [length_bytes] using h)]
    rfl

theorem le_runEnd (source : String) (p : UInt8 → Bool) (i : Nat) : i ≤ runEnd source p i := by
  rw [runEnd_eq]
  exact Nat.le_add_right ..

/-- A run that has a first byte is not empty. -/
theorem lt_runEnd {source : String} {p : UInt8 → Bool} {i : Nat} (h : i < source.utf8ByteSize)
    (hp : p (byteAt source i) = true) : i < runEnd source p i := by
  rw [runEnd_eq, drop_bytes h, List.takeWhile_cons_of_pos hp, List.length_cons]
  omega

/-! ## Slices -/

/-- A text is cut at a boundary into two texts. -/
theorem isBoundary_iff {source : String} {i : Nat} :
    IsBoundary source i ↔ ∃ a b : String, source = a ++ b ∧ i = a.utf8ByteSize := by
  rw [IsBoundary, String.Pos.Raw.isValid_iff_exists_append]
  constructor
  · rintro ⟨a, b, hab, hi⟩
    exact ⟨a, b, hab, congrArg String.Pos.Raw.byteIdx hi⟩
  · rintro ⟨a, b, hab, rfl⟩
    exact ⟨a, b, hab, rfl⟩

/-- The bytes of a slice are those between its offsets, provided that both are boundaries. -/
theorem bytes_slice {source : String} {span : Span} (hstop : span.stop ≤ source.utf8ByteSize)
    (hb : IsBoundary source span.start ∧ IsBoundary source span.stop) :
    bytes (slice source span) = ((bytes source).drop span.start).take span.width := by
  simp only [slice, Span.clamp_eq_self hstop]
  rw [dif_pos hb]
  simp [bytes, Span.width, String.toByteArray_extract, List.extract_eq_take_drop]

end TokenStream.Text

import TokenStream.Proofs.Encoding
import TokenStream.Text.Cursor

/-!
# Cutting a text at any offsets

A text may be cut between any two offsets that are in order.  Offsets beyond the end stand for the
end, and where one of the two then lies inside a character, nothing is cut out; so what is cut out
is always a text.

Whether an offset lies between two characters shows in the one byte there: it does unless that byte
continues a character (`Text.isSeam_iff`).  Hence the bytes that are cut out can be told from the
bytes of the text alone (`Cursor.map_bytes_cut`), and two cuts with an offset in common add up to
one (`Text.slice_append`).
-/

namespace TokenStream

namespace Text

/-- A byte that stands in the code of a character, but not at its front. -/
def isContinuation (b : UInt8) : Bool := 0x80 ≤ b && b < 0xC0

/-- At this offset the bytes end, or there is one that does not continue a character. -/
def isSeam (bs : List UInt8) (i : Nat) : Bool :=
  match bs[i]? with
  | some b => !isContinuation b
  | none => i == bs.length

/-- The bytes between two offsets, or none where one of the offsets lies inside a character. -/
def cutBytes (bs : List UInt8) (start stop : Nat) : Except ReversedOffsets (List UInt8) :=
  if stop < start then .error ⟨start, stop⟩
  else
    let e := min stop bs.length
    let b := min start e
    .ok (if isSeam bs b && isSeam bs e then (bs.drop b).take (e - b) else [])

/-! ## Seams -/

/-- Below these, the bytes at the front of a character are those that continue none. -/
lemma isUTF8FirstByte_iff (b : UInt8) :
    b < 0xF8 → (b.IsUTF8FirstByte ↔ isContinuation b = false) := by
  revert b
  apply forall_byte
  decide +kernel

lemma lt_of_mem_bytes {source : String} {b : UInt8} (h : b ∈ bytes source) : b < 0xF8 := by
  rw [bytes_eq_flatMap, List.mem_flatMap] at h
  obtain ⟨c, -, hb⟩ := h
  rw [UInt8.lt_iff_toNat_lt]
  rcases toNat_of_mem_encode hb with ⟨hvalue, hsmall⟩ | ⟨-, hlarge⟩
  · exact Nat.lt_trans (hvalue ▸ hsmall) (by decide)
  · exact hlarge

/-- The bytes of a text have their seams between its characters. -/
theorem isSeam_iff {source : String} {i : Nat} :
    isSeam (bytes source) i = true ↔ IsBoundary source i := by
  rw [IsBoundary, String.Pos.Raw.isValid_iff_isUTF8FirstByte, isSeam, length_bytes]
  by_cases hi : i < source.utf8ByteSize
  · have hget : (bytes source)[i]? = some (source.getUTF8Byte ⟨i⟩ hi) := by
      rw [getElem?_bytes, byteAt?, dif_pos hi]
    have hfirst := isUTF8FirstByte_iff _ (lt_of_mem_bytes (List.mem_of_getElem? hget))
    have hne : i ≠ source.utf8ByteSize := Nat.ne_of_lt hi
    rw [hget]
    simp [String.Pos.Raw.ext_iff, String.Pos.Raw.lt_iff, hi, hne, hfirst]
  · have hget : (bytes source)[i]? = none := by
      rw [getElem?_bytes, byteAt?, dif_neg hi]
    rw [hget]
    simp [String.Pos.Raw.ext_iff, String.Pos.Raw.lt_iff, hi]

/-! ## Slices -/

section Slice

variable (source : String) (span : Span)

/-- A slice lies inside the text. -/
lemma slice_clamp : slice source (span.clamp source.utf8ByteSize) = slice source span := by
  have hclamp := Span.clamp_eq_self (Span.clamp_stop_le span source.utf8ByteSize)
  simp only [slice, hclamp]

/-- The bytes of a slice are those between its offsets, moved into the text, or none where one of
them lies inside a character. -/
theorem bytes_slice_eq :
    let inside := span.clamp source.utf8ByteSize
    bytes (slice source span) =
      if IsBoundary source inside.start ∧ IsBoundary source inside.stop then
        ((bytes source).drop inside.start).take inside.width
      else [] := by
  intro inside
  by_cases hb : IsBoundary source inside.start ∧ IsBoundary source inside.stop
  · rw [if_pos hb, ← slice_clamp, bytes_slice (Span.clamp_stop_le ..) hb]
  · rw [if_neg hb, slice, dif_neg hb]
    rfl

variable {source}

/-- Offsets in order stay so when they are moved into the text. -/
lemma bytes_slice_of_isBoundary {start stop : Nat} (h : start ≤ stop)
    (hstart : IsBoundary source (min start source.utf8ByteSize))
    (hstop : IsBoundary source (min stop source.utf8ByteSize)) :
    bytes (slice source ⟨start, stop, h⟩) =
      ((bytes source).drop (min start source.utf8ByteSize)).take
        (min stop source.utf8ByteSize - min start source.utf8ByteSize) := by
  have hmin : min start (min stop source.utf8ByteSize) = min start source.utf8ByteSize := by
    omega
  rw [bytes_slice_eq]
  simp only [Span.clamp, Span.width, hmin]
  rw [if_pos ⟨hstart, hstop⟩]

/-- Two slices with an offset in common make up one, if none of the three offsets lies inside a
character. -/
theorem slice_append {start mid stop : Nat} (hmid : start ≤ mid) (hstop : mid ≤ stop)
    (hb : ∀ i ∈ [start, mid, stop], IsBoundary source (min i source.utf8ByteSize)) :
    slice source ⟨start, mid, hmid⟩ ++ slice source ⟨mid, stop, hstop⟩ =
      slice source ⟨start, stop, hmid.trans hstop⟩ := by
  have hb₁ := hb start (by simp)
  have hb₂ := hb mid (by simp)
  have hb₃ := hb stop (by simp)
  apply bytes_injective
  rw [bytes_append, bytes_slice_of_isBoundary _ hb₁ hb₂, bytes_slice_of_isBoundary _ hb₂ hb₃,
    bytes_slice_of_isBoundary _ hb₁ hb₃]
  generalize source.utf8ByteSize = len
  have hdrop : (bytes source).drop (min mid len) =
      ((bytes source).drop (min start len)).drop (min mid len - min start len) := by
    rw [List.drop_drop]
    congr 1
    omega
  rw [hdrop, ← List.take_add]
  congr 1
  omega

end Slice

end Text

namespace Cursor

/-- The text between two offsets, which have to be in order. -/
def cut (c : Cursor) (start stop : Nat) : Except ReversedOffsets String := do
  let span ← Span.ofOffsets start stop
  return c.slice span

variable (c : Cursor) {start stop : Nat}

lemma cut_of_le (h : start ≤ stop) : c.cut start stop = .ok (c.slice ⟨start, stop, h⟩) := by
  rw [cut, Span.ofOffsets, dif_pos h]
  rfl

lemma cut_of_lt (h : stop < start) : c.cut start stop = .error ⟨start, stop⟩ := by
  rw [cut, Span.ofOffsets, dif_neg (Nat.not_le.2 h)]
  rfl

/-- What a cut yields is told by the bytes of the text alone. -/
theorem map_bytes_cut (start stop : Nat) :
    (c.cut start stop).map Text.bytes = Text.cutBytes (Text.bytes c.source) start stop := by
  by_cases h : start ≤ stop
  · rw [cut_of_le c h, Text.cutBytes, if_neg (Nat.not_lt.2 h), Except.map, slice,
      Text.bytes_slice_eq, Text.length_bytes]
    simp only [Span.clamp, Span.width, Bool.and_eq_true, Text.isSeam_iff]
    congr
  · rw [cut_of_lt c (Nat.lt_of_not_le h), Text.cutBytes, if_pos (Nat.lt_of_not_le h)]
    rfl

lemma cut_eq_error_iff {r : ReversedOffsets} :
    c.cut start stop = .error r ↔ stop < start ∧ r = ⟨start, stop⟩ := by
  rw [← Span.ofOffsets_eq_error_iff, cut]
  cases Span.ofOffsets start stop with
  | error reversed =>
    constructor
    · rintro ⟨⟩
      rfl
    · rintro ⟨⟩
      rfl
  | ok span => exact ⟨nofun, nofun⟩

end Cursor

/-- Cutting a text between any two offsets.  It is refused exactly if the offsets are in the wrong
order, be they inside the text or not.  Otherwise offsets beyond the end stand for the end, and what
is cut out consists of the bytes between the offsets, or it is empty where one of them lies inside a
character, which the byte there tells.  So it is a text, as it would be if it were cut from the
bytes alone.  Two cuts with an offset in common add up to one. -/
theorem cut_at_any_offsets (c : Cursor) (start stop : Nat) :
    let bs := Text.bytes c.source
    let e := min stop bs.length
    let b := min start e
    (∀ r, c.cut start stop = .error r ↔ stop < start ∧ r = ⟨start, stop⟩ ∧
      r.message = "slice start " ++ toString start ++ " exceeds end " ++ toString stop) ∧
    (∀ i, Text.IsBoundary c.source i ↔ Text.isSeam bs i = true) ∧
    (start ≤ stop → ∃ text, c.cut start stop = .ok text ∧
      Text.cutBytes bs start stop = .ok (Text.bytes text) ∧
      Text.bytes text =
        if Text.IsBoundary c.source b ∧ Text.IsBoundary c.source e then (bs.drop b).take (e - b)
        else []) ∧
    ∀ mid, start ≤ mid → mid ≤ stop →
      (∀ i ∈ [start, mid, stop], Text.IsBoundary c.source (min i bs.length)) →
      ∃ front back, c.cut start mid = .ok front ∧ c.cut mid stop = .ok back ∧
        c.cut start stop = .ok (front ++ back) := by
  intro bs e b
  have hlength : bs.length = c.source.utf8ByteSize := Text.length_bytes c.source
  refine ⟨fun r => ?_, fun i => Text.isSeam_iff.symm, fun h => ?_, fun mid hmid hstop hb => ?_⟩
  · rw [c.cut_eq_error_iff]
    constructor
    · rintro ⟨h, rfl⟩
      exact ⟨h, rfl, rfl⟩
    · rintro ⟨h, hr, -⟩
      exact ⟨h, hr⟩
  · have hbytes := c.map_bytes_cut start stop
    rw [c.cut_of_le h] at hbytes
    refine ⟨_, c.cut_of_le h, hbytes.symm, ?_⟩
    simp only [b, e, hlength]
    exact Text.bytes_slice_eq c.source ⟨start, stop, h⟩
  · rw [hlength] at hb
    refine ⟨_, _, c.cut_of_le hmid, c.cut_of_le hstop, ?_⟩
    rw [c.cut_of_le (hmid.trans hstop)]
    exact congrArg Except.ok (Text.slice_append hmid hstop hb).symm

-- an offset inside a character, and two that lie beyond the end in the wrong order
example : ({ source := "é" } : Cursor).cut 1 9 = .ok "" ∧
    ({ source := "é" } : Cursor).cut 9 8 = .error ⟨9, 8⟩ := by
  decide

/-- Between two characters of two bytes each, and far beyond the end. -/
theorem cut_at_any_offsets_beyond_end :
    let c : Cursor := { source := "éñ" }
    let stop := UInt64.size - 1
    0 ≤ 2 ∧ 2 ≤ stop ∧ 0 ≤ stop ∧ (∀ i ∈ [0, 2, stop], Text.IsBoundary c.source (min i 4)) ∧
      (∃ text, c.cut 0 stop = .ok text ∧ Text.cutBytes (Text.bytes "éñ") 0 stop =
        .ok (Text.bytes text)) ∧
      ∃ front back, c.cut 0 2 = .ok front ∧ c.cut 2 stop = .ok back ∧
        c.cut 0 stop = .ok (front ++ back) := by
  intro c stop
  have hb : ∀ i ∈ [0, 2, stop], Text.IsBoundary c.source (min i 4) := by
    simp only [List.forall_mem_cons, c, stop]
    decide
  obtain ⟨-, -, hcut, hsum⟩ := cut_at_any_offsets c 0 stop
  obtain ⟨text, htext, hbytes, -⟩ := hcut (Nat.zero_le _)
  exact ⟨by decide, by decide, Nat.zero_le _, hb, ⟨text, htext, hbytes⟩,
    hsum 2 (by decide) (by decide) hb⟩

end TokenStream

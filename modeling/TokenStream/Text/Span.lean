/-!
# Spans of byte offsets

Everything in this library that lies in a text lies between two byte offsets.  A `Span` carries
the proof that its offsets are in order, so a range the wrong way round can only come from
outside; `Span.ofOffsets` is the one place where such a pair is turned away.
-/

namespace TokenStream

/-- The byte offsets from `start` up to but not including `stop`. -/
structure Span where
  start : Nat
  stop : Nat
  start_le_stop : start ≤ stop := by omega
  deriving DecidableEq, Repr

/-- A pair of offsets given in the wrong order. -/
structure ReversedOffsets where
  start : Nat
  stop : Nat
  deriving DecidableEq, Repr

/-- The wording names both offsets as they were given. -/
def ReversedOffsets.message (r : ReversedOffsets) : String :=
  "slice start " ++ toString r.start ++ " exceeds end " ++ toString r.stop

namespace Span

/-- The span between two offsets, provided that they are in order. -/
def ofOffsets (start stop : Nat) : Except ReversedOffsets Span :=
  if h : start ≤ stop then .ok ⟨start, stop, h⟩ else .error ⟨start, stop⟩

/-- The number of offsets in the span. -/
def width (s : Span) : Nat := s.stop - s.start

/-- The part of the span below `limit`.  A span that lies beyond `limit` altogether becomes the
empty span at `limit`. -/
def clamp (s : Span) (limit : Nat) : Span where
  start := min s.start (min s.stop limit)
  stop := min s.stop limit

theorem ofOffsets_eq_error_iff {start stop : Nat} {r : ReversedOffsets} :
    ofOffsets start stop = .error r ↔ stop < start ∧ r = ⟨start, stop⟩ := by
  unfold ofOffsets
  split
  · simp; omega
  · simp only [Except.error.injEq]
    constructor
    · rintro rfl; exact ⟨by omega, rfl⟩
    · rintro ⟨-, rfl⟩; rfl

theorem clamp_stop_le (s : Span) (limit : Nat) : (s.clamp limit).stop ≤ limit := by
  simp only [clamp]; omega

theorem clamp_eq_self {s : Span} {limit : Nat} (h : s.stop ≤ limit) : s.clamp limit = s := by
  obtain ⟨start, stop, hle⟩ := s
  simp only [clamp, Span.mk.injEq] at *
  omega

end Span

end TokenStream

import Mathlib.Data.PFun
import Mathlib.Logic.Function.Iterate
import TokenStream.Proofs.Slices
import TokenStream.Token.Alphabet

/-!
# A window that stops at the sentinel

A window keeps the byte that it has read, the offset of that byte and the offset of the next one,
and it moves forward by one byte at a time.  It passes over a run by moving on as long as its byte
belongs to the run, and nothing but the byte tells it that the text has ended: past the end it reads
the sentinel.  So this loop ends only because the sentinel belongs to no run.

Wherever a window has been moved to, it holds what its offset says (`Window.Reached.eq_ofPosition`).
Its loop stops at the first offset at which no byte of the run stands
(`Window.passOver_ofPosition`), which is where a cursor stops that looks for the end of the text;
and the two cut out the same text.
-/

namespace TokenStream

/-- A place in a text with the byte that was read there. -/
structure Window where
  source : String
  position : Nat
  /-- The offset of the next byte to be read. -/
  readPosition : Nat
  /-- The byte at the position, or the sentinel beyond the end. -/
  current : UInt8
  deriving DecidableEq, Repr

namespace Window

/-- The window one byte further on. -/
def advance (w : Window) : Window :=
  { w with
    current := Text.byteAt w.source w.readPosition
    position := w.readPosition
    readPosition := w.readPosition + 1 }

/-- A window at the first byte of a text. -/
def start (source : String) : Window :=
  advance { source, position := 0, readPosition := 0, current := Text.sentinel }

/-- The window has passed the last byte. -/
def atEnd (w : Window) : Bool := decide (w.source.utf8ByteSize ≤ w.position)

/-- The cursor at the place of the window. -/
def cursor (w : Window) : Cursor := { source := w.source, position := w.position }

/-- One turn of the loop that passes over bytes that satisfy `p`: it stops at the window, or it goes
on from the next. -/
def turn (p : UInt8 → Bool) (w : Window) : Window ⊕ Window :=
  if p w.current then .inr w.advance else .inl w

/-- The window behind the bytes that satisfy `p`, unless the loop goes on for ever. -/
def passOver (p : UInt8 → Bool) : Window → Part Window :=
  PFun.fix fun w => Part.some (turn p w)

/-- The text of the run of bytes that satisfy `p`, and the window behind it, if the run ends. -/
def eatWhile (w : Window) (p : UInt8 → Bool) : Part (Except ReversedOffsets String × Window) :=
  (passOver p w).map fun after => (after.cursor.cut w.position after.position, after)

/-- The windows over a text that can be reached from its start, byte by byte and by passing over
runs to which the sentinel does not belong. -/
inductive Reached (source : String) : Window → Prop
  | start : Reached source (start source)
  | advance {w : Window} (h : Reached source w) : Reached source w.advance
  | eatWhile {w after : Window} {p : UInt8 → Bool} {text : Except ReversedOffsets String}
      (h : Reached source w) (hp : p Text.sentinel = false)
      (heat : (text, after) ∈ w.eatWhile p) : Reached source after

/-! ## What a window holds -/

/-- The window at an offset of a text. -/
def ofPosition (source : String) (i : Nat) : Window where
  source := source
  position := i
  readPosition := i + 1
  current := Text.byteAt source i

variable {p : UInt8 → Bool} {w : Window}

lemma passOver_of_pos (h : p w.current = true) : passOver p w = passOver p w.advance := by
  refine PFun.fix_fwd_eq (Part.mem_some_iff.2 ?_)
  rw [turn, if_pos h]

lemma passOver_of_neg (h : p w.current = false) : passOver p w = Part.some w := by
  refine Part.eq_some_iff.2 (PFun.fix_stop (Part.mem_some_iff.2 ?_))
  rw [turn, if_neg (Bool.eq_false_iff.1 h)]

variable (source : String)

/-- A window passes over a run to its end: the sentinel stops it where the text does. -/
theorem passOver_ofPosition (hp : p Text.sentinel = false) (i : Nat) :
    passOver p (ofPosition source i) = Part.some (ofPosition source (Text.runEnd source p i)) := by
  fun_induction Text.runEnd source p i with
  | case1 i h hbyte ih =>
    rw [← Text.byteAt_of_lt h] at hbyte
    exact (passOver_of_pos hbyte).trans ih
  | case2 i h hbyte =>
    rw [← Text.byteAt_of_lt h] at hbyte
    exact passOver_of_neg (Bool.eq_false_iff.2 hbyte)
  | case3 i h =>
    have hcurrent : (ofPosition source i).current = Text.sentinel :=
      Text.byteAt_of_le (Nat.le_of_not_lt h)
    exact passOver_of_neg (hcurrent ▸ hp)

/-- The text of the run is cut out between its ends. -/
theorem eatWhile_ofPosition (hp : p Text.sentinel = false) (i : Nat) :
    (ofPosition source i).eatWhile p =
      Part.some (.ok (Text.slice source ⟨i, Text.runEnd source p i, Text.le_runEnd source p i⟩),
        ofPosition source (Text.runEnd source p i)) := by
  rw [eatWhile, passOver_ofPosition source hp, Part.map_some]
  exact congrArg (fun text => Part.some (text, _)) (Cursor.cut_of_le _ (Text.le_runEnd source p i))

/-- The cursor at the place of a window cuts out the same text. -/
lemma eatWhile_cursor (p : UInt8 → Bool) (i : Nat) :
    (ofPosition source i).cursor.eatWhile p =
      (Text.slice source ⟨i, Text.runEnd source p i, Text.le_runEnd source p i⟩,
        (ofPosition source (Text.runEnd source p i)).cursor) := by
  have hwidth : i + (Text.runEnd source p i - i) = Text.runEnd source p i :=
    Nat.add_sub_of_le (Text.le_runEnd source p i)
  simp only [ofPosition, cursor, Cursor.eatWhile, Cursor.take, Cursor.slice, Cursor.advance, hwidth]

/-- A window holds what its position says. -/
theorem Reached.eq_ofPosition {source : String} (h : Reached source w) :
    w = ofPosition source w.position := by
  induction h with
  | start => rfl
  | advance h ih =>
    rw [ih]
    rfl
  | eatWhile h hp heat ih =>
    rw [ih, eatWhile_ofPosition _ hp] at heat
    obtain ⟨-, rfl⟩ := Prod.mk.inj (Part.mem_some_iff.1 heat)
    rfl

/-- A window moves forward byte by byte. -/
lemma iterate_advance (i n : Nat) :
    advance^[n] (ofPosition source i) = ofPosition source (i + n) := by
  induction n with
  | zero => rfl
  | succ n ih =>
    rw [Function.iterate_succ_apply', ih]
    rfl

/-- So every window can be reached byte by byte. -/
lemma iterate_advance_start (i : Nat) : advance^[i] (start source) = ofPosition source i :=
  (iterate_advance source 0 i).trans (congrArg (ofPosition source) (Nat.zero_add i))

end Window

/-! ## Runs -/

namespace Text

section Run

variable {p : UInt8 → Bool} {i : Nat} (source : String)

/-- The bytes between the ends of a run are those that it passes over. -/
lemma take_runEnd (p : UInt8 → Bool) (i : Nat) :
    ((bytes source).drop i).take (runEnd source p i - i) = ((bytes source).drop i).takeWhile p := by
  rw [runEnd_eq, Nat.add_sub_cancel_left]
  exact (List.prefix_iff_eq_take.1 (List.takeWhile_prefix p)).symm

/-- A run stays inside the text, unless it begins beyond its end. -/
lemma runEnd_le (p : UInt8 → Bool) (i : Nat) :
    runEnd source p i ≤ max i source.utf8ByteSize := by
  have hle := (List.takeWhile_prefix (l := (bytes source).drop i) p).length_le
  rw [List.length_drop, length_bytes] at hle
  rw [runEnd_eq]
  omega

/-- A run is as long as it can be. -/
lemma byteAt_runEnd (hp : p sentinel = false) (i : Nat) :
    p (byteAt source (runEnd source p i)) = false := by
  fun_induction runEnd source p i with
  | case1 i h hbyte ih => exact ih
  | case2 i h hbyte =>
    rw [byteAt_of_lt h]
    exact Bool.eq_false_iff.2 hbyte
  | case3 i h =>
    rw [byteAt_of_le (Nat.le_of_not_lt h)]
    exact hp

/-- Offsets beyond the end stand for the end, where a text may be cut. -/
lemma isBoundary_min_iff :
    IsBoundary source (min i source.utf8ByteSize) ↔
      IsBoundary source i ∨ source.utf8ByteSize ≤ i := by
  have hend : IsBoundary source source.utf8ByteSize := isBoundary_iff.2 ⟨source, "", by simp, rfl⟩
  by_cases hi : source.utf8ByteSize ≤ i
  · simp [hi, hend]
  · simp [hi, Nat.min_eq_left (Nat.le_of_not_le hi)]

/-- What is cut out of a text are the bytes between the offsets, or nothing if one of these lies
inside a character; and beyond the end there are no bytes. -/
theorem bytes_slice_of_le_max {j : Nat} (hle : i ≤ j) (hmax : j ≤ max i source.utf8ByteSize) :
    bytes (slice source ⟨i, j, hle⟩) =
      if (IsBoundary source i ∨ source.utf8ByteSize ≤ i) ∧
          (IsBoundary source j ∨ source.utf8ByteSize ≤ j) then
        ((bytes source).drop i).take (j - i)
      else [] := by
  have hstart : min i (min j source.utf8ByteSize) = min i source.utf8ByteSize := by omega
  rw [bytes_slice_eq]
  simp only [Span.clamp, Span.width, hstart, isBoundary_min_iff]
  by_cases hi : i ≤ source.utf8ByteSize
  · have hj : j ≤ source.utf8ByteSize := by omega
    rw [Nat.min_eq_left hi, Nat.min_eq_left hj]
  · obtain rfl : j = i := by omega
    simp

/-- A run of bytes below 128 lies between characters. -/
theorem bytes_slice_runEnd_of_lt (hlt : ∀ b, p b = true → b < 128) (i : Nat) :
    bytes (slice source ⟨i, runEnd source p i, le_runEnd source p i⟩) =
      ((bytes source).drop i).takeWhile p := by
  rw [bytes_slice_of_le_max source _ (runEnd_le source p i), take_runEnd]
  by_cases hnil : ((bytes source).drop i).takeWhile p = []
  · rw [hnil, ite_self]
  · have hsmall : ∀ b ∈ ((bytes source).drop i).takeWhile p, b < 128 :=
      fun b hb => hlt b (List.mem_takeWhile_imp hb)
    have hbytes := bytes_ofList_ofUInt8 hsmall
    have hne : String.ofList ((((bytes source).drop i).takeWhile p).map Char.ofUInt8) ≠ "" := by
      simpa using hnil
    have hdrop := (List.takeWhile_append_dropWhile (p := p) (l := (bytes source).drop i)).symm
    rw [← hbytes] at hdrop
    obtain ⟨hstart, hstop⟩ := isBoundary_of_drop hne hdrop
    rw [hbytes, ← runEnd_eq] at hstop
    rw [if_pos ⟨Or.inl hstart, Or.inl hstop⟩]

end Run

end Text

/-- Passing over a run, wherever a window has been moved to, be it inside a character or beyond the
end.  The window holds the byte at its position, and moving it there byte by byte would come to the
same.  If the sentinel does not belong to the run, the window comes to a stop.  It has passed over
bytes of the run only, the byte where it stands now is none of them, and it stands inside the text
or at its end, unless it stood beyond its end before.  The text of the run consists of the bytes
passed over, but it is empty where one of the ends lies inside a character; that cannot happen if
only bytes below 128 belong to the run. -/
theorem runs_are_maximal (source : String) (w : Window) (h : w.Reached source) :
    let bs := Text.bytes source
    w.source = source ∧ w.readPosition = w.position + 1 ∧
      w.current = bs[w.position]?.getD 0 ∧ (w.atEnd = true ↔ bs.length ≤ w.position) ∧
      w = Window.advance^[w.position] (Window.start source) ∧
      ∀ p : UInt8 → Bool, p 0 = false →
        ∃ text after, w.eatWhile p = Part.some (.ok text, after) ∧ after.Reached source ∧
          w.cursor.eatWhile p = (text, after.cursor) ∧
          let i := w.position
          let j := after.position
          let run := (bs.drop i).take (j - i)
          i ≤ j ∧ j ≤ max i bs.length ∧ (∀ b ∈ run, p b = true) ∧ p (bs[j]?.getD 0) = false ∧
            Text.bytes text =
              (if (Text.IsBoundary source i ∨ bs.length ≤ i) ∧
                (Text.IsBoundary source j ∨ bs.length ≤ j) then run else []) ∧
            ((∀ b, p b = true → b < 128) → Text.bytes text = run) := by
  intro bs
  have hlength : bs.length = source.utf8ByteSize := Text.length_bytes source
  have hbyte : ∀ i, bs[i]?.getD 0 = Text.byteAt source i := fun i => by
    rw [Text.getElem?_bytes]
    rfl
  have hw := h.eq_ofPosition
  generalize w.position = i at hw
  subst hw
  have hstart := (Window.iterate_advance_start source i).symm
  refine ⟨rfl, rfl, (hbyte i).symm, ?_, hstart, fun p hp => ?_⟩
  · rw [hlength]
    exact decide_eq_true_iff
  · have heat := Window.eatWhile_ofPosition source hp i
    have hcursor := Window.eatWhile_cursor source p i
    refine ⟨_, _, heat, h.eatWhile hp (Part.eq_some_iff.1 heat), hcursor, ?_⟩
    intro i j run
    have hrun : run = (bs.drop i).takeWhile p := Text.take_runEnd source p i
    have hmax := Text.runEnd_le source p i
    rw [hlength, hbyte]
    refine ⟨Text.le_runEnd source p i, hmax, fun b hb => ?_, Text.byteAt_runEnd source hp i,
      Text.bytes_slice_of_le_max source _ hmax, fun hlt => ?_⟩
    · rw [hrun] at hb
      exact List.mem_takeWhile_imp hb
    · rw [hrun]
      exact Text.bytes_slice_runEnd_of_lt source hlt i

/-- From inside a character onto digits. -/
theorem runs_are_maximal_digits :
    let w := (Window.start "é12").advance.advance
    w.Reached "é12" ∧ isDigit 0 = false ∧ (∀ b, isDigit b = true → b < 128) ∧
      ∃ text after, w.eatWhile isDigit = Part.some (.ok text, after) ∧
        Text.bytes text =
          ((Text.bytes "é12").drop w.position).take (after.position - w.position) := by
  intro w
  have hw : w.Reached "é12" := (Window.Reached.start.advance).advance
  have hsentinel : isDigit 0 = false := rfl
  have hlt : ∀ b, isDigit b = true → b < 128 := by
    apply Text.forall_byte
    decide +kernel
  obtain ⟨-, -, -, -, -, heat⟩ := runs_are_maximal "é12" w hw
  obtain ⟨text, after, htext, -, -, -, -, -, -, -, hdigits⟩ := heat isDigit hsentinel
  exact ⟨hw, hsentinel, hlt, text, after, htext, hdigits hlt⟩

-- the run begins inside one character and ends inside the next; it is passed over all the same
example : ({ source := "éñ", position := 1 } : Cursor).eatWhile (· != 0xB1) =
    ("", { source := "éñ", position := 3 }) := by
  cbv

end TokenStream

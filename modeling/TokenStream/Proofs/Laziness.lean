import TokenStream.Proofs.EventLogs
import TokenStream.Proofs.Tracing

/-!
# Scanning no further than writing

The actions of a listing are told from the tokens of the whole text.  Here a listing is also written
as a program that scans a token, writes its line and only then goes on (`Scan.list`).  Where the
limit of a sink cuts it, that program has pulled the token of the line that was refused and the
tokens before, but none behind (`Scan.exists_yields_list`).

What a run logs agrees with this.

* On any sink, the log is how the log of a run with room for everything begins
  (`Script.exists_log_run`).
* A script that is refused a line of a listing has logged the events of the tokens up to that of the
  line, and nothing behind it (`Script.run_of_refused_line`); so the numbers of tokens, which come
  behind the lines, are not logged (`log_ends_with_output`).
-/

namespace TokenStream

/-! ## A listing that scans and writes by turns -/

/-- Where a listing has stopped. -/
structure Stop where
  /-- Where scanning has come to. -/
  cursor : Cursor
  /-- The number of lines that have been written in full. -/
  lines : Nat := 0
  output : List UInt8 := []
  /-- What was wrong with the line behind these, if there is one. -/
  fault : Option OutputFault := none
  deriving DecidableEq, Repr

namespace Scan

/-- Scans a token, writes it on a line of its own, and so on until the text ends or the sink refuses
a line, if that comes within `n` pulls. -/
def list (indent : String) : Nat → Sink → Cursor → Scan (Option Stop)
  | 0, _, _ => return none
  | n + 1, sink, c => do
    let (t, after) ← next c
    if t.isEndOfInput then return some { cursor := after }
    let line := Text.bytes (indent ++ t.display ++ "\n")
    match sink.accept? line.length with
    | none =>
      return some
        { cursor := after, output := sink.accepted line, fault := some sink.refusal }
    | some room =>
      let rest ← list indent n room after
      return rest.map fun stop =>
        { stop with lines := stop.lines + 1, output := line ++ stop.output }

end Scan

/-- The bytes of the lines of some lexemes. -/
def lexemeLines (indent : String) (ls : List Lexeme) : List UInt8 :=
  tokenLines indent (ls.map Lexeme.token)

lemma lexemeLines_singleton (indent : String) (lexeme : Lexeme) :
    lexemeLines indent [lexeme] = Text.bytes (indent ++ lexeme.token.display ++ "\n") :=
  List.append_nil _

lemma lexemeLines_append (indent : String) (ls more : List Lexeme) :
    lexemeLines indent (ls ++ more) = lexemeLines indent ls ++ lexemeLines indent more := by
  rw [lexemeLines, tokenLines, List.map_append, List.flatMap_append]
  rfl

lemma lexemeLines_cons (indent : String) (lexeme : Lexeme) (ls : List Lexeme) :
    lexemeLines indent (lexeme :: ls) = lexemeLines indent [lexeme] ++ lexemeLines indent ls :=
  lexemeLines_append indent [lexeme] ls

lemma length_lexemeLines_take_le (indent : String) (ls : List Lexeme) {i j : Nat} (h : i ≤ j) :
    (lexemeLines indent (ls.take i)).length ≤ (lexemeLines indent (ls.take j)).length := by
  obtain ⟨more, hmore⟩ := List.take_prefix_take_left (l := ls) h
  rw [← hmore, lexemeLines_append, List.length_append]
  exact Nat.le_add_right ..

/-- The number of lines that lie within some number of bytes. -/
def linesWithin (indent : String) (ls : List Lexeme) (n : Nat) : Nat :=
  (List.range ls.length).countP fun j => (lexemeLines indent (ls.take (j + 1))).length ≤ n

/-- A limit of `n` bytes lies in the line number `k`, or at its front. -/
structure CutsLine (indent : String) (ls : List Lexeme) (n k : Nat) : Prop where
  lt_length : k < ls.length
  le_limit : (lexemeLines indent (ls.take k)).length ≤ n
  limit_lt : n < (lexemeLines indent (ls.take (k + 1))).length

namespace CutsLine

variable {indent : String} {ls : List Lexeme} {lexeme : Lexeme} {n k : Nat}

lemma head (h : n < (lexemeLines indent [lexeme]).length) : CutsLine indent (lexeme :: ls) n 0 :=
  ⟨Nat.succ_pos _, Nat.zero_le _, h⟩

/-- One more line in front takes up its share of the limit. -/
lemma cons (hle : (lexemeLines indent [lexeme]).length ≤ n)
    (h : CutsLine indent ls (n - (lexemeLines indent [lexeme]).length) k) :
    CutsLine indent (lexeme :: ls) n (k + 1) := by
  have htake : ∀ i, (lexemeLines indent ((lexeme :: ls).take (i + 1))).length =
      (lexemeLines indent [lexeme]).length + (lexemeLines indent (ls.take i)).length := fun i => by
    rw [List.take_succ_cons, lexemeLines_cons, List.length_append]
  have hfits := h.le_limit
  have hpasses := h.limit_lt
  refine ⟨Nat.succ_lt_succ h.lt_length, ?_, ?_⟩
  · rw [htake]
    omega
  · rw [htake]
    omega

/-- The lines before that one are those within the limit. -/
lemma linesWithin_eq (h : CutsLine indent ls n k) : linesWithin indent ls n = k := by
  obtain ⟨m, hm⟩ := Nat.exists_eq_add_of_le h.lt_length.le
  have hbefore : ∀ j ∈ List.range k,
      decide ((lexemeLines indent (ls.take (j + 1))).length ≤ n) = true := by
    intro j hj
    have := length_lexemeLines_take_le indent ls (Nat.succ_le_of_lt (List.mem_range.1 hj))
    exact decide_eq_true (this.trans h.le_limit)
  have hbehind : ∀ j ∈ (List.range m).map (k + ·),
      ¬ decide ((lexemeLines indent (ls.take (j + 1))).length ≤ n) = true := by
    intro j hj
    obtain ⟨j, -, rfl⟩ := List.mem_map.1 hj
    have := length_lexemeLines_take_le indent ls (Nat.add_le_add_right (Nat.le_add_right k j) 1)
    rw [decide_eq_true_eq, Nat.not_le]
    exact h.limit_lt.trans_le this
  rw [linesWithin, hm, List.range_add, List.countP_append, List.countP_eq_length.2 hbefore,
    List.countP_eq_zero.2 hbehind, List.length_range, Nat.add_zero]

end CutsLine

namespace Sink

variable {sink : Sink} {capacity len : Nat}

/-- A sink with room for some bytes has that much less room behind them. -/
lemma exists_room (hcapacity : sink.capacity = some capacity) (hle : len ≤ capacity) :
    ∃ room, sink.accept? len = some room ∧ room.capacity = some (capacity - len) ∧
      room.refusal = sink.refusal := by
  simp only [accept?, hcapacity, if_pos hle]
  exact ⟨_, rfl, rfl, rfl⟩

lemma accept?_eq_none (hcapacity : sink.capacity = some capacity) (hlt : capacity < len) :
    sink.accept? len = none := by
  simp only [accept?, hcapacity, if_neg (Nat.not_le.2 hlt)]

end Sink

namespace Scan

section List

variable {c after : Cursor} {lexeme : Lexeme} {indent : String} {sink : Sink} {n : Nat}

lemma yields_list_of_refused (h : c.pull = (some lexeme, after))
    (hrefused : sink.accept? (lexemeLines indent [lexeme]).length = none) :
    Yields (list indent (n + 1) sink c)
      (some ⟨after, 0, sink.accepted (lexemeLines indent [lexeme]), some sink.refusal⟩)
      c.pullTrace := by
  have hnext := yields_next c
  rw [Cursor.nextToken_of_some h] at hnext
  rw [← c.pullTrace.append_empty]
  refine hnext.bind ?_
  rw [lexemeLines_singleton] at hrefused ⊢
  simp only [(Cursor.pull_some h).2.1, Bool.false_eq_true, if_false, hrefused]
  exact yields_pure _

lemma yields_list_of_accepted {room : Sink} {stop : Stop} {made : Trace}
    (h : c.pull = (some lexeme, after))
    (haccepted : sink.accept? (lexemeLines indent [lexeme]).length = some room)
    (hrest : Yields (list indent n room after) (some stop) made) :
    Yields (list indent (n + 1) sink c)
      (some { stop with
        lines := stop.lines + 1, output := lexemeLines indent [lexeme] ++ stop.output })
      (c.pullTrace ++ made) := by
  have hnext := yields_next c
  rw [Cursor.nextToken_of_some h] at hnext
  refine hnext.bind ?_
  rw [lexemeLines_singleton] at haccepted ⊢
  simp only [(Cursor.pull_some h).2.1, Bool.false_eq_true, if_false, haccepted]
  exact hrest.map fun rest : Option Stop => rest.map _

/-- A listing that is refused a line has scanned up to the token of that line, and no further. -/
theorem exists_yields_list {capacity : Nat} (hn : c.solid < n)
    (hcapacity : sink.capacity = some capacity)
    (hlt : capacity < (lexemeLines indent c.drain.1).length) :
    ∃ k after made,
      Yields (list indent n sink c)
        (some ⟨after, k, (lexemeLines indent c.drain.1).take capacity, some sink.refusal⟩) made ∧
      CutsLine indent c.drain.1 capacity k ∧
      c.pullUpTo (k + 1) = (c.drain.1.take (k + 1), after) ∧
      made.events = (c.drain.1.take (k + 1)).flatMap (Lexeme.events c.source) := by
  induction n generalizing c sink capacity with
  | zero => exact absurd hn (Nat.not_lt_zero _)
  | succ n ih =>
    have hevents := c.events_pullTrace
    rcases hpull : c.pull with ⟨_ | lexeme, after⟩
    · rw [Cursor.drain_of_pull_none hpull] at hlt
      exact absurd hlt (Nat.not_lt_zero _)
    have hmoves := (Cursor.pull_some hpull).2.2
    rw [hpull, Option.toList_some, List.flatMap_singleton] at hevents
    rw [Cursor.drain_of_pull_some hpull, lexemeLines_cons, List.length_append] at hlt
    rw [Cursor.drain_of_pull_some hpull]
    by_cases hle : (lexemeLines indent [lexeme]).length ≤ capacity
    · obtain ⟨room, haccepted, hroom, hrefusal⟩ := Sink.exists_room hcapacity hle
      have hsolid : after.solid < n := Nat.lt_of_lt_of_le hmoves.solid_lt (Nat.le_of_lt_succ hn)
      obtain ⟨k, behind, made, hmade, hcut, hpulled, hrest⟩ := ih hsolid hroom (by omega)
      refine ⟨k + 1, behind, c.pullTrace ++ made, ?_, hcut.cons hle, ?_, ?_⟩
      · rw [lexemeLines_cons, List.take_append, List.take_of_length_le hle, ← hrefusal]
        exact yields_list_of_accepted hpull haccepted hmade
      · rw [Cursor.pullUpTo, hpull]
        simp only [hpulled, List.take_succ_cons]
      · rw [Trace.events_append, hevents, hrest, hmoves.source_eq, List.take_succ_cons,
          List.flatMap_cons]
    · have hfull := Nat.lt_of_not_le hle
      refine ⟨0, after, c.pullTrace, ?_, CutsLine.head hfull, ?_, ?_⟩
      · have hyields := yields_list_of_refused (n := n) hpull (Sink.accept?_eq_none hcapacity hfull)
        rw [lexemeLines_cons, List.take_append_of_le_length hfull.le]
        simpa only [Sink.accepted, hcapacity] using hyields
      · rw [Cursor.pullUpTo, hpull]
        rfl
      · rw [hevents]
        exact (List.flatMap_singleton ..).symm

end List

end Scan

/-! ## The line that is refused -/

namespace Sink

/-- A sink lets some flushes succeed and has room for what is shown, but not for what is next. -/
def Refuses (sink : Sink) (flushes : Nat) (shown next : List UInt8) : Prop :=
  (∀ k ∈ sink.failingFlush, flushes ≤ k) ∧
    ∃ n, sink.capacity = some n ∧ shown.length ≤ n ∧ n < shown.length + next.length

/-- This is what it means that a write is the first action that does not fit. -/
lemma refuses_iff {sink : Sink} {done : List Action} {text : String} :
    sink.Refuses (done.count .flush) (done.flatMap Action.output) (Text.bytes text) ↔
      sink.Fits done ∧ ¬ sink.Fits (done ++ [Action.write text]) := by
  have houtput : ((done ++ [Action.write text]).flatMap Action.output).length =
      (done.flatMap Action.output).length + (Text.bytes text).length := by
    rw [List.flatMap_append, List.flatMap_singleton, List.length_append]
    rfl
  have hcount : (done ++ [Action.write text]).count .flush = done.count .flush := by
    simp
  constructor
  · rintro ⟨hflushes, n, hn, hle, hlt⟩
    refine ⟨⟨fun m hm => ?_, hflushes⟩, fun hfits => ?_⟩
    · obtain rfl : n = m := Option.some.inj (hn.symm.trans hm)
      exact hle
    · have := hfits.output_le n hn
      omega
  · rintro ⟨hdone, hfirst⟩
    refine ⟨hdone.flushes_le, ?_⟩
    rcases not_fits_iff.1 hfirst with ⟨n, hn, hlt⟩ | ⟨k, hk, hlt⟩
    · exact ⟨n, hn, hdone.output_le n hn, houtput ▸ hlt⟩
    · have := hdone.flushes_le k hk
      omega

end Sink

namespace Listing

variable {indent source : String} {before behind : List Lexeme} {lexeme : Lexeme}

/-- What a listing does before it writes the line of a lexeme. -/
def actionsBefore (indent source : String) (before : List Lexeme) (lexeme : Lexeme) :
    List Action :=
  before.flatMap (line indent source) ++ (lexeme.events source).map Action.log

lemma actions_eq (h : lexemes source = before ++ lexeme :: behind) :
    actions indent source = actionsBefore indent source before lexeme ++
      .write (indent ++ lexeme.token.display ++ "\n") :: behind.flatMap (line indent source) := by
  rw [actions, h, List.flatMap_append, List.flatMap_cons, actionsBefore, line]
  simp

lemma output_actionsBefore :
    (actionsBefore indent source before lexeme).flatMap Action.output =
      lexemeLines indent before := by
  have hlog : ((lexeme.events source).map Action.log).flatMap Action.output = [] := by
    simp [List.flatMap_map, Action.log, Action.output]
  rw [actionsBefore, List.flatMap_append, hlog, List.append_nil, List.flatMap_assoc, lexemeLines,
    tokenLines, List.flatMap_map]
  simp only [output_line]

lemma count_flush_actionsBefore :
    (actionsBefore indent source before lexeme).count .flush = 0 := by
  rw [List.count_eq_zero]
  simp [actionsBefore, line, Action.log]

/-- The token of that line has been scanned already. -/
lemma entries_actionsBefore :
    (actionsBefore indent source before lexeme).filterMap Action.entry? =
      ((before ++ [lexeme]).flatMap (Lexeme.events source)).map Entry.event := by
  have hlog : Action.entry? ∘ Action.log = some ∘ Entry.event := rfl
  rw [actionsBefore, List.filterMap_append, List.filterMap_flatMap, List.filterMap_map, hlog,
    List.filterMap_eq_map, List.flatMap_append, List.flatMap_singleton, List.map_append,
    List.map_flatMap]
  simp only [entries_line]

end Listing

namespace Script

variable {α : Type}

/-- Whatever the sink, what a run logs before it closes its log is how the log of the full run
begins. -/
theorem exists_log_run (script : Script α) (sink : Sink) :
    ∃ kept lost : List Entry, (script.run sink).log = kept ++ script.closing ∧
      (script.run Sink.unlimited).log = kept ++ lost ++ script.closing := by
  by_cases hfits : sink.Fits script.actions
  · refine ⟨script.actions.filterMap Action.entry?, [], ?_, ?_⟩
    · rw [run_of_fits hfits, run_unlimited]
    · rw [run_unlimited, List.append_nil]
  · obtain ⟨done, action, rest, hactions, hdone, hfirst⟩ := Sink.exists_not_fits hfits
    refine ⟨done.filterMap Action.entry?, (action :: rest).filterMap Action.entry?, ?_, ?_⟩
    · rw [run, hactions, Sink.perform_of_not_fits hdone hfirst]
    · rw [run_unlimited, hactions, List.filterMap_append]

/-- A script that is refused a line of a listing has logged what it had scanned by then: the tokens
up to that of the line, and nothing behind it. -/
theorem run_of_refused_line {script : Script α} {sink : Sink} {opening rest : List Action}
    {indent source : String} {before behind : List Lexeme} {lexeme : Lexeme}
    (hactions : script.actions = opening ++ Listing.actions indent source ++ rest)
    (hlexemes : lexemes source = before ++ lexeme :: behind)
    (h : sink.Refuses (opening.count .flush)
      (opening.flatMap Action.output ++ lexemeLines indent before)
      (lexemeLines indent [lexeme])) :
    (script.run sink).log = opening.filterMap Action.entry? ++
        ((before ++ [lexeme]).flatMap (Lexeme.events source)).map Entry.event ++ script.closing ∧
      (script.run sink).output =
        sink.accepted (opening.flatMap Action.output ++ lexemeLines indent (before ++ [lexeme])) ∧
      (script.run sink).result = .error (.output sink.refusal) := by
  have hsplit : script.actions = opening ++ Listing.actionsBefore indent source before lexeme ++
      .write (indent ++ lexeme.token.display ++ "\n") ::
        (behind.flatMap (Listing.line indent source) ++ rest) := by
    rw [hactions, Listing.actions_eq hlexemes]
    simp
  have hrefuses : sink.Refuses
      ((opening ++ Listing.actionsBefore indent source before lexeme).count .flush)
      ((opening ++ Listing.actionsBefore indent source before lexeme).flatMap Action.output)
      (Text.bytes (indent ++ lexeme.token.display ++ "\n")) := by
    rwa [List.count_append, Listing.count_flush_actionsBefore, List.flatMap_append,
      Listing.output_actionsBefore, ← lexemeLines_singleton]
  obtain ⟨hdone, hfirst⟩ := Sink.refuses_iff.1 hrefuses
  have hline : Action.output (.write (indent ++ lexeme.token.display ++ "\n")) =
      lexemeLines indent [lexeme] := (lexemeLines_singleton ..).symm
  rw [run, hsplit, Sink.perform_of_not_fits hdone hfirst, List.filterMap_append,
    Listing.entries_actionsBefore, List.flatMap_append, List.flatMap_append,
    Listing.output_actionsBefore, List.flatMap_singleton, hline, List.append_assoc,
    ← lexemeLines_append]
  exact ⟨rfl, rfl, rfl⟩

end Script

/-- The events of tokens are about illegal bytes only. -/
lemma exists_of_mem_events {source : String} {ls : List Lexeme} {e : Event}
    (h : e ∈ ls.flatMap (Lexeme.events source)) : ∃ b i, e = .illegalByte b i := by
  obtain ⟨lexeme, -, he⟩ := List.mem_flatMap.1 h
  rw [Lexeme.events] at he
  split at he
  · exact ⟨_, _, List.mem_singleton.1 he⟩
  · exact absurd he List.not_mem_nil

/-- A listing that is cut by the limit of its sink has logged the events of the tokens up to that of
the line that is cut. -/
theorem Listing.run_of_cut {source : String} {sink : Sink} {n k : Nat}
    (hcapacity : sink.capacity = some n) (hcut : CutsLine "" (lexemes source) n k) :
    let run := (script source).run sink
    run.log =
        (((lexemes source).take (k + 1)).flatMap (Lexeme.events source)).map Entry.event ∧
      run.output = ((script source).run Sink.unlimited).output.take n ∧
      run.result = .error (.output sink.refusal) := by
  intro run
  have hk := hcut.lt_length
  have hactions : (script source).actions = [] ++ actions "" source ++ [] :=
    (List.append_nil _).symm
  have hlexemes : lexemes source =
      (lexemes source).take k ++ (lexemes source)[k] :: (lexemes source).drop (k + 1) := by
    rw [List.getElem_cons_drop, List.take_append_drop]
  have hsucc : (lexemes source).take k ++ [(lexemes source)[k]] = (lexemes source).take (k + 1) :=
    List.take_append_getElem hk
  have hrefuses : sink.Refuses 0 ([] ++ lexemeLines "" ((lexemes source).take k))
      (lexemeLines "" [(lexemes source)[k]]) := by
    refine ⟨fun _ _ => Nat.zero_le _, n, hcapacity, hcut.le_limit, ?_⟩
    rw [List.nil_append, ← List.length_append, ← lexemeLines_append, hsucc]
    exact hcut.limit_lt
  obtain ⟨hlog, houtput, hresult⟩ := Script.run_of_refused_line hactions hlexemes hrefuses
  rw [hsucc] at hlog houtput
  refine ⟨hlog.trans (List.append_nil _), houtput.trans ?_, hresult⟩
  -- behind the line that is refused nothing is cut
  have hall : ((script source).run Sink.unlimited).output =
      lexemeLines "" ((lexemes source).take (k + 1)) ++
        lexemeLines "" ((lexemes source).drop (k + 1)) := by
    rw [← lexemeLines_append, List.take_append_drop]
    exact output_script source
  rw [hall, List.take_append_of_le_length hcut.limit_lt.le]
  simp [Sink.accepted, hcapacity]

/-- The listing of a file that is refused the line of a token has logged the tokens up to that one,
and then leaves its scope. -/
theorem FileListing.run_of_refused_line {path source : String} {sink : Sink}
    {before behind : List Lexeme} {lexeme : Lexeme}
    (hlexemes : lexemes source = before ++ lexeme :: behind)
    (h : sink.Refuses 0 (Text.bytes (header path) ++ lexemeLines "  " before)
      (lexemeLines "  " [lexeme])) :
    let run := (script path (.ok source)).run sink
    run.log = [Entry.opened ⟨path⟩, Entry.entered] ++
        ((before ++ [lexeme]).flatMap (Lexeme.events source)).map Entry.event ++ [Entry.left] ∧
      run.result = .error (.output sink.refusal) := by
  intro run
  have hactions : (script path (.ok source)).actions =
      [Action.record (.opened ⟨path⟩), Action.record .entered, Action.write (header path)] ++
        Listing.actions "  " source ++ [Action.write (summary (Listing.count source)),
          Action.log (.scannedFile source.utf8ByteSize (Listing.count source))] := rfl
  have hrefuses : sink.Refuses 0 (Text.bytes (header path) ++ [] ++ lexemeLines "  " before)
      (lexemeLines "  " [lexeme]) := by
    rwa [List.append_nil]
  obtain ⟨hlog, -, hresult⟩ := Script.run_of_refused_line hactions hlexemes hrefuses
  exact ⟨hlog, hresult⟩

namespace Session

variable (prompt : String) (failure : Option String)

/-- Lines of text are answered one after the other. -/
lemma actions_converse_append (lines : List String) (pieces : List (List UInt8)) :
    (converse prompt failure (lines.map Text.bytes ++ pieces)).actions =
      lines.flatMap (fun line => opening prompt ++ answer line) ++
        (converse prompt failure pieces).actions := by
  induction lines with
  | nil => rfl
  | cons line lines ih =>
    rw [List.map_cons, List.cons_append, converse_cons_of_text, List.flatMap_cons]
    simp [Script.after, ih]

/-- What a session does before it answers a line. -/
def actionsBefore (lines : List String) : List Action :=
  lines.flatMap (fun line => opening prompt ++ answer line) ++ opening prompt

lemma actions_converse_line (lines : List String) (line : String) (more : List (List UInt8)) :
    (converse prompt failure (lines.map Text.bytes ++ Text.bytes line :: more)).actions =
      actionsBefore prompt lines ++ Listing.actions "" (content line) ++
        (.log (.scannedLine (Listing.count (content line))) ::
          (converse prompt failure more).actions) := by
  rw [actions_converse_append, converse_cons_of_text]
  simp [actionsBefore, Script.after, answer]

lemma output_actionsBefore (lines : List String) (pieces : List (List UInt8)) :
    (actionsBefore prompt lines).flatMap Action.output =
      shownThrough prompt (lines.map Text.bytes ++ pieces) lines.length := by
  have hline : ∀ line, (opening prompt ++ answer line).flatMap Action.output =
      Text.bytes prompt ++ rendering (Text.bytes line) := fun line => by
    rw [List.flatMap_append, output_opening, output_answer, rendering_bytes]
  rw [actionsBefore, List.flatMap_append, output_opening, List.flatMap_assoc, shownThrough,
    List.take_left' (List.length_map _), List.flatMap_map]
  simp only [hline]

lemma count_flush_actionsBefore (lines : List String) :
    (actionsBefore prompt lines).count .flush = lines.length + 1 := by
  have hopening : (opening prompt).count .flush = 1 := by simp [opening]
  induction lines with
  | nil => exact hopening
  | cons line lines ih =>
    rw [actionsBefore, List.flatMap_cons, List.append_assoc, List.count_append, List.count_append,
      hopening, count_flush_answer, ← actionsBefore, ih, List.length_cons]
    omega

lemma entries_actionsBefore (lines : List String) :
    (actionsBefore prompt lines).filterMap Action.entry? =
      (lines.flatMap lineEvents).map Entry.event := by
  have hline : ∀ line, (opening prompt ++ answer line).filterMap Action.entry? =
      (lineEvents line).map Entry.event := fun line => by
    rw [List.filterMap_append, entries_opening, entries_answer, List.nil_append]
  rw [actionsBefore, List.filterMap_append, entries_opening, List.append_nil,
    List.filterMap_flatMap, List.map_flatMap]
  simp only [hline]

/-- A session that is refused the line of a token has logged the lines before, and of this line the
tokens up to that one. -/
theorem run_of_refused_line {input : Input} {sink : Sink} {lines : List String} {line : String}
    {more : List (List UInt8)} {before behind : List Lexeme} {lexeme : Lexeme}
    (hpieces : input.pieces = lines.map Text.bytes ++ Text.bytes line :: more)
    (hlexemes : lexemes (content line) = before ++ lexeme :: behind)
    (h : sink.Refuses (lines.length + 1)
      (shownThrough prompt input.pieces lines.length ++ lexemeLines "" before)
      (lexemeLines "" [lexeme])) :
    let run := (script prompt input).run sink
    run.log = (lines.flatMap lineEvents ++
        (before ++ [lexeme]).flatMap (Lexeme.events (content line))).map Entry.event ∧
      run.result = .error (.output sink.refusal) := by
  intro run
  have hactions := actions_converse_line prompt input.failure lines line more
  rw [← hpieces] at hactions
  have hrefuses : sink.Refuses ((actionsBefore prompt lines).count .flush)
      ((actionsBefore prompt lines).flatMap Action.output ++ lexemeLines "" before)
      (lexemeLines "" [lexeme]) := by
    rwa [count_flush_actionsBefore, output_actionsBefore prompt lines (Text.bytes line :: more),
      ← hpieces]
  obtain ⟨hlog, -, hresult⟩ := Script.run_of_refused_line hactions hlexemes hrefuses
  rw [entries_actionsBefore, closing_converse, List.append_nil, ← List.map_append] at hlog
  exact ⟨hlog, hresult⟩

end Session

/-- Nothing is scanned or logged ahead of what is written.  A listing that is cut by the limit of
its sink has scanned the tokens of the lines that lie within the limit and one more, and its log
holds their events.  What the listing of a file and a session log on any sink is how their log
begins on one that accepts everything, but for the end of the scope of a file.  If it is the line of
a token that is refused, the log ends with the events of the tokens up to that one: those of a
session follow the events of the lines before, and neither the line nor the file is said to have
been scanned. -/
theorem log_ends_with_output :
    (∀ (source : String) (sink : Sink) (n : Nat),
      let all := lexemes source
      let full := (Listing.script source).run Sink.unlimited
      let run := (Listing.script source).run sink
      let k := linesWithin "" all n
      let pulls := (Text.bytes source).countP (fun b => !isBlank b) + 1
      sink.capacity = some n → n < full.output.length →
        ∃ (after : Cursor) (trace : Trace),
          StateT.run (Scan.list "" pulls sink { source }) {} =
            .ok (some ⟨after, k, run.output, some sink.refusal⟩, trace) ∧
          Cursor.pullUpTo { source } (k + 1) = (all.take (k + 1), after) ∧ k < all.length ∧
          trace.events = (all.take (k + 1)).flatMap (Lexeme.events source) ∧
          run.log = trace.events.map Entry.event ∧ run.output = full.output.take n ∧
          run.result = .error (.output sink.refusal)) ∧
    (∀ (path : String) (content : Except FileFault String) (sink : Sink),
      let script := FileListing.script path content
      ∃ kept lost : List Entry, (script.run sink).log = kept ++ [Entry.left] ∧
        (script.run Sink.unlimited).log = kept ++ lost ++ [Entry.left]) ∧
    (∀ (path source : String) (sink : Sink) (before behind : List Lexeme) (lexeme : Lexeme),
      let run := (FileListing.script path (.ok source)).run sink
      lexemes source = before ++ lexeme :: behind →
      sink.Refuses 0 (Text.bytes (FileListing.header path) ++ lexemeLines "  " before)
        (lexemeLines "  " [lexeme]) →
      run.log = [Entry.opened ⟨path⟩, Entry.entered] ++
          ((before ++ [lexeme]).flatMap (Lexeme.events source)).map Entry.event ++ [Entry.left] ∧
        (∀ bytes count, Entry.event (.scannedFile bytes count) ∉ run.log) ∧
        run.result = .error (.output sink.refusal)) ∧
    (∀ (prompt : String) (input : Input) (sink : Sink),
      let script := Session.script prompt input
      (script.run sink).log <+: (script.run Sink.unlimited).log) ∧
    ∀ (prompt : String) (input : Input) (sink : Sink) (lines : List String) (line : String)
      (more : List (List UInt8)) (before behind : List Lexeme) (lexeme : Lexeme),
      let run := (Session.script prompt input).run sink
      let source := Session.content line
      let last := (before ++ [lexeme]).flatMap (Lexeme.events source)
      input.pieces = lines.map Text.bytes ++ Text.bytes line :: more →
      lexemes source = before ++ lexeme :: behind →
      sink.Refuses (lines.length + 1)
        (Session.shownThrough prompt input.pieces lines.length ++ lexemeLines "" before)
        (lexemeLines "" [lexeme]) →
      run.log = (lines.flatMap Session.lineEvents ++ last).map Entry.event ∧
        (∀ count, Event.scannedLine count ∉ last) ∧
        run.result = .error (.output sink.refusal) := by
  refine ⟨fun source sink n => ?_, fun path content sink => ?_,
    fun path source sink before behind lexeme => ?_, fun prompt input sink => ?_,
    fun prompt input sink lines line more before behind lexeme => ?_⟩
  · intro all full run k pulls hcapacity hlt
    have hfull : full.output = lexemeLines "" all := Listing.output_script source
    rw [hfull] at hlt
    obtain ⟨m, after, made, hmade, hcut, hpulled, hevents⟩ :=
      Scan.exists_yields_list (Nat.lt_succ_self (Cursor.solid { source })) hcapacity hlt
    obtain rfl : k = m := hcut.linesWithin_eq
    obtain ⟨hlog, houtput, hresult⟩ := Listing.run_of_cut hcapacity hcut
    have hwritten : run.output = (lexemeLines "" all).take n :=
      houtput.trans (congrArg (List.take n) hfull)
    refine ⟨after, made, ?_, hpulled, hcut.lt_length, hevents, ?_, houtput, hresult⟩
    · rw [hwritten]
      exact hmade {}
    · exact hlog.trans (congrArg (List.map Entry.event) hevents.symm)
  · intro script
    have hclosing : script.closing = [.left] := by
      cases content <;> rfl
    rw [← hclosing]
    exact script.exists_log_run sink
  · intro run hlexemes hrefuses
    obtain ⟨hlog, hresult⟩ := FileListing.run_of_refused_line hlexemes hrefuses
    refine ⟨hlog, fun bytes count hmem => ?_, hresult⟩
    have hscanned : Event.scannedFile bytes count ∈
        (before ++ [lexeme]).flatMap (Lexeme.events source) := by
      simpa [show run.log = _ from hlog] using hmem
    obtain ⟨b, i, hillegal⟩ := exists_of_mem_events hscanned
    exact Event.noConfusion hillegal
  · intro script
    obtain ⟨kept, lost, hlog, hfull⟩ := script.exists_log_run sink
    have hclosing : script.closing = [] := Session.closing_converse ..
    rw [hlog, hfull, hclosing, List.append_nil, List.append_nil]
    exact List.prefix_append ..
  · intro run source last hpieces hlexemes hrefuses
    obtain ⟨hlog, hresult⟩ := Session.run_of_refused_line prompt hpieces hlexemes hrefuses
    refine ⟨hlog, fun count hmem => ?_, hresult⟩
    obtain ⟨b, i, hillegal⟩ := exists_of_mem_events hmem
    exact Event.noConfusion hillegal

/-- A sink has no room for the line of the second token, whether that is listed by itself, within a
file, or in a session that has read an empty line before. -/
theorem log_ends_with_output_second_token :
    let word : Lexeme := ⟨⟨.ident, "a"⟩, ⟨0, 1, by decide⟩⟩
    let sign : Lexeme := ⟨⟨.illegal, "@"⟩, ⟨2, 3, by decide⟩⟩
    let sink := (Sink.limited 45 .closed).failingAt 2
    let input : Input := { bytes := Text.bytes "\na @\n" }
    let listing := Listing.script "a @"
    lexemes "a @" = [word] ++ sign :: [] ∧
      (45 < (listing.run Sink.unlimited).output.length ∧
        (listing.run sink).result = .error (.output .closed)) ∧
      (sink.Refuses 0 (Text.bytes (FileListing.header "f") ++ lexemeLines "  " [word])
          (lexemeLines "  " [sign]) ∧
        ((FileListing.script "f" (.ok "a @")).run sink).log =
          [.opened ⟨"f"⟩, .entered, .event (.illegalByte 64 2), .left]) ∧
      sink.Refuses 2 (Session.shownThrough ">> " input.pieces 1 ++ lexemeLines "" [word])
          (lexemeLines "" [sign]) ∧
        ((Session.script ">> " input).run sink).log =
          [.event (.scannedLine 0), .event (.illegalByte 64 2)] := by
  intro word sign sink input listing
  obtain ⟨hlisting, -, hfile, -, hsession⟩ := log_ends_with_output
  have hword : Cursor.pull { source := "a @" } = (some word, ⟨"a @", 1⟩) := by cbv
  have hsign : Cursor.pull ⟨"a @", 1⟩ = (some sign, ⟨"a @", 3⟩) := by cbv
  have hend : Cursor.pull ⟨"a @", 3⟩ = (none, ⟨"a @", 3⟩) := by cbv
  have hblank : Cursor.pull { source := "\n" } = (none, ⟨"\n", 1⟩) := by cbv
  have hlexemes : lexemes "a @" = [word] ++ sign :: [] := by
    rw [lexemes, Cursor.drain_of_pull_some hword, Cursor.drain_of_pull_some hsign,
      Cursor.drain_of_pull_none hend]
    rfl
  have hnone : tokens "\n" = [] := by
    rw [tokens, lexemes, Cursor.drain_of_pull_none hblank]
    rfl
  have hlt : 45 < (listing.run Sink.unlimited).output.length := by
    rw [Listing.output_script, tokens, hlexemes]
    decide
  have hrefuses : sink.Refuses 0 (Text.bytes (FileListing.header "f") ++ lexemeLines "  " [word])
      (lexemeLines "  " [sign]) :=
    ⟨by decide, 45, rfl, by decide, by decide⟩
  have hpieces : input.pieces = ["\n"].map Text.bytes ++ Text.bytes "a @\n" :: [] := by cbv
  have hshown : Session.shownThrough ">> " input.pieces 1 = Text.bytes ">> >> " := by
    rw [hpieces, Session.shownThrough, List.map_singleton, List.singleton_append,
      List.take_succ_cons, List.take_zero, List.flatMap_singleton, Session.rendering_bytes, hnone]
    rfl
  have hrefuses' : sink.Refuses 2
      (Session.shownThrough ">> " input.pieces 1 ++ lexemeLines "" [word])
      (lexemeLines "" [sign]) := by
    rw [hshown]
    exact ⟨by decide, 45, rfl, by decide, by decide⟩
  obtain ⟨-, -, -, -, -, -, -, -, hresult⟩ := hlisting "a @" sink 45 rfl hlt
  have hevents : ([word] ++ [sign]).flatMap (Lexeme.events "a @") = [.illegalByte 64 2] := by decide
  obtain ⟨hfileLog, -⟩ := hfile "f" "a @" sink [word] [] sign hlexemes hrefuses
  have hcontent : Session.content "a @\n" = "a @" := by decide
  have hanswered : lexemes (Session.content "a @\n") = [word] ++ sign :: [] := by
    rw [hcontent, hlexemes]
  obtain ⟨hsessionLog, -⟩ :=
    hsession ">> " input sink ["\n"] "a @\n" [] [word] [] sign hpieces hanswered hrefuses'
  rw [hevents] at hfileLog
  rw [hcontent, hevents, List.flatMap_singleton, Session.lineEvents, hnone] at hsessionLog
  exact ⟨hlexemes, ⟨hlt, hresult⟩, ⟨hrefuses, hfileLog⟩, hrefuses', hsessionLog⟩

end TokenStream

import TokenStream.Proofs.IllegalBytes
import TokenStream.Proofs.Sessions

/-!
# What sessions and file listings log

A session logs the illegal bytes of a line with their positions in that line and then the number of
its tokens; at the end of its input it logs that, too (`Session.entries_converse`).  A listing logs
the illegal bytes of its text with their positions in the text (`Listing.entries_actions`).

The two speak of the same bytes.  With the offset of its line added, an event of a session becomes
the event of the listing of the whole input, in the same order (`map_ofIllegal_flatMap`), and the
numbers of tokens add up (`session_log_agrees`).
-/

namespace TokenStream

/-- The events of the illegal bytes of a text. -/
def illegalEvents (source : String) : List Event :=
  (illegalAt 0 (Text.bytes source)).map Event.ofIllegal

/-- The event when `n` more bytes stand in front of the text that it speaks of. -/
def Event.shift (n : Nat) : Event → Event
  | illegalByte byte position => illegalByte byte (n + position)
  | scannedLine tokens => scannedLine tokens
  | inputExhausted => inputExhausted
  | scannedFile bytes tokens => scannedFile bytes tokens

/-- Texts that follow one another, each with its offset if the first stands at `start`. -/
def withOffsets (start : Nat) : List String → List (Nat × String)
  | [] => []
  | line :: rest => (start, line) :: withOffsets (start + line.utf8ByteSize) rest

/-! ## Offsets -/

lemma map_shift_illegalEvents (n : Nat) (source : String) :
    (illegalEvents source).map (Event.shift n) =
      (illegalAt n (Text.bytes source)).map Event.ofIllegal := by
  have hshift : illegalAt n (Text.bytes source) =
      (illegalAt 0 (Text.bytes source)).map fun p => (p.1, n + p.2) := by
    rw [illegalAt, List.zipIdx_eq_map_add, List.filter_map]
    rfl
  rw [illegalEvents, hshift, List.map_map, List.map_map]
  rfl

/-- The illegal bytes of texts that follow one another are those of each text, moved by its
offset. -/
lemma map_ofIllegal_flatMap (start : Nat) (lines : List String) :
    (illegalAt start (lines.flatMap Text.bytes)).map Event.ofIllegal =
      (withOffsets start lines).flatMap fun (offset, line) =>
        (illegalEvents line).map (Event.shift offset) := by
  induction lines generalizing start with
  | nil => rfl
  | cons line lines ih =>
    rw [List.flatMap_cons, illegalAt_append, List.map_append, ← map_shift_illegalEvents,
      Text.length_bytes, ih]
    rfl

/-- What a line ends with is legal. -/
lemma illegalEvents_content (line : String) :
    illegalEvents (Session.content line) = illegalEvents line := by
  obtain ⟨ending, hline, hblank⟩ := exists_content_append line
  have hlegal : ∀ start, illegalAt start (Text.bytes ending) = [] :=
    illegalAt_of_not_isIllegal fun b hb => not_isIllegal_of_isBlank (hblank b hb)
  conv_rhs =>
    rw [hline, illegalEvents, Text.bytes_append, illegalAt_append, hlegal, List.append_nil]
  rfl

/-! ## Listings -/

namespace Listing

lemma entries_line (indent source : String) (lexeme : Lexeme) :
    (line indent source lexeme).filterMap Action.entry? =
      (lexeme.events source).map Entry.event := by
  have hlog : Action.entry? ∘ Action.log = some ∘ Entry.event := rfl
  rw [line, List.filterMap_append, List.filterMap_map, hlog, List.filterMap_eq_map]
  exact List.append_nil _

theorem entries_actions (indent source : String) :
    (actions indent source).filterMap Action.entry? = (illegalEvents source).map Entry.event := by
  rw [actions, List.filterMap_flatMap]
  simp only [entries_line]
  rw [← List.map_flatMap, events_lexemes, illegalEvents]

end Listing

theorem FileListing.log_script (path source : String) :
    ((script path (.ok source)).run Sink.unlimited).log =
      [.opened ⟨path⟩, .entered] ++ (illegalEvents source
        ++ [Event.scannedFile source.utf8ByteSize (tokens source).length]).map Entry.event
        ++ [.left] := by
  rw [Script.run_unlimited]
  simp [script, List.filterMap_cons, Listing.entries_actions, Listing.count_eq, Action.entry?,
    Action.log]

/-! ## Sessions -/

namespace Session

variable (prompt : String) (failure : Option String)

/-- What a session logs of a line. -/
def lineEvents (line : String) : List Event :=
  illegalEvents line ++ [.scannedLine (tokens line).length]

/-- What a session logs of a piece that is a text. -/
def pieceEvents (piece : List UInt8) : List Event :=
  ((Text.ofBytes? piece).map lineEvents).getD []

lemma pieceEvents_bytes (line : String) : pieceEvents (Text.bytes line) = lineEvents line := by
  rw [pieceEvents, Text.ofBytes?_eq_some_iff.2 rfl]
  rfl

lemma entries_opening : (opening prompt).filterMap Action.entry? = [] := rfl

lemma entries_answer (line : String) :
    (answer line).filterMap Action.entry? = (lineEvents line).map Entry.event := by
  rw [answer, List.filterMap_append, Listing.entries_actions, illegalEvents_content,
    Listing.count_eq, tokens_content, lineEvents, List.map_append]
  rfl

/-- A session logs the events of every piece up to the first that is no text, and the end of its
input if it comes there. -/
theorem entries_converse (pieces : List (List UInt8)) :
    (converse prompt failure pieces).actions.filterMap Action.entry? =
      ((pieces.takeWhile Input.isText).flatMap pieceEvents ++
        if pieces.all Input.isText && failure.isNone then [Event.inputExhausted]
        else []).map Entry.event := by
  induction pieces using Input.induction_on_texts with
  | nil => cases failure <;> rfl
  | notText piece rest htext =>
    rw [converse_cons_of_not_text prompt failure htext]
    simp [Script.after, Script.fail, entries_opening, htext]
  | text line rest ih =>
    rw [converse_cons_of_text]
    simp [Script.after, entries_opening, entries_answer, ih, pieceEvents_bytes]

/-- A session has no scope to leave. -/
lemma closing_converse (pieces : List (List UInt8)) :
    (converse prompt failure pieces).closing = [] := by
  induction pieces using Input.induction_on_texts with
  | nil => cases failure <;> rfl
  | notText piece rest htext =>
    rw [converse_cons_of_not_text prompt failure htext]
    rfl
  | text line rest ih =>
    rw [converse_cons_of_text]
    exact ih

/-- What a session over an input logs. -/
def events (input : Input) : List Event :=
  (input.pieces.takeWhile Input.isText).flatMap pieceEvents ++
    if input.pieces.all Input.isText && input.failure.isNone then [Event.inputExhausted] else []

theorem log_script (input : Input) :
    ((script prompt input).run Sink.unlimited).log = (events input).map Entry.event := by
  rw [Script.run_unlimited, script, entries_converse, closing_converse]
  exact List.append_nil _

end Session

/-- What a session over a text logs, and what the listing of a file with that content logs.  Line
by line, a session logs the illegal bytes of the line and how many tokens it shows for it.  With
the offset of its line added, an illegal byte of the session is one of the file, in the same
order, and the tokens of the file are as many as those of all lines. -/
theorem session_log_agrees (prompt path source : String) :
    ∃ lines : List String, Input.LineCut (Text.bytes source) (lines.map Text.bytes) ∧
      let session := (Session.script prompt { bytes := Text.bytes source }).run Sink.unlimited
      let file := (FileListing.script path (.ok source)).run Sink.unlimited
      session.log = (lines.flatMap Session.lineEvents ++ [Event.inputExhausted]).map Entry.event ∧
      session.output =
        lines.flatMap (fun line => Text.bytes prompt ++ tokenLines "" (tokens line))
          ++ Text.bytes prompt ∧
      file.log =
        [.opened ⟨path⟩, .entered] ++
          (illegalEvents source ++ [Event.scannedFile source.utf8ByteSize
            (lines.map fun line => (tokens line).length).sum]).map Entry.event ++ [.left] ∧
      illegalEvents source = (withOffsets 0 lines).flatMap fun (offset, line) =>
        (illegalEvents line).map (Event.shift offset) := by
  obtain ⟨lines, hlines, htokens⟩ := exists_lines source
  have hcut := Input.lineCut_iff.2 hlines.symm
  have hpieces : Input.pieces { bytes := Text.bytes source } = lines.map Text.bytes := hlines
  refine ⟨lines, hcut, ?_⟩
  intro session file
  refine ⟨?_, ?_, ?_, ?_⟩
  · rw [Session.log_script, Session.events, hpieces, Input.takeWhile_isText_map_bytes,
      Input.all_isText_map_bytes, List.flatMap_map]
    simp only [Session.pieceEvents_bytes]
    rfl
  · obtain ⟨houtput, -, -⟩ := Session.converse_spec prompt none (lines.map Text.bytes)
    rw [Input.takeWhile_isText_map_bytes, List.flatMap_map] at houtput
    simp only [Session.rendering_bytes] at houtput
    simp only [session, Session.script, hpieces, Script.run_unlimited]
    exact houtput
  · rw [FileListing.log_script, ← htokens, List.length_flatMap]
  · rw [← map_ofIllegal_flatMap, List.flatMap_def, hcut.flatten_eq, illegalEvents]

end TokenStream

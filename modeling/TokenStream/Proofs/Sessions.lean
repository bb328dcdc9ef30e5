import Mathlib
import TokenStream.Proofs.Lines
import TokenStream.Proofs.Transcript

/-!
# What a session shows

On a sink that accepts everything a session shows, for every piece of its input up to the first
that is no text, the prompt and the token lines of that piece, and then the prompt once more
(`session_run`).  How it ends is decided by the first piece that is no text, and by the end of the
input only if there is none.  A session knows no pieces: it reads one line after the other
(`Session.script_eq_readLine`).

Since no token crosses the end of a line, a session without a prompt shows what listing its whole
input at once shows, and so does the listing of a file with that content between its header and
the count (`session_agrees`).
-/

namespace TokenStream

namespace Input

/-- A piece of input that is a text. -/
def isText (piece : List UInt8) : Bool := (Text.ofBytes? piece).isSome

/-- The pieces without the last, if that one lacks its line feed. -/
def withoutIncomplete (pieces : List (List UInt8)) : List (List UInt8) :=
  if pieces.getLast?.bind List.getLast? = some lineFeed then pieces else pieces.dropLast

@[simp]
lemma isText_bytes (source : String) : isText (Text.bytes source) = true := by
  rw [isText, Text.ofBytes?_eq_some_iff.2 rfl]
  rfl

/-- Pieces that are all texts are read to the last. -/
lemma takeWhile_isText_map_bytes (lines : List String) :
    (lines.map Text.bytes).takeWhile isText = lines.map Text.bytes := by
  rw [List.takeWhile_eq_self_iff, List.forall_mem_map]
  exact fun line _ => isText_bytes line

lemma all_isText_map_bytes (lines : List String) : (lines.map Text.bytes).all isText = true := by
  rw [List.all_eq_true, List.forall_mem_map]
  exact fun line _ => isText_bytes line

/-- Induction over pieces of input: the first is a text, or a session goes no further. -/
@[elab_as_elim]
theorem induction_on_texts {motive : List (List UInt8) → Prop} (nil : motive [])
    (text : ∀ line rest, motive rest → motive (Text.bytes line :: rest))
    (notText : ∀ piece rest, isText piece = false → motive (piece :: rest))
    (pieces : List (List UInt8)) : motive pieces := by
  induction pieces with
  | nil => exact nil
  | cons piece rest ih =>
    cases htext : isText piece with
    | false => exact notText piece rest htext
    | true =>
      obtain ⟨line, hline⟩ := Option.isSome_iff_exists.1 htext
      obtain rfl := Text.ofBytes?_eq_some_iff.1 hline
      exact text line rest ih

/-- Of the pieces of an input only the last can lack its line feed. -/
lemma LineCut.filter_eq {bs : List UInt8} {pieces : List (List UInt8)} (h : LineCut bs pieces) :
    pieces.filter (fun piece => piece.getLast? == some lineFeed) = withoutIncomplete pieces := by
  rcases List.eq_nil_or_concat' pieces with rfl | ⟨front, last, rfl⟩
  · rfl
  have hfront : front.filter (fun piece => piece.getLast? == some lineFeed) = front := by
    rw [List.filter_eq_self]
    intro piece hp
    rw [h.complete piece (by simpa using hp)]
    rfl
  rw [List.filter_append, hfront, withoutIncomplete, List.getLast?_concat, List.dropLast_concat]
  by_cases hlast : last.getLast? = some lineFeed <;> simp [hlast]

lemma pieces_eq (input : Input) : input.pieces =
    if input.failure.isSome then withoutIncomplete (splitLines input.bytes)
    else splitLines input.bytes := by
  rw [pieces, ← (lineCut_splitLines input.bytes).filter_eq]
  cases input.failure with
  | none => rfl
  | some text => rfl

/-- Reads one line: the bytes through the next line feed, or those that are left where the input
ends without one.  A line that the input breaks off is never handed out. -/
def readLine (input : Input) : Except InputFault (Option (String × Input)) :=
  let front := input.bytes.takeWhile (· != lineFeed)
  match input.bytes.dropWhile (· != lineFeed), input.failure with
  | _ :: rest, _ =>
    match Text.ofBytes? (front ++ [lineFeed]) with
    | some line => .ok (some (line, { input with bytes := rest }))
    | none => .error .notText
  | [], some text => .error (.reported text)
  | [], none =>
    if front = [] then .ok none
    else
      match Text.ofBytes? front with
      | some line => .ok (some (line, { input with bytes := [] }))
      | none => .error .notText

/-- Up to its first line feed an input is one piece, which is never lost. -/
lemma pieces_of_lineFeed {front rest : List UInt8} (h : lineFeed ∉ front)
    (failure : Option String) :
    pieces ⟨front ++ lineFeed :: rest, failure⟩
      = (front ++ [lineFeed]) :: pieces ⟨rest, failure⟩ := by
  have hline : IsLine (front ++ [lineFeed]) rest :=
    ⟨by simp, by rwa [List.dropLast_concat], fun _ => List.getLast?_concat⟩
  have hsplit := splitLines_append hline
  rw [List.append_assoc, List.singleton_append] at hsplit
  cases failure <;> simp [pieces, hsplit]

/-- An input without a line feed is one incomplete piece, or none. -/
lemma pieces_of_not_mem {front : List UInt8} (h : lineFeed ∉ front) (failure : Option String) :
    pieces ⟨front, failure⟩ = if front = [] ∨ failure.isSome then [] else [front] := by
  by_cases hnil : front = []
  · subst hnil
    cases failure <;> rfl
  have hline : IsLine front [] := ⟨hnil, fun hmem => h (List.dropLast_subset _ hmem), by simp⟩
  have hsplit := splitLines_append hline
  rw [List.append_nil] at hsplit
  have hlast : front.getLast? ≠ some lineFeed := fun hl => h (List.mem_of_getLast? hl)
  cases failure <;> simp [pieces, hsplit, hlast, hnil, splitLines]

end Input

namespace Session

/-- The token lines of a piece that is a text. -/
def rendering (piece : List UInt8) : List UInt8 :=
  ((Text.ofBytes? piece).map fun line => tokenLines "" (tokens line)).getD []

lemma rendering_bytes (line : String) :
    rendering (Text.bytes line) = tokenLines "" (tokens line) := by
  rw [rendering, Text.ofBytes?_eq_some_iff.2 rfl]
  rfl

/-! ## The parts of a session -/

lemma output_opening (prompt : String) :
    (opening prompt).flatMap Action.output = Text.bytes prompt := by
  simp [opening, Action.output]

lemma output_answer (line : String) :
    (answer line).flatMap Action.output = tokenLines "" (tokens line) := by
  rw [answer, List.flatMap_append, Listing.output_actions, tokens_content]
  simp [Action.log, Action.output]

lemma count_flush_answer (line : String) : (answer line).count .flush = 0 := by
  rw [answer, List.count_append, Listing.count_flush_actions]
  simp [Action.log]

/-! ## Whole sessions -/

variable (prompt : String) (failure : Option String)

/-- A piece that is a text is answered, and the session goes on. -/
lemma converse_cons_of_text (line : String) (rest : List (List UInt8)) :
    converse prompt failure (Text.bytes line :: rest) =
      .after (opening prompt ++ answer line) (converse prompt failure rest) := by
  rw [converse, Text.ofBytes?_eq_some_iff.2 rfl]
  simp [Script.after]

/-- A piece that is no text ends the session. -/
lemma converse_cons_of_not_text {piece : List UInt8} (h : Input.isText piece = false)
    (rest : List (List UInt8)) :
    converse prompt failure (piece :: rest) =
      .after (opening prompt) (.fail (.input .notText)) := by
  rw [converse, Option.not_isSome_iff_eq_none.1 (Bool.eq_false_iff.1 h)]

lemma ending_spec : (ending failure).actions.flatMap Action.output = [] ∧
    (ending failure).actions.count .flush = 0 := by
  cases failure with
  | none => exact ⟨rfl, rfl⟩
  | some text => exact ⟨rfl, rfl⟩

/-- A session answers the pieces up to the first that is no text, and if there is none, it ends as
the input does. -/
theorem converse_spec (pieces : List (List UInt8)) :
    let script := converse prompt failure pieces
    let texts := pieces.takeWhile Input.isText
    script.actions.flatMap Action.output =
        texts.flatMap (fun piece => Text.bytes prompt ++ rendering piece) ++ Text.bytes prompt ∧
      script.actions.count .flush = texts.length + 1 ∧
      script.outcome =
        if pieces.all Input.isText then (ending failure).outcome else .error (.input .notText) := by
  have hopening : (opening prompt).count .flush = 1 := by simp [opening]
  induction pieces using Input.induction_on_texts with
  | nil =>
    obtain ⟨houtput, hflush⟩ := ending_spec failure
    refine ⟨?_, ?_, rfl⟩
    · simp [converse, Script.after, output_opening, houtput]
    · simp [converse, Script.after, hopening, hflush]
  | notText piece rest htext =>
    rw [converse_cons_of_not_text prompt failure htext]
    refine ⟨?_, ?_, ?_⟩
    · simp [Script.after, Script.fail, output_opening, htext]
    · simp [Script.after, Script.fail, hopening, htext]
    · simp [Script.after, Script.fail, htext]
  | text line rest ih =>
    obtain ⟨houtput, hflush, houtcome⟩ := ih
    rw [converse_cons_of_text]
    refine ⟨?_, ?_, ?_⟩
    · simp [Script.after, houtput, output_opening, output_answer, rendering_bytes]
    · simp [Script.after, hflush, hopening, count_flush_answer]
      omega
    · simp [Script.after, houtcome]

/-- A session prompts, reads a line, answers it and starts over, until reading fails or brings
nothing more. -/
theorem script_eq_readLine (input : Input) : script prompt input =
    .after (opening prompt)
      (match input.readLine with
      | .error fault => .fail (.input fault)
      | .ok none => { actions := [.log .inputExhausted], outcome := .ok () }
      | .ok (some (line, rest)) => .after (answer line) (script prompt rest)) := by
  obtain ⟨bytes, failure⟩ := input
  have hcut := List.takeWhile_append_dropWhile (p := (· != Input.lineFeed)) (l := bytes)
  have hfront : Input.lineFeed ∉ bytes.takeWhile (· != Input.lineFeed) := fun hmem => by
    simpa using List.mem_takeWhile_imp hmem
  have hback : ∀ b more, bytes.dropWhile (· != Input.lineFeed) = b :: more → b = Input.lineFeed :=
    fun b more h => by simpa using head_dropWhile h
  rw [script, Input.readLine]
  generalize bytes.takeWhile (· != Input.lineFeed) = front at hcut hfront ⊢
  generalize bytes.dropWhile (· != Input.lineFeed) = back at hcut hback ⊢
  subst hcut
  cases back with
  | cons b rest =>
    obtain rfl := hback b rest rfl
    rw [Input.pieces_of_lineFeed hfront, converse]
    cases Text.ofBytes? (front ++ [Input.lineFeed]) with
    | none => rfl
    | some line => rfl
  | nil =>
    -- no line feed is left: the last line, a lost one, or none
    rw [List.append_nil, Input.pieces_of_not_mem hfront]
    cases failure with
    | some text => simp [converse, ending]
    | none =>
      by_cases hnil : front = []
      · simp [hnil, converse, ending]
      · simp only [hnil, Option.isSome_none, Bool.false_eq_true, or_false, if_false, converse]
        cases Text.ofBytes? front with
        | none => rfl
        | some line => rfl

/-- Without a prompt, a session over a text shows the tokens of the text: no token crosses the end
of a line. -/
theorem run_text (source : String) :
    let run := (script "" { bytes := Text.bytes source }).run Sink.unlimited
    run.output = tokenLines "" (tokens source) ∧ run.result = .ok () := by
  intro run
  obtain ⟨lines, hlines, htokens⟩ := exists_lines source
  obtain ⟨houtput, -, houtcome⟩ := converse_spec "" none (lines.map Text.bytes)
  have hscript : script "" { bytes := Text.bytes source }
      = converse "" none (lines.map Text.bytes) := by
    rw [script, Input.pieces, hlines]
  simp only [run, hscript, Script.run_unlimited]
  constructor
  · have hempty : Text.bytes "" = [] := rfl
    rw [houtput, Input.takeWhile_isText_map_bytes, List.flatMap_map, ← htokens,
      tokenLines_flatMap]
    simp [hempty, rendering_bytes]
  · rw [houtcome, if_pos (Input.all_isText_map_bytes lines)]
    rfl

end Session

/-- A session over any bytes.  It prompts, reads a line, answers it and starts over, until reading
fails or brings nothing more.  Taken as a whole, the bytes are cut behind every line feed, and where
the input breaks off, an incomplete last piece is lost; with `k` the number of pieces before the
first that is no text, the session shows `k` pieces, each behind the prompt, and the prompt once
more, and has waited for its output at every prompt.  A piece that is no text is the fault; if there
is none, the end of the input decides. -/
theorem session_run (prompt : String) (input : Input) :
    let all := Input.splitLines input.bytes
    let pieces := if input.failure.isSome then Input.withoutIncomplete all else all
    let k := pieces.findIdx fun piece => !Input.isText piece
    let run := (Session.script prompt input).run Sink.unlimited
    Session.script prompt input = .after (Session.opening prompt)
        (match input.readLine with
        | .error fault => .fail (.input fault)
        | .ok none => { actions := [.log .inputExhausted], outcome := .ok () }
        | .ok (some (line, rest)) =>
          .after (Session.answer line) (Session.script prompt rest)) ∧
      (∀ cut, Input.LineCut input.bytes cut ↔ cut = all) ∧
      run.output = (pieces.take k).flatMap
        (fun piece => Text.bytes prompt ++ Session.rendering piece) ++ Text.bytes prompt ∧
      run.flushes = k + 1 ∧
      run.result =
        (if k < pieces.length then .error (.input .notText)
        else
          match input.failure with
          | none => .ok ()
          | some text => .error (.input (.reported text))) ∧
      InputFault.notText.message = "stream did not contain valid UTF-8" := by
  intro all pieces k run
  obtain ⟨houtput, hflush, houtcome⟩ :=
    Session.converse_spec prompt input.failure pieces
  have htexts : pieces.takeWhile Input.isText = pieces.take k :=
    List.takeWhile_eq_take_findIdx_not
  have hk : k ≤ pieces.length := List.findIdx_le_length
  have hscript : Session.script prompt input = Session.converse prompt input.failure pieces := by
    rw [Session.script, Input.pieces_eq]
  have hrun : run = (Session.converse prompt input.failure pieces).run Sink.unlimited := by
    rw [← hscript]
  rw [Script.run_unlimited, houtput, hflush, houtcome, htexts, List.length_take,
    Nat.min_eq_left hk] at hrun
  rw [hrun]
  refine ⟨Session.script_eq_readLine prompt input, fun _ => Input.lineCut_iff, rfl, rfl, ?_, rfl⟩
  have hall : pieces.all Input.isText = true ↔ ¬ k < pieces.length := by
    rw [List.findIdx_lt_length]
    simp
  dsimp only
  by_cases hlt : k < pieces.length
  · rw [if_neg (mt hall.1 (not_not.2 hlt)), if_pos hlt]
  · rw [if_pos (hall.2 hlt), if_neg hlt]
    cases input.failure with
    | none => rfl
    | some text => rfl

-- a carriage return ends no line, wherever it stands
example : Input.pieces { bytes := Text.bytes "fn\r\n=\n\r= 5" } =
    ["fn\r\n", "=\n", "\r= 5"].map Text.bytes := by
  cbv

/-- A session without a prompt over a text, the listing of the text as a whole, and the listing of
any file that contains it show the same lines and find the same number of tokens. -/
theorem session_agrees (source path : String) :
    let count := (tokenize source).length - 1
    let session := (Session.script "" { bytes := Text.bytes source }).run Sink.unlimited
    let whole := (Listing.script source).run Sink.unlimited
    let file := (FileListing.script path (.ok source)).run Sink.unlimited
    session.result = .ok () ∧ session.output = whole.output ∧
      whole.output = tokenLines "" (tokens source) ∧ whole.result = .ok count ∧
      file.output = Text.bytes ("Tokens for '" ++ path ++ "':\n") ++
        tokenLines "  " (tokens source) ++ Text.bytes (toString count ++ " tokens\n") ∧
      file.result = .ok count := by
  intro count session whole file
  have hcount : Listing.count source = count := by
    simp [count, tokenize, tokens, Listing.count]
  have hwhole : whole.output = tokenLines "" (tokens source) ∧ whole.result = .ok count := by
    simp only [whole, Listing.script, Script.run_unlimited, Listing.output_actions, hcount,
      and_self]
  have hlisting : file.output = Text.bytes (FileListing.header path) ++
      tokenLines "  " (tokens source) ++ Text.bytes (FileListing.summary count) ∧
      file.result = .ok count := by
    simp [file, FileListing.script, Script.run_unlimited, Listing.output_actions, hcount,
      Action.output, Action.log]
  have hsession := Session.run_text source
  exact ⟨hsession.2, hsession.1.trans hwhole.1.symm, hwhole.1, hwhole.2, hlisting.1, hlisting.2⟩

end TokenStream

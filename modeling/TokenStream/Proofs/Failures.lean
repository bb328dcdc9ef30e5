import TokenStream.Proofs.Refusal

/-!
# How a run fails

Four things can be at fault in a run: its arguments, the file that it is to list, its input and its
output.  They come to light in this order.  Arguments that are refused and a file that cannot be
read end a run before it has written anything, so there no sink makes a difference
(`Script.run_of_quiet`).  From then on it is the sink that decides how far the run gets: either it
carries all actions out, and the run ends as its script says, or it stops the run, by its limit or
by the flush that fails (`Script.run_of_not_fits`).

What a script itself can end with is told by what the run was given (`Invocation.blames`): only a
session fails for its input, and it does so behind a prompt.
-/

namespace TokenStream

namespace Sink

/-- What does not fit is too long or is flushed too often. -/
lemma not_fits_iff {sink : Sink} {actions : List Action} : ¬ sink.Fits actions ↔
    (∃ n ∈ sink.capacity, n < (actions.flatMap Action.output).length) ∨
      ∃ k ∈ sink.failingFlush, k < actions.count .flush := by
  constructor
  · intro h
    by_contra hnone
    rw [not_or] at hnone
    obtain ⟨hlength, hcount⟩ := hnone
    exact h ⟨fun n hn => Nat.le_of_not_lt fun hlt => hlength ⟨n, hn, hlt⟩,
      fun k hk => Nat.le_of_not_lt fun hlt => hcount ⟨k, hk, hlt⟩⟩
  · rintro (⟨n, hn, hlt⟩ | ⟨k, hk, hlt⟩) hfits
    · exact absurd (hfits.output_le n hn) (Nat.not_le.2 hlt)
    · exact absurd (hfits.flushes_le k hk) (Nat.not_le.2 hlt)

/-- A sink stops a script with a fault: its limit lies before the end of the full output, and it has
seen the output up to there, or its failing flush is one of those of the script, and it has seen the
flushes before. -/
def Stops {α : Type} (sink : Sink) (script : Script α) (fault : OutputFault) : Prop :=
  let full := script.run unlimited
  let run := script.run sink
  (fault = sink.refusal ∧
      ∃ n, sink.capacity = some n ∧ n < full.output.length ∧ run.output = full.output.take n) ∨
    (fault = .flushFailed ∧
      ∃ k, sink.failingFlush = some k ∧ k < full.flushes ∧ run.flushes = k)

end Sink

/-! ## Scripts on any sink -/

namespace Script

variable {α : Type} {script : Script α} {sink : Sink}

lemma run_of_fits (h : sink.Fits script.actions) :
    script.run sink = script.run Sink.unlimited := by
  rw [run, run, Sink.perform_of_fits h]

/-- A script that does not fit is stopped. -/
theorem run_of_not_fits (h : ¬ sink.Fits script.actions) :
    ∃ fault, (script.run sink).result = .error (.output fault) ∧ sink.Stops script fault := by
  obtain ⟨done, action, rest, hactions, hdone, hfirst⟩ := Sink.exists_not_fits h
  have hseen : sink.perform (done ++ action :: rest) = _ := Sink.perform_of_not_fits hdone hfirst
  rw [← hactions] at hseen
  have hfull : (script.run Sink.unlimited).output =
      (done ++ [action]).flatMap Action.output ++ rest.flatMap Action.output := by
    simp [run_unlimited, hactions]
  have hflushes : (script.run Sink.unlimited).flushes =
      done.count .flush + [action].count .flush + rest.count .flush := by
    rw [run_unlimited, hactions, ← List.singleton_append, List.count_append, List.count_append,
      Nat.add_assoc]
  refine ⟨sink.faultOf action, by rw [run, hseen], ?_⟩
  rcases Sink.not_fits_iff.1 hfirst with ⟨n, hn, hlt⟩ | ⟨k, hk, hlt⟩
  · -- the limit is passed, so the action writes something
    have hdone' := hdone.output_le n hn
    have hfault : sink.faultOf action = sink.refusal := by
      cases action with
      | write text | record entry => rfl
      | flush =>
        rw [List.flatMap_append, List.length_append] at hlt
        exact absurd hlt (Nat.not_lt.2 hdone')
    refine Or.inl ⟨hfault, n, hn, ?_, ?_⟩
    · rw [hfull, List.length_append]
      omega
    · have hcapacity : sink.capacity = some n := hn
      rw [run, hseen, hfull, List.take_append_of_le_length hlt.le]
      simp only [Sink.accepted, hcapacity]
  · -- the flushes before have succeeded, so it is this one that fails
    have hdone' := hdone.flushes_le k hk
    rw [List.count_append] at hlt
    have hflush : action = .flush := by
      by_contra hne
      rw [List.count_singleton, if_neg (by simpa using hne)] at hlt
      omega
    subst hflush
    rw [List.count_singleton_self] at hlt hflushes
    have hcount : done.count .flush = k := by omega
    refine Or.inr ⟨rfl, k, hk, by omega, ?_⟩
    rw [run, hseen]
    exact hcount

/-- A script that writes and flushes nothing ends as it says on every sink. -/
theorem run_of_quiet (houtput : script.actions.flatMap Action.output = [])
    (hflush : script.actions.count .flush = 0) (sink : Sink) :
    (script.run sink).output = [] ∧ (script.run sink).flushes = 0 ∧
      (script.run sink).result = script.outcome := by
  have hfits : sink.Fits script.actions := by
    constructor
    · intro n _
      rw [houtput]
      exact Nat.zero_le n
    · intro k _
      rw [hflush]
      exact Nat.zero_le k
  rw [run_of_fits hfits, run_unlimited]
  exact ⟨houtput, hflush, rfl⟩

/-- On every sink a script ends as it says, unless the sink stops it. -/
theorem result_cases (script : Script α) (sink : Sink) :
    (script.run sink = script.run Sink.unlimited ∧
        (script.run sink).result = script.outcome) ∨
      ∃ fault, (script.run sink).result = .error (.output fault) ∧ sink.Stops script fault := by
  by_cases hfits : sink.Fits script.actions
  · have hrun := run_of_fits hfits
    exact Or.inl ⟨hrun, by rw [hrun, run_unlimited]⟩
  · exact Or.inr (run_of_not_fits hfits)

end Script

/-! ## What a script ends with -/

namespace Input

/-- What a session reads up to the first piece that is no text are lines of text. -/
lemma exists_takeWhile_isText (pieces : List (List UInt8)) :
    ∃ lines : List String, pieces.takeWhile isText = lines.map Text.bytes := by
  induction pieces using induction_on_texts with
  | nil => exact ⟨[], rfl⟩
  | notText piece rest htext => exact ⟨[], by simp [htext]⟩
  | text line rest ih =>
    obtain ⟨lines, hlines⟩ := ih
    exact ⟨line :: lines, by rw [List.takeWhile_cons_of_pos (isText_bytes line), hlines]; rfl⟩

end Input

namespace Session

/-- A session that is not stopped has shown some lines of its input, each behind the prompt, and the
prompt once more, which has been flushed. -/
lemma exists_lines_shown (prompt : String) (input : Input) :
    let full := (script prompt input).run Sink.unlimited
    ∃ lines : List String, lines.map Text.bytes <+: input.pieces ∧
      full.output =
        lines.flatMap (fun line => Text.bytes prompt ++ tokenLines "" (tokens line)) ++
          Text.bytes prompt ∧
      full.flushes = lines.length + 1 ∧
      (flushOffsets (script prompt input).actions).getLast? = some full.output.length := by
  intro full
  obtain ⟨lines, hlines⟩ := Input.exists_takeWhile_isText input.pieces
  obtain ⟨houtput, hflush, -⟩ := converse_spec prompt input.failure input.pieces
  obtain ⟨hthrough, -⟩ := output_eq_shownThrough prompt input
  have hflushes : full.flushes = lines.length + 1 := by
    rw [flushes_run_unlimited, hlines, List.length_map]
  refine ⟨lines, hlines ▸ List.takeWhile_prefix _, ?_, hflushes, ?_⟩
  · have hfull : full.output = (script prompt input).actions.flatMap Action.output :=
      congrArg Run.output (Script.run_unlimited _)
    rw [hfull, script, houtput, hlines, List.flatMap_map]
    simp only [rendering_bytes]
  · rw [flushOffsets_script, hflushes, List.range_succ, List.map_append, List.map_singleton,
      List.getLast?_concat, hthrough, hflushes, Nat.add_sub_cancel]

end Session

namespace Invocation

variable {i : Invocation}

/-- What is to blame for a failure of a script, among what the run was given. -/
def Blames (i : Invocation) : Failure → Prop
  | .usage fault => i.command = .error fault
  | .file path fault => i.command = .ok (.listFile path) ∧ i.files path = .error fault
  | .input _ => ∃ prompt, i.command = .ok (.session prompt)
  | .output _ => False

theorem blames {failure : Failure} (h : i.script.outcome = .error failure) : i.Blames failure := by
  rw [script] at h
  rcases hcommand : i.command with fault | prompt | path | - | - <;> rw [hcommand] at h
  · obtain rfl := Except.error.inj h
    exact hcommand
  · obtain ⟨-, -, houtcome⟩ := Session.converse_spec prompt i.input.failure i.input.pieces
    have hfailure := houtcome.symm.trans h
    -- the input is at fault, whether it breaks off or is no text
    have hinput : ∃ fault, failure = .input fault := by
      split at hfailure
      · cases hreader : i.input.failure with
        | none =>
          rw [hreader] at hfailure
          cases hfailure
        | some text =>
          rw [hreader] at hfailure
          exact ⟨_, (Except.error.inj hfailure).symm⟩
      · exact ⟨_, (Except.error.inj hfailure).symm⟩
    obtain ⟨fault, rfl⟩ := hinput
    exact ⟨prompt, hcommand⟩
  · cases hfile : i.files path with
    | error fault =>
      simp only [Command.script, hfile, FileListing.script, Script.map] at h
      obtain rfl := Except.error.inj h
      exact ⟨hcommand, hfile⟩
    | ok source =>
      simp only [Command.script, hfile, FileListing.script, Script.map] at h
      cases h
  · cases h
  · cases h

/-- Arguments that are refused, and a file that cannot be read, are the failure of the run whatever
the sink, and nothing is written. -/
lemma run_of_blames_early {failure : Failure} (h : i.Blames failure)
    (hearly : (∃ fault, failure = .usage fault) ∨ ∃ path fault, failure = .file path fault)
    (sink : Sink) :
    (i.script.run sink).output = [] ∧ (i.script.run sink).flushes = 0 ∧
      (i.script.run sink).result = .error failure := by
  rcases hearly with ⟨fault, rfl⟩ | ⟨path, fault, rfl⟩
  · have hcommand : i.command = .error fault := h
    have hscript : i.script = .fail (.usage fault) := by rw [script, hcommand]
    rw [hscript]
    exact Script.run_of_quiet rfl rfl sink
  · obtain ⟨hcommand, hfile⟩ := h
    have hscript : i.script =
        (FileListing.script path (.error fault)).map fun _ => () := by
      rw [script, hcommand]
      simp only [Command.script, hfile]
    rw [hscript]
    exact Script.run_of_quiet rfl rfl sink

/-- A run that does not fail for its output fails for what it was given. -/
lemma blames_of_result {sink : Sink} {failure : Failure}
    (h : (i.script.run sink).result = .error failure) (hkind : ∀ fault, failure ≠ .output fault) :
    i.script.run sink = i.script.run Sink.unlimited ∧ i.Blames failure := by
  rcases i.script.result_cases sink with ⟨hrun, hresult⟩ | ⟨fault, hresult, -⟩
  · exact ⟨hrun, blames (hresult.symm.trans h)⟩
  · exact absurd (Except.error.inj (h.symm.trans hresult)) (hkind fault)

lemma result_eq_usage_iff (i : Invocation) (sink : Sink) (fault : UsageFault) :
    (i.script.run sink).result = .error (.usage fault) ↔ i.command = .error fault := by
  constructor
  · intro h
    exact (blames_of_result h (by simp)).2
  · intro h
    have hblames : i.Blames (.usage fault) := h
    exact (run_of_blames_early hblames (Or.inl ⟨fault, rfl⟩) sink).2.2

lemma result_eq_file_iff (i : Invocation) (sink : Sink) (path : String) (fault : FileFault) :
    (i.script.run sink).result = .error (.file path fault) ↔
      i.command = .ok (.listFile path) ∧ i.files path = .error fault := by
  constructor
  · intro h
    exact (blames_of_result h (by simp)).2
  · intro h
    have hblames : i.Blames (.file path fault) := h
    exact (run_of_blames_early hblames (Or.inr ⟨path, fault, rfl⟩) sink).2.2

end Invocation

/-- How a run fails, on any sink.  It fails for its arguments exactly if they are refused, and for
a file exactly if it is to list that file and cannot read it; then it has written and flushed
nothing, and neither the sink nor the input has a part in it.  Only a session fails for its input,
and then it has shown some lines of it in full, each behind the prompt, and the prompt once more,
all of it flushed.  Any other failure is one of the output, and there the sink has stopped the
run. -/
theorem failures_in_order (i : Invocation) (sink : Sink) :
    let run := i.script.run sink
    let full := i.script.run Sink.unlimited
    (∀ fault, run.result = .error (.usage fault) ↔ i.command = .error fault) ∧
      (∀ path fault, run.result = .error (.file path fault) ↔
        i.command = .ok (.listFile path) ∧ i.files path = .error fault) ∧
      match run.result with
      | .ok () => run.output = full.output ∧ run.flushes = full.flushes
      | .error (.usage _) | .error (.file _ _) =>
        run.output = [] ∧ run.flushes = 0 ∧
          ∀ (input : Input) (other : Sink),
            ({ i with input }.script.run other).result = run.result
      | .error (.input _) =>
        ∃ (prompt : String) (lines : List String), i.command = .ok (.session prompt) ∧
          lines.map Text.bytes <+: i.input.pieces ∧
          run.output =
            lines.flatMap (fun line => Text.bytes prompt ++ tokenLines "" (tokens line)) ++
              Text.bytes prompt ∧
          run.flushes = lines.length + 1 ∧
          (flushOffsets i.script.actions).getLast? = some run.output.length
      | .error (.output fault) => sink.Stops i.script fault := by
  intro run full
  refine ⟨i.result_eq_usage_iff sink, i.result_eq_file_iff sink, ?_⟩
  rcases hresult : run.result with (⟨path, fault⟩ | fault | fault | fault) | ⟨⟩
  · have hblames := (Invocation.blames_of_result hresult (by simp)).2
    obtain ⟨houtput, hflushes, -⟩ :=
      Invocation.run_of_blames_early hblames (Or.inr ⟨path, fault, rfl⟩) sink
    exact ⟨houtput, hflushes, fun input other =>
      (Invocation.result_eq_file_iff _ other path fault).2 hblames⟩
  · obtain ⟨hrun, prompt, hcommand⟩ := Invocation.blames_of_result hresult (by simp)
    have hscript : i.script = Session.script prompt i.input := by
      rw [Invocation.script, hcommand]
      rfl
    have hrun' : run = (Session.script prompt i.input).run Sink.unlimited := by
      rw [← hscript]
      exact hrun
    obtain ⟨lines, hpieces, houtput, hflushes, hlast⟩ := Session.exists_lines_shown prompt i.input
    rw [← hrun'] at houtput hflushes hlast
    exact ⟨prompt, lines, hcommand, hpieces, houtput, hflushes, hscript ▸ hlast⟩
  · rcases i.script.result_cases sink with ⟨-, houtcome⟩ | ⟨other, hother, hstops⟩
    · exact (Invocation.blames (houtcome.symm.trans hresult)).elim
    · obtain rfl : other = fault := by
        simpa using hother.symm.trans hresult
      exact hstops
  · have hblames := (Invocation.blames_of_result hresult (by simp)).2
    obtain ⟨houtput, hflushes, -⟩ :=
      Invocation.run_of_blames_early hblames (Or.inl ⟨fault, rfl⟩) sink
    exact ⟨houtput, hflushes, fun input other =>
      (Invocation.result_eq_usage_iff _ other fault).2 hblames⟩
  · rcases i.script.result_cases sink with ⟨hrun, -⟩ | ⟨fault, hfault, -⟩
    · exact ⟨congrArg Run.output hrun, congrArg Run.flushes hrun⟩
    · exact absurd (hfault.symm.trans hresult) (by simp)

end TokenStream

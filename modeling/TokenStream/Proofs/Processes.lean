import TokenStream.Proofs.EventLogs
import TokenStream.Proofs.Failures
import TokenStream.Proofs.Filters
import TokenStream.Report

/-!
# Processes

A process shows its log while it runs: between two writes it may have lines to show, and whether it
does depends on the filter.  What it leaves behind is nevertheless told by its run alone, which
knows no filter (`Process.run_eq_ofRun`): the output is that of the run, and the remarks are what
the filter lets through of the log of the run, followed by what is said of a failure.

So two processes that differ only in what they show of their log differ in nothing else
(`logging_does_not_interfere`).
-/

namespace TokenStream

/-- What a process has left behind so far. -/
structure Process where
  output : List UInt8 := []
  remarks : String := ""
  /-- Whether what is logged next stands in a scope that is shown. -/
  inScope : Bool := false

namespace Process

/-- An entry is shown when it is logged, or not at all. -/
def record (filter : Option Filter) (p : Process) (entry : Entry) : Process :=
  match filter with
  | none => p
  | some filter =>
    { p with
      remarks := p.remarks ++ Log.line filter p.inScope entry
      inScope := Log.inScopeAfter filter p.inScope entry }

/-- Carries out one action of a script. -/
def step (filter : Option Filter) (p : Process) : Action → Process
  | .write text => { p with output := p.output ++ Text.bytes text }
  | .flush => p
  | .record entry => p.record filter entry

/-- Ends a process. -/
def finish {α : Type} (p : Process) : Except Failure α → Report
  | .ok _ => { code := 0, output := p.output, remarks := p.remarks }
  | .error failure =>
    { code := failure.exitCode
      output := p.output
      remarks := p.remarks ++ Report.complaint failure }

/-- Carries out a script, one action after the other. -/
def run {α : Type} (filter : Option Filter) (script : Script α) : Report :=
  let actions := script.actions ++ script.closing.map Action.record
  (actions.foldl (step filter) {}).finish script.outcome

/-! ## Steps and runs -/

/-- What is shown of some entries. -/
def shownFrom (filter : Option Filter) (inScope : Bool) (entries : List Entry) : String :=
  (filter.map fun filter => Log.renderFrom filter inScope entries).getD ""

variable (filter : Option Filter) (p : Process)

/-- An action adds the same to the output whatever is shown of the log. -/
lemma output_step (action : Action) :
    (p.step filter action).output = p.output ++ action.output := by
  cases action with
  | write text => rfl
  | flush => simp [step, Action.output]
  | record entry => cases filter <;> simp [step, record, Action.output]

lemma output_foldl (actions : List Action) :
    (actions.foldl (step filter) p).output = p.output ++ actions.flatMap Action.output := by
  induction actions generalizing p with
  | nil => simp
  | cons action actions ih =>
    rw [List.foldl_cons, ih, output_step, List.flatMap_cons, List.append_assoc]

lemma remarks_foldl (actions : List Action) :
    (actions.foldl (step filter) p).remarks =
      p.remarks ++ shownFrom filter p.inScope (actions.filterMap Action.entry?) := by
  induction actions generalizing p with
  | nil => cases filter <;> simp [shownFrom, Log.renderFrom]
  | cons action actions ih =>
    rw [List.foldl_cons, ih]
    cases action with
    | write text => rfl
    | flush => rfl
    | record entry =>
      cases filter with
      | none => rfl
      | some filter =>
        simp [step, record, shownFrom, Action.entry?, Log.renderFrom, String.append_assoc]

/-- What a process leaves behind is told by the run of its script. -/
theorem run_eq_ofRun {α : Type} (script : Script α) :
    run filter script = Report.ofRun filter (script.run Sink.unlimited) := by
  let actions := script.actions ++ script.closing.map Action.record
  have houtput : (actions.foldl (step filter) {}).output =
      script.actions.flatMap Action.output := by
    simp [output_foldl, actions, List.flatMap_map, Action.output]
  have hentries : actions.filterMap Action.entry? =
      script.actions.filterMap Action.entry? ++ script.closing := by
    have hcomp : Action.entry? ∘ Action.record = some := rfl
    rw [List.filterMap_append, List.filterMap_map, hcomp, List.filterMap_some]
  have hremarks : (actions.foldl (step filter) {}).remarks =
      shownFrom filter false (script.actions.filterMap Action.entry? ++ script.closing) := by
    rw [remarks_foldl, hentries]
    exact String.empty_append
  rw [run, Script.run_unlimited]
  cases script.outcome with
  | ok a =>
    rw [finish, houtput, hremarks]
    rfl
  | error failure =>
    rw [finish, houtput, hremarks]
    rfl

end Process

/-! ## What is shown of a log -/

namespace Log

/-- The log of events, in the scope of a file if there is one. -/
def within (scope : Option Scope) (events : List Event) : List Entry :=
  match scope with
  | none => events.map .event
  | some scope => [.opened scope, .entered] ++ events.map .event ++ [.left]

/-- The lines of what passes a filter: the events, behind the line of their scope if that passes,
too. -/
def lines (filter : Filter) (scope : Option Scope) (events : List Event) : List String :=
  let passing := events.filter fun e => filter.Passes e.target e.level
  match scope.filter fun _ => filter.Passes Scope.target Scope.level with
  | none => passing.map fun e => " " ++ e.line
  | some scope => (" " ++ scope.line) :: passing.map fun e => "  " ++ e.line

/-- What is shown of a log, which is nothing without a filter. -/
def shown (filter : Option Filter) (scope : Option Scope) (events : List Event) : String :=
  (filter.map fun filter => String.join (lines filter scope events)).getD ""

variable (filter : Filter)

lemma renderFrom_events (inScope : Bool) (events : List Event) (rest : List Entry) :
    renderFrom filter inScope (events.map .event ++ rest) =
      String.join ((events.filter fun e => filter.shows e.target e.level).map
        fun e => indent inScope ++ e.line) ++ renderFrom filter inScope rest := by
  induction events with
  | nil => simp
  | cons e events ih =>
    rw [List.map_cons, List.cons_append, renderFrom, inScopeAfter, ih, line, List.filter_cons]
    split <;> simp [String.append_assoc]

theorem render_within (scope : Option Scope) (events : List Event) :
    render filter (within scope events) = String.join (lines filter scope events) := by
  cases scope with
  | none =>
    have h := renderFrom_events filter false events []
    rw [List.append_nil] at h
    simp [render, within, h, lines, renderFrom, indent]
  | some scope =>
    cases hscope : filter.shows Scope.target Scope.level <;>
      simp [render, within, lines, renderFrom, renderFrom_events, line, inScopeAfter, indent,
        hscope, Option.filter]

end Log

/-! ## Runs of an invocation -/

/-- What is said at the end of a run: a usage fault and how to ask, any other failure, or
nothing. -/
def Report.farewell : Except UsageFault Command → Except Failure Unit → String
  | .error fault, _ => "error: " ++ fault.message ++ "\n" ++ ("\n" ++ Command.usage ++ "\n")
  | .ok _, .error failure => "error: " ++ failure.message ++ "\n"
  | .ok _, .ok _ => ""

namespace Report

variable {α : Type} (filter : Option Filter) (run : Run α)

lemma output_ofRun : (ofRun filter run).output = run.output := by
  rw [ofRun]
  cases run.result <;> rfl

lemma code_ofRun : (ofRun filter run).code = if run.result.isOk then 0 else 1 := by
  rw [ofRun]
  cases run.result <;> rfl

end Report

namespace Invocation

variable (i : Invocation)

/-- The scope of a run, if it has one. -/
def scope? : Option Scope :=
  match i.command with
  | .ok (.listFile path) => some ⟨path⟩
  | _ => none

theorem exists_events : ∃ events,
    (i.script.run Sink.unlimited).log = Log.within i.scope? events := by
  rw [script, scope?]
  rcases i.command with fault | prompt | path | - | -
  · exact ⟨[], rfl⟩
  · exact ⟨Session.events i.input, Session.log_script prompt i.input⟩
  · dsimp only [Command.script]
    cases i.files path with
    | error fault => exact ⟨[], rfl⟩
    | ok source => exact ⟨_, FileListing.log_script path source⟩
  · exact ⟨[], rfl⟩
  · exact ⟨[], rfl⟩

/-- A command that was understood calls for no usage text. -/
lemma not_isUsage {command : Command} (hcommand : i.command = .ok command) {failure : Failure}
    (h : i.script.outcome = .error failure) : failure.isUsage = false := by
  have hblames := blames h
  cases failure with
  | usage fault =>
    have hrefused : i.command = .error fault := hblames
    rw [hcommand] at hrefused
    cases hrefused
  | file | input | output => rfl

lemma farewell_outcome : Report.farewell i.command i.script.outcome =
    match i.script.outcome with
    | .ok _ => ""
    | .error failure => Report.complaint failure := by
  cases hcommand : i.command with
  | error fault =>
    have houtcome : i.script.outcome = .error (.usage fault) := by
      rw [script, hcommand]
      rfl
    rw [houtcome]
    rfl
  | ok command =>
    cases houtcome : i.script.outcome with
    | ok _ => rfl
    | error failure =>
      have husage := i.not_isUsage hcommand houtcome
      dsimp only
      rw [Report.complaint, husage, if_neg Bool.false_ne_true]
      exact String.append_empty.symm

/-- The remarks on a run are what is shown of its log, and its farewell. -/
theorem remarks_report (filter : Option Filter) :
    let run := i.script.run Sink.unlimited
    (i.report filter).remarks =
      (filter.map fun filter => Log.render filter run.log).getD "" ++
        Report.farewell i.command run.result := by
  intro run
  have hresult : run.result = i.script.outcome := congrArg Run.result (Script.run_unlimited _)
  rw [hresult, farewell_outcome, ← hresult, report, Report.ofRun]
  cases run.result with
  | ok _ => exact String.append_empty.symm
  | error failure => rfl

end Invocation

/-- A process does what its invocation does, and its log is shown beside.  Whatever filter is set,
its output is that of the run, its code tells whether the run succeeded, and its remarks are the
lines of what passes the filter of the log of the run, followed by the farewell.  A second process
with another filter differs from it in those lines only. -/
theorem logging_does_not_interfere (arguments : List String) (promptValue : Option (List UInt8))
    (files : Command.FileReader) (stdin : List UInt8)
    (setting other : Option (List WrittenDirective)) :
    let i : Invocation :=
      { arguments
        environmentPrompt := Command.environmentPrompt promptValue
        files
        input := { bytes := stdin } }
    let run := i.script.run Sink.unlimited
    let process (setting : Option (List WrittenDirective)) : Report :=
      Process.run ((setting.map Filter.text).map Filter.ofText) i.script
    let shown (setting : Option (List WrittenDirective)) (events : List Event) : String :=
      Log.shown (setting.map Filter.ofWritten) i.scope? events
    (∀ prompt, i.environmentPrompt = some prompt ↔ promptValue = some (Text.bytes prompt)) ∧
      process setting = i.report (setting.map Filter.ofWritten) ∧
      (process setting).output = run.output ∧
      (process setting).code = (if run.result.isOk then 0 else 1) ∧
      ∃ events, run.log = Log.within i.scope? events ∧
        (process setting).remarks =
          shown setting events ++ Report.farewell i.command run.result ∧
        (process other).output = (process setting).output ∧
        (process other).code = (process setting).code ∧
        (process other).remarks =
          shown other events ++ Report.farewell i.command run.result := by
  intro i run process shown
  have hprompt : ∀ prompt, i.environmentPrompt = some prompt ↔
      promptValue = some (Text.bytes prompt) := fun prompt => by
    simp only [i, Command.environmentPrompt, Option.bind_eq_some_iff, Text.ofBytes?_eq_some_iff]
    exact ⟨fun ⟨bs, hvalue, hbs⟩ => hbs ▸ hvalue, fun hvalue => ⟨_, hvalue, rfl⟩⟩
  have hreport : ∀ setting, process setting = i.report (setting.map Filter.ofWritten) := by
    intro setting
    have hfilter : (setting.map Filter.text).map Filter.ofText = setting.map Filter.ofWritten := by
      rw [Option.map_map]
      exact congrArg (Option.map · setting) (funext Filter.ofText_text)
    rw [Invocation.report, ← hfilter, ← Process.run_eq_ofRun]
  obtain ⟨events, hlog⟩ := i.exists_events
  have hremarks : ∀ setting, (process setting).remarks =
      shown setting events ++ Report.farewell i.command run.result := by
    intro setting
    rw [hreport, Invocation.remarks_report, hlog]
    simp only [Log.render_within]
    rfl
  have houtput : ∀ setting, (process setting).output = run.output := fun setting => by
    rw [hreport, Invocation.report, Report.output_ofRun]
  have hcode : ∀ setting, (process setting).code =
      if run.result.isOk then 0 else 1 := fun setting => by
    rw [hreport, Invocation.report, Report.code_ofRun]
  exact ⟨hprompt, hreport setting, houtput setting, hcode setting, events, hlog, hremarks setting,
    (houtput other).trans (houtput setting).symm, (hcode other).trans (hcode setting).symm,
    hremarks other⟩

end TokenStream

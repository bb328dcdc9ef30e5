import Mathlib.Tactic.Common
import TokenStream.Listing
import TokenStream.Run.Sink

/-!
# What a sink sees of a script

A sink that accepts everything sees all that a script does: the bytes of every write, every flush
and every entry, in order, and the run ends as the script says (`run_unlimited`).  For listings this
comes to one line for each token, whatever their indentation.
-/

namespace TokenStream

namespace Action

/-- The bytes that an action writes. -/
def output : Action → List UInt8
  | write text => Text.bytes text
  | flush | record _ => []

/-- The entry that an action logs. -/
def entry? : Action → Option Entry
  | record entry => some entry
  | write _ | flush => none

end Action

theorem Sink.perform_unlimited (actions : List Action) : Sink.unlimited.perform actions =
    { output := actions.flatMap Action.output
      flushes := actions.count .flush
      log := actions.filterMap Action.entry? } := by
  induction actions with
  | nil => rfl
  | cons action actions ih =>
    cases action with
    | write text =>
      have haccept : Sink.unlimited.accept? (Text.bytes text).length = some Sink.unlimited := rfl
      simp [perform, haccept, ih, Action.output, Action.entry?, List.filterMap_cons]
    | flush =>
      have hflush : Sink.unlimited.flush? = some Sink.unlimited := rfl
      simp [perform, hflush, ih, Action.output, Action.entry?, List.filterMap_cons]
    | record entry => simp [perform, ih, Action.output, Action.entry?]

theorem Script.run_unlimited {α : Type} (script : Script α) : script.run Sink.unlimited =
    { output := script.actions.flatMap Action.output
      flushes := script.actions.count .flush
      log := script.actions.filterMap Action.entry? ++ script.closing
      result := script.outcome } := by
  rw [Script.run, Sink.perform_unlimited]

/-! ## Listings -/

/-- The lines of some tokens, each behind `indent`. -/
def tokenLines (indent : String) (ts : List Token) : List UInt8 :=
  ts.flatMap fun t => Text.bytes (indent ++ t.display ++ "\n")

lemma tokenLines_flatMap {α : Type} (indent : String) (f : α → List Token) (xs : List α) :
    tokenLines indent (xs.flatMap f) = xs.flatMap fun x => tokenLines indent (f x) := by
  rw [tokenLines, List.flatMap_assoc]
  rfl

namespace Listing

lemma output_line (indent source : String) (lexeme : Lexeme) :
    (line indent source lexeme).flatMap Action.output
      = Text.bytes (indent ++ lexeme.token.display ++ "\n") := by
  have hlog : ((lexeme.events source).map Action.log).flatMap Action.output = [] := by
    simp [List.flatMap_map, Action.log, Action.output]
  rw [line, List.flatMap_append, hlog, List.flatMap_singleton]
  rfl

theorem output_actions (indent source : String) :
    (actions indent source).flatMap Action.output = tokenLines indent (tokens source) := by
  rw [actions, List.flatMap_assoc, tokenLines, tokens, List.flatMap_map]
  simp only [output_line]

lemma count_eq (source : String) : count source = (tokens source).length := by
  rw [count, tokens, List.length_map]

theorem output_script (source : String) :
    ((script source).run Sink.unlimited).output = tokenLines "" (tokens source) := by
  simp only [script, Script.run_unlimited, output_actions]

/-- Nothing in a listing waits for the output. -/
theorem count_flush_actions (indent source : String) :
    (actions indent source).count .flush = 0 := by
  rw [List.count_eq_zero, actions, List.mem_flatMap]
  rintro ⟨lexeme, -, hmem⟩
  simp [line, Action.log] at hmem

end Listing

/-- The lines of the tokens of a file stand between its header and their number. -/
theorem FileListing.output_script (path source : String) :
    ((script path (.ok source)).run Sink.unlimited).output =
      Text.bytes (header path) ++ tokenLines "  " (tokens source)
        ++ Text.bytes (summary (tokens source).length) := by
  simp [script, Script.run_unlimited, Listing.output_actions, Listing.count_eq, Action.output,
    Action.log]

end TokenStream

import TokenStream.Invocation
import TokenStream.Log.Filter
import TokenStream.Run.Sink

/-!
# What a process leaves behind

A run as a whole process: its output, its exit code, and what it says beside its output, which is
the part of its log that was asked for, the failure if there is one, and the usage text if the
failure calls for it.
-/

namespace TokenStream

/-- What a process leaves behind. -/
structure Report where
  code : Nat
  output : List UInt8
  /-- What is said beside the output. -/
  remarks : String
  deriving DecidableEq, Repr

namespace Report

/-- What is said of a failure. -/
def complaint (failure : Failure) : String :=
  "error: " ++ failure.message ++ "\n"
    ++ if failure.isUsage then "\n" ++ Command.usage ++ "\n" else ""

/-- The report on a run.  Without a filter nothing of the log is shown. -/
def ofRun {α : Type} (filter : Option Filter) (run : Run α) : Report :=
  let shown := (filter.map (Log.render · run.log)).getD ""
  match run.result with
  | .ok _ => { code := 0, output := run.output, remarks := shown }
  | .error failure =>
    { code := failure.exitCode, output := run.output, remarks := shown ++ complaint failure }

end Report

/-- The report on an invocation whose output is accepted in full. -/
def Invocation.report (i : Invocation) (filter : Option Filter) : Report :=
  Report.ofRun filter (i.script.run Sink.unlimited)

end TokenStream

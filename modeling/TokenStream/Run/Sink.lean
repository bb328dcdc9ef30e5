import TokenStream.Run.Script

/-!
# Sinks

A sink takes in what a run writes.  It may be limited to a number of bytes in total, and one of
its flushes may fail.  The first action that the sink refuses ends the run; what was accepted
until then stays, also where the limit falls into the middle of a write.
-/

namespace TokenStream

/-- What becomes of the bytes and flushes of a run. -/
structure Sink where
  /-- How many more bytes are accepted; any number if none. -/
  capacity : Option Nat := none
  /-- What is wrong with a byte beyond the capacity. -/
  refusal : OutputFault := .closed
  /-- The number of flushes that succeed before one fails; none ever fails if none. -/
  failingFlush : Option Nat := none
  deriving DecidableEq, Repr

/-- What a sink has seen of some actions. -/
structure Transcript where
  output : List UInt8 := []
  /-- The number of flushes that succeeded. -/
  flushes : Nat := 0
  log : List Entry := []
  /-- What ended the actions early, if anything did. -/
  fault : Option OutputFault := none
  deriving DecidableEq, Repr

namespace Sink

/-- The sink that accepts everything. -/
def unlimited : Sink := {}

/-- The sink after `n` more bytes, if it accepts that many. -/
def accept? (sink : Sink) (n : Nat) : Option Sink :=
  match sink.capacity with
  | none => some sink
  | some capacity =>
    if n ≤ capacity then some { sink with capacity := some (capacity - n) } else none

/-- The sink after one more flush, if that flush succeeds. -/
def flush? (sink : Sink) : Option Sink :=
  match sink.failingFlush with
  | none => some sink
  | some 0 => none
  | some (n + 1) => some { sink with failingFlush := some n }

/-- The part of some bytes that the sink still accepts. -/
def accepted (sink : Sink) (bytes : List UInt8) : List UInt8 :=
  match sink.capacity with
  | none => bytes
  | some capacity => bytes.take capacity

/-- Carries out actions one after the other, up to and including the first that fails. -/
def perform (sink : Sink) : List Action → Transcript
  | [] => {}
  | .record entry :: rest =>
    let seen := sink.perform rest
    { seen with log := entry :: seen.log }
  | .flush :: rest =>
    match sink.flush? with
    | none => { fault := some .flushFailed }
    | some after =>
      let seen := after.perform rest
      { seen with flushes := seen.flushes + 1 }
  | .write text :: rest =>
    let bytes := Text.bytes text
    match sink.accept? bytes.length with
    | none => { output := sink.accepted bytes, fault := some sink.refusal }
    | some after =>
      let seen := after.perform rest
      { seen with output := bytes ++ seen.output }

end Sink

/-- What is known of a run when it is over. -/
structure Run (α : Type) where
  output : List UInt8
  flushes : Nat
  log : List Entry
  result : Except Failure α

/-- Runs a script on a sink. -/
def Script.run {α : Type} (script : Script α) (sink : Sink) : Run α :=
  let seen := sink.perform script.actions
  { output := seen.output
    flushes := seen.flushes
    log := seen.log ++ script.closing
    result :=
      match seen.fault with
      | some fault => .error (.output fault)
      | none => script.outcome }

end TokenStream

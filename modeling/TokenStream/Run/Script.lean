import TokenStream.Log.Event
import TokenStream.Run.Failure

/-!
# Scripts

What a run does is a list of actions that is known before any of them is carried out: nothing
that is written or logged is ever read back.  A script adds to the actions the outcome of the run
in case all of them succeed, and the entries that close its log in any case.
-/

namespace TokenStream

/-- One thing that a run does. -/
inductive Action where
  | write (text : String)
  | flush
  | record (entry : Entry)
  deriving DecidableEq, Repr

namespace Action

/-- The action of logging an event. -/
def log (e : Event) : Action := record (.event e)

end Action

/-- A run before it has met its surroundings. -/
structure Script (α : Type) where
  /-- What is done, in order, until one of the actions fails. -/
  actions : List Action := []
  /-- How the run ends if no action fails. -/
  outcome : Except Failure α
  /-- What is logged at the end, however the run ends. -/
  closing : List Entry := []

namespace Script

/-- The same actions with another result. -/
def map {α β : Type} (f : α → β) (script : Script α) : Script β :=
  { actions := script.actions, outcome := script.outcome.map f, closing := script.closing }

/-- A script that does nothing but fail. -/
def fail {α : Type} (failure : Failure) : Script α := { outcome := .error failure }

/-- The script that does `actions` first. -/
def after {α : Type} (actions : List Action) (script : Script α) : Script α :=
  { script with actions := actions ++ script.actions }

end Script

end TokenStream

import TokenStream.Log.Event
import TokenStream.Text.Quoted

/-!
# Showing a log

A filter is a list of directives, each a level for the targets that begin with a given text.  For
each entry the directive with the longest such text decides; an entry that no directive speaks of
is not shown.  What is shown takes one line, and a line inside a scope that is shown stands one
blank further to the right.
-/

namespace TokenStream

/-- The parts of a text between the separators in it. -/
def Text.parts (separator : Char) (text : String) : List String :=
  (text.toList.splitOn separator).map String.ofList

/-- How much a directive lets through. -/
inductive Threshold where
  | off
  | upTo (level : Level)
  deriving DecidableEq, Repr

namespace Threshold

/-- Whether an entry of a level is let through. -/
def admits : Threshold → Level → Bool
  | off, _ => false
  | upTo most, level => decide (level.detail ≤ most.detail)

/-- The threshold that a word names. -/
def ofName? : String → Option Threshold
  | "off" => some off
  | "error" => some (upTo .error)
  | "warn" => some (upTo .warn)
  | "info" => some (upTo .info)
  | "debug" => some (upTo .debug)
  | "trace" => some (upTo .trace)
  | _ => none

end Threshold

/-- A threshold for the targets that begin with `target`. -/
structure Directive where
  target : String
  threshold : Threshold
  deriving DecidableEq, Repr

namespace Directive

/-- Whether a directive speaks of a target. -/
def covers (d : Directive) (target : String) : Bool :=
  d.target.toList.isPrefixOf target.toList

/-- The directive written `level` or `target=level`; a level alone is for every target. -/
def ofText? (text : String) : Option Directive :=
  match Text.parts '=' text with
  | [level] => (Threshold.ofName? level).map (⟨"", ·⟩)
  | [target, level] => (Threshold.ofName? level).map (⟨target, ·⟩)
  | _ => none

end Directive

/-- What of a log is shown. -/
structure Filter where
  directives : List Directive
  deriving DecidableEq, Repr

namespace Filter

/-- The directives between the commas of a text; what is no directive is passed over. -/
def ofText (text : String) : Filter := ⟨(Text.parts ',' text).filterMap Directive.ofText?⟩

/-- The directive that decides about a target: the one that covers it with the longest text, and
of two with the same text the later one. -/
def deciding? (filter : Filter) (target : String) : Option Directive :=
  (filter.directives.filter (·.covers target)).foldl
    (fun best d =>
      match best with
      | none => some d
      | some b => if b.target.length ≤ d.target.length then some d else some b)
    none

/-- Whether an entry with this target and level is shown. -/
def shows (filter : Filter) (target : String) (level : Level) : Bool :=
  match filter.deciding? target with
  | some d => d.threshold.admits level
  | none => false

end Filter

namespace Event

/-- The numbers of an event as they are shown behind its message. -/
def shownFields (e : Event) : String :=
  String.join (e.fields.map fun (name, value) => ", " ++ name ++ "=" ++ toString value)

/-- The line of an event, without the blanks in front. -/
def line (e : Event) : String :=
  e.level.name ++ " " ++ e.target ++ " " ++ e.message ++ e.shownFields ++ "\n"

end Event

namespace Scope

/-- The line of a scope, without the blanks in front. -/
def line (scope : Scope) : String :=
  target ++ "::" ++ name ++ " path=" ++ Text.quoted scope.path ++ "\n"

end Scope

namespace Log

/-- The blanks in front of a line. -/
def indent (inScope : Bool) : String := if inScope then "  " else " "

/-- What is shown of one entry, given whether it stands in a scope that is shown. -/
def line (filter : Filter) (inScope : Bool) : Entry → String
  | .event e => if filter.shows e.target e.level then indent inScope ++ e.line else ""
  | .opened scope =>
    if filter.shows Scope.target Scope.level then indent inScope ++ scope.line else ""
  | .entered | .left => ""

/-- Whether what follows an entry stands in a scope that is shown. -/
def inScopeAfter (filter : Filter) (inScope : Bool) : Entry → Bool
  | .event _ | .opened _ => inScope
  | .entered => filter.shows Scope.target Scope.level
  | .left => false

/-- Shows the entries of a log that a filter lets through, given whether the first of them stands
in a scope that is shown. -/
def renderFrom (filter : Filter) (inScope : Bool) : List Entry → String
  | [] => ""
  | entry :: rest =>
    line filter inScope entry ++ renderFrom filter (inScopeAfter filter inScope entry) rest

/-- Shows the entries of a log that a filter lets through. -/
def render (filter : Filter) (log : List Entry) : String := renderFrom filter false log

end Log

end TokenStream

import ClusterSync.Telemetry.Directive

/-!
# Log filters

Which log events are written. A filter is a list of directives separated by commas, and an event is
judged by the most specific directive that is about it, of equal ones by the last. A filter without
directives lets errors through.
-/

namespace ClusterSync

open Text

structure LogFilter where
  directives : List Directive
  deriving DecidableEq, Repr

namespace LogFilter

/-- The filter that lets errors through. -/
def errors : LogFilter := ⟨[{ level := some .error }]⟩

/-- Reads a filter; none if one of its directives cannot be read. -/
def ofString? (text : String) : Option LogFilter := do
  let parts := (splitAt ',' text.toList).filter (· ≠ [])
  let directives ← parts.mapM Directive.ofChars?
  return if directives = [] then errors else ⟨directives⟩

/-- The parts of the program that a plain level is about. -/
def ownParts : List String := ["stargazer", "model"]

/-- The filter for a plain level; a level that is not known counts as `info`. -/
def ofLevel (text : String) : LogFilter :=
  let level :=
    match lower text with
    | "error" => LogLevel.error
    | "warn" => .warn
    | "debug" => .debug
    | "trace" => .trace
    | _ => .info
  ⟨ownParts.map fun part => { part := some part, level := some level }⟩

/-- The directive by which an event is judged. -/
def find? (f : LogFilter) (origin : String) (e : LogEvent) : Option Directive :=
  (f.directives.filter (·.isAbout origin e)).foldl (fun best d =>
    match best with
    | some b => if b.precedes d then some b else some d
    | none => some d) none

/-- Whether an event of an origin is written. -/
def admits (f : LogFilter) (origin : String) (e : LogEvent) : Bool :=
  match (f.find? origin e).bind Directive.level with
  | some limit => decide (e.level.rank ≤ limit.rank)
  | none => false

end LogFilter

end ClusterSync

import ClusterSync.Object.Kind
import ClusterSync.Telemetry.Event
import ClusterSync.Text.Blank

/-!
# Enabled kinds

Which kinds a list of names enables. A name that is not known is reported and passed over, and a
kind named twice counts once.
-/

namespace ClusterSync.Kind

open Text

/-- Reads the name of a kind, in any case. -/
def ofString (text : String) : Except String Kind :=
  match lower text with
  | "node" => .ok .node
  | "unp" => .ok .policy
  | other => .error s!"unknown controller '{other}', expected one of: node, unp"

/-- The kinds of a list of names, each at its first place. -/
def ofNames (names : List String) : List Kind :=
  (names.filterMap fun name => (ofString name).toOption).eraseDups

/-- The reports of the names that are not known. -/
def unknownNames (names : List String) : List LogEvent :=
  names.filterMap fun name =>
    match ofString name with
    | .ok _ => none
    | .error message => some ⟨.warn, message, [("controller", name)]⟩

/-- The kinds of a comma-separated list. -/
def ofList (text : String) : List Kind := ofNames (commaList text)

end ClusterSync.Kind

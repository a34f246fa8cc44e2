import ClusterSync.Datastore.Pair

/-!
# The ready flag

The flag in the datastore that says whether this program keeps it up to date. Writing it is an
update like any other; if that fails the failure is reported and nothing more.
-/

namespace ClusterSync.ReadyFlag

/-- The flag with a value. -/
def pair (ready : Bool) : Pair := { key := .ready, value := .flag ready }

/-- The report of a failure; somebody else's write in between is not one of the datastore. -/
def report : StoreError → LogEvent
  | .revisionMismatch .. | .alreadyExists _ =>
    .warn "Ready flag changed concurrently, leaving it as is"
  | _ => .warn "Failed to update datastore ready flag"

/-- What follows from the result of a write. -/
def acknowledge : Except StoreError Revision → Dialogue Unit
  | .ok _ => .done ()
  | .error e => .log (report e) (.done ())

/-- Writes the flag. -/
def publish (ready : Bool) : Dialogue Unit := (pair ready).update.bind acknowledge

end ClusterSync.ReadyFlag

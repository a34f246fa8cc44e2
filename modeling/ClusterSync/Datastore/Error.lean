import ClusterSync.Datastore.Key

/-!
# Datastore errors

Why a datastore operation failed, in words, as a label for metrics, and whether trying again can
help. It cannot if the key or the value is at fault.
-/

namespace ClusterSync

/-- A revision of the datastore; 0 stands for a path that does not exist. The datastore keeps it in
63 bits, which a counter of writes does not leave, so it has no bound here. -/
abbrev Revision := Int

inductive StoreError
  | missingPart (part : String)
  | encoding (reason : String)
  | alreadyExists (path : String)
  | notFound (path : String)
  | revisionMismatch (path : String) (expected : Revision)
  | transport (reason : String)
  deriving DecidableEq, Repr

namespace StoreError

def message : StoreError → String
  | .missingPart part => s!"insufficient identifiers: missing {part}"
  | .encoding reason => s!"serialization error: {reason}"
  | .alreadyExists path => s!"key already exists: {path}"
  | .notFound path => s!"key not found: {path}"
  | .revisionMismatch path expected => s!"revision mismatch for {path}: expected {expected}"
  | .transport reason => s!"datastore transport error: {reason}"

/-- The label of an error in metrics. -/
def label : StoreError → String
  | .missingPart _ => "insufficient_identifier"
  | .encoding _ => "serialization"
  | .alreadyExists _ => "already_exists"
  | .notFound _ => "not_found"
  | .revisionMismatch .. => "revision_mismatch"
  | .transport _ => "transport"

/-- Whether the same operation may succeed later. -/
def retryable : StoreError → Bool
  | .missingPart _ | .encoding _ => false
  | .alreadyExists _ | .notFound _ | .revisionMismatch .. | .transport _ => true

/-- A fault of a key or value as an error of the operation that needed it. -/
def ofKeyError : KeyError → StoreError
  | .missing part => .missingPart part
  | .encoding key reason => .encoding (KeyError.encoding key reason).message

end StoreError

end ClusterSync

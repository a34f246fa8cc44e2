import ClusterSync.Datastore.Error
import ClusterSync.Object.Kind

/-!
# Failed deliveries

Why a piece of work failed: the object could not be turned into a pair, or the datastore refused.
-/

namespace ClusterSync

inductive DeliveryError
  | conversion (kind : Kind) (reason : String)
  | store (error : StoreError)
  deriving DecidableEq, Repr

namespace DeliveryError

def message : DeliveryError → String
  | .conversion kind reason => s!"failed to translate {kind.label} object: {reason}"
  | .store e => e.message

/-- The label of an error in metrics. -/
def label : DeliveryError → String
  | .conversion .. => "translation"
  | .store e => e.label

/-- Whether delivering the same item again may succeed. -/
def retryable : DeliveryError → Bool
  | .conversion .. => false
  | .store e => e.retryable

/-- The labels of all errors. -/
def labels : List String :=
  ["translation", "insufficient_identifier", "serialization", "already_exists", "not_found",
    "revision_mismatch", "transport"]

end DeliveryError

end ClusterSync

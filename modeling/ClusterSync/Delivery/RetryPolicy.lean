import ClusterSync.Backlog.Basic
import ClusterSync.Delivery.Error
import ClusterSync.Telemetry.Event

/-!
# Retry policy

What becomes of a piece of work that failed. If trying again cannot help it is dropped at once;
otherwise it goes back to the backlog with a delay until it has been delivered often enough.
-/

namespace ClusterSync

inductive Verdict
  /-- The item goes back after a delay. -/
  | requeue
  /-- The error cannot be mended by trying again. -/
  | dropHopeless
  /-- The item has used up its deliveries. -/
  | dropExhausted
  deriving DecidableEq, Repr

namespace RetryPolicy

/-- The verdict on an item that has failed for the `attempts`-th time. -/
def decide (e : DeliveryError) (attempts maxRetries : Nat) : Verdict :=
  if ¬ e.retryable then .dropHopeless
  else if attempts < maxRetries then .requeue
  else .dropExhausted

/-- The failures of an item, the present one included. -/
def attempts (b : Backlog) (item : WorkItem) : Nat :=
  min (b.putOffs item.name + 1) Backoff.maxCount

/-- The verdict on an item that has just failed. -/
def verdict (b : Backlog) (item : WorkItem) (e : DeliveryError) (maxRetries : Nat) : Verdict :=
  decide e (attempts b item) maxRetries

/-- Carries a verdict out on the backlog. -/
def carryOut (v : Verdict) (now : Nat) (item : WorkItem) (b : Backlog) : Backlog :=
  match v with
  | .requeue => b.addLater now item
  | .dropHopeless | .dropExhausted => b.forget item.name

/-- Reports a verdict on work of a kind. -/
def report (v : Verdict) (kind : String) (j : Journal) : Journal :=
  match v with
  | .requeue => (j.record (.warn "Error syncing item, will retry")).count (.requeues kind)
  | .dropHopeless | .dropExhausted =>
    (j.record (.error "Error syncing item, giving up")).count (.itemsDropped kind)

end RetryPolicy

end ClusterSync

import ClusterSync.Object.Name
import ClusterSync.Text.Duration

/-!
# Backoff

How long work that failed has to wait before it is tried again. Each name has a count of its own:
the delay starts at a base, doubles with every failure up to a maximum, and starts over once the
name is forgotten.
-/

namespace ClusterSync

structure Backoff where
  base : Duration
  max : Duration
  failures : Std.ExtTreeMap ObjectName Nat

namespace Backoff

/-- No failures yet. The maximum is at least the base. -/
def initial (base max : Duration) : Backoff := ⟨base, Max.max max base, ∅⟩

/-- The greatest count of failures that is kept. -/
def maxCount : Nat := 4294967295

/-- How many doublings a factor has room for. -/
def factorBits : Nat := 32

/-- The bound of a duration in nanoseconds. -/
def nanosBound : Nat := 18446744073709551616 * 1000000000

/-- The failures of a name since it was last forgotten. -/
def count (b : Backoff) (name : ObjectName) : Nat := b.failures.getD name 0

/-- The delay after a number of earlier failures: the base doubled so often, if neither the factor
nor the product leaves its bounds, and never more than the maximum. -/
def delayAfter (b : Backoff) (failures : Nat) : Duration :=
  if failures < factorBits then
    let delay : Duration := ⟨b.base.nanos * Nat.pow 2 failures⟩
    if delay.nanos < nanosBound then min delay b.max else b.max
  else b.max

/-- Counts one more failure of a name and gives the delay for it. -/
def next (b : Backoff) (name : ObjectName) : Duration × Backoff :=
  let n := b.count name
  (b.delayAfter n, { b with failures := b.failures.insert name (min (n + 1) maxCount) })

/-- Starts over for a name. -/
def forget (b : Backoff) (name : ObjectName) : Backoff :=
  { b with failures := b.failures.erase name }

end Backoff

end ClusterSync

import ClusterSync.Text.Duration

/-!
# Timers

When a timer that is set now goes off. Instants are nanoseconds since the start; timers go off on
whole milliseconds, never early. A delay that the clock cannot reach counts as thirty years.
-/

namespace ClusterSync.Clock

/-- A nanosecond count rounded up to whole milliseconds. -/
def wholeMillis (nanos : Nat) : Nat := (nanos + 999999) / 1000000 * 1000000

/-- The last second the clock can show. -/
def lastSecond : Nat := 9223372036854775807

/-- The delay that stands for those out of reach. -/
def thirtyYears : Duration := .ofSecs (86400 * 365 * 30)

/-- The instant at which a timer set at `now` goes off. -/
def dueAt (now : Nat) (delay : Duration) : Nat :=
  if lastSecond < (now + delay.nanos) / 1000000000 then wholeMillis (now + thirtyYears.nanos)
  else wholeMillis (now + delay.nanos)

end ClusterSync.Clock

import ClusterSync.Decimal.Binary64
import ClusterSync.Telemetry.Exposition

/-!
# The histogram of durations

How many deliveries took at most so long, for a fixed list of bounds.
-/

namespace ClusterSync

open Decimal

namespace Histogram

/-- The bounds: as written, and as a quotient of which the nearest floating-point number counts. -/
def bounds : List (String × Nat × Nat) :=
  [("0.001", 1, 1000), ("0.005", 5, 1000), ("0.01", 1, 100), ("0.05", 5, 100), ("0.1", 1, 10),
    ("0.5", 1, 2), ("1", 1, 1), ("5", 5, 1)]

/-- Whether a duration is at most a bound. -/
def within (seconds : Binary64) (num den : Nat) : Bool :=
  match Binary64.ofRatio? num den with
  | some bound => seconds.le bound
  | none => true

/-- The line of a bucket. -/
def bucketLine (kind bound : String) : String :=
  Sample.line (MetricFamily.syncDurations.name ++ "_bucket") [("kind", kind), ("le", bound)]

/-- The buckets that a duration is counted in. -/
def bucketsOf (kind : String) (seconds : Binary64) : List String :=
  (bounds.filter fun (_, num, den) => within seconds num den).map (fun (b, _) => bucketLine kind b)
    ++ [bucketLine kind "+Inf"]

end Histogram

/-- Metrics with the buckets of the durations. -/
structure DetailedMetrics where
  metrics : Metrics := {}
  buckets : List (String × Int) := []

namespace DetailedMetrics

/-- Raises a bucket by one. -/
def raise (line : String) : List (String × Int) → List (String × Int)
  | [] => [(line, 1)]
  | (l, n) :: rest => if l = line then (l, n + 1) :: rest else (l, n) :: raise line rest

/-- Counts a delivery that took so long. -/
def observe (m : DetailedMetrics) (kind : String) (seconds : Binary64) : DetailedMetrics where
  metrics := m.metrics.increment (.syncDurations kind)
  buckets := (Histogram.bucketsOf kind seconds).foldl (fun bs line => raise line bs) m.buckets

/-- All lines with their values. -/
def lines (m : DetailedMetrics) : List (String × Int) := m.metrics.lines ++ m.buckets

/-- The sample lines of a family. The number of running controllers always has one. -/
def linesOf (m : DetailedMetrics) (f : MetricFamily) : List (String × Int) :=
  if f = .controllersRunning then [(f.name, m.metrics.value .controllersRunning)]
  else
    let samples := m.metrics.samples.filter fun (sample, _) => sample.family = f
    (if f.type = .histogram then m.buckets else [])
      ++ samples.map fun (sample, n) => (sample.text, n)

/-- The lines that a family has on the page of metrics. -/
def paragraph (m : DetailedMetrics) (f : MetricFamily) : List String :=
  match m.linesOf f with
  | [] => []
  | lines => f.comments ++ lines.map fun (line, n) => line ++ " " ++ toString n

/-- The page of metrics: the families that have samples, in the order of their names. -/
def page (m : DetailedMetrics) : String :=
  String.join ((MetricFamily.sorted.flatMap m.paragraph).map (· ++ "\n"))

/-- What is said when the metrics are registered a second time. -/
def alreadyRegistered : String := "Duplicate metrics collector registration attempted"

end DetailedMetrics

end ClusterSync

import ClusterSync.Decimal.Binary64
import ClusterSync.Telemetry.Event

/-!
# Metric families

The metrics by name, with what they mean and how their samples are written. Samples are written
as 64-bit floating-point numbers, so large values lose their last digits.
-/

namespace ClusterSync

/-- What kind of numbers a metric has. -/
inductive MetricType
  | counter | gauge | histogram
  deriving DecidableEq, Repr

def MetricType.label : MetricType → String
  | .counter => "counter"
  | .gauge => "gauge"
  | .histogram => "histogram"

structure MetricFamily where
  name : String
  help : String
  type : MetricType
  deriving DecidableEq, Repr

namespace MetricFamily

def eventsEnqueued : MetricFamily :=
  ⟨"stargazer_events_enqueued_total", "Total number of watch events added to a work queue",
    .counter⟩

def syncs : MetricFamily :=
  ⟨"stargazer_syncs_total", "Total number of queue items synced successfully", .counter⟩

def syncErrors : MetricFamily :=
  ⟨"stargazer_sync_errors_total", "Total number of failed queue item syncs", .counter⟩

def syncDurations : MetricFamily :=
  ⟨"stargazer_sync_duration_seconds", "Duration of a queue item sync in seconds", .histogram⟩

def requeues : MetricFamily :=
  ⟨"stargazer_requeues_total", "Total number of items requeued with backoff", .counter⟩

def itemsDropped : MetricFamily :=
  ⟨"stargazer_items_dropped_total",
    "Total number of items dropped after a non-retryable error or too many retries", .counter⟩

def queueDepth : MetricFamily :=
  ⟨"stargazer_queue_depth", "Current number of items pending in a work queue", .gauge⟩

def storeOperations : MetricFamily :=
  ⟨"stargazer_store_operations_total",
    "Total number of datastore operations by operation and outcome", .counter⟩

def controllersRunning : MetricFamily :=
  ⟨"stargazer_controllers_running",
    "Number of controllers past cache sync and running workers", .gauge⟩

/-- All families in the order in which they are registered. -/
def all : List MetricFamily :=
  [eventsEnqueued, syncs, syncErrors, syncDurations, requeues, itemsDropped, queueDepth,
    storeOperations, controllersRunning]

/-- The families in the order of their names. -/
def sorted : List MetricFamily := all.mergeSort fun a b => a.name ≤ b.name

/-- The comment lines that introduce a family. -/
def comments (f : MetricFamily) : List String :=
  ["# HELP " ++ f.name ++ " " ++ f.help, "# TYPE " ++ f.name ++ " " ++ f.type.label]

end MetricFamily

namespace Sample

/-- A label's value as written in a sample line. -/
def escapedLabel (s : String) : String :=
  String.ofList <| s.toList.flatMap fun
    | '\\' => ['\\', '\\']
    | '"' => ['\\', '"']
    | '\n' => ['\\', 'n']
    | c => [c]

/-- A sample line without its value: the name with the labels in braces. -/
def line (name : String) (labels : List (String × String)) : String :=
  if labels = [] then name
  else
    name ++ "\x7b"
      ++ ",".intercalate (labels.map fun (key, value) => key ++ "=\"" ++ escapedLabel value ++ "\"")
      ++ "\x7d"

/-- The family that a sample belongs to. -/
def family : Sample → MetricFamily
  | .eventsEnqueued .. => .eventsEnqueued
  | .syncs _ => .syncs
  | .syncErrors .. => .syncErrors
  | .syncDurations _ => .syncDurations
  | .requeues _ => .requeues
  | .itemsDropped _ => .itemsDropped
  | .queueDepth _ => .queueDepth
  | .storeOperations .. => .storeOperations
  | .controllersRunning => .controllersRunning

/-- The labels of a sample in the order of their names. -/
def labels : Sample → List (String × String)
  | .eventsEnqueued kind operation => [("kind", kind), ("operation", operation)]
  | .syncErrors kind reason => [("kind", kind), ("reason", reason)]
  | .storeOperations operation outcome => [("operation", operation), ("outcome", outcome)]
  | .syncs kind | .syncDurations kind | .requeues kind | .itemsDropped kind | .queueDepth kind =>
    [("kind", kind)]
  | .controllersRunning => []

/-- The line of a sample. Of the durations it is the one with their count. -/
def text (s : Sample) : String :=
  let suffix := if s.family.type = .histogram then "_count" else ""
  line (s.family.name ++ suffix) s.labels

end Sample

namespace Metrics

open Decimal in
/-- The value that is written for a sample: the nearest floating-point number, as an integer in
range again. -/
def written (n : Int) : Int :=
  match Binary64.ofRatio? n.natAbs 1 with
  | some x => min (n.sign * (x.ratio.1 / x.ratio.2 : Nat)) greatest
  | none => n

/-- The samples that differ from 0, as lines with their values. -/
def lines (m : Metrics) : List (String × Int) :=
  (m.samples.filter fun (_, n) => n ≠ 0).map fun (sample, n) => (sample.text, written n)

end Metrics

end ClusterSync

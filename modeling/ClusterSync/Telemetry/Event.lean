/-!
# Log events and metric changes

What the program reports about itself while it works. A log event has a level and a message; a
metric change adds to one sample or sets it.
-/

namespace ClusterSync

inductive LogLevel
  | error | warn | info | debug | trace
  deriving DecidableEq, Repr

namespace LogLevel

/-- The level in a log line. -/
def label : LogLevel → String
  | .error => "ERROR"
  | .warn => "WARN"
  | .info => "INFO"
  | .debug => "DEBUG"
  | .trace => "TRACE"

/-- How much a level lets through: higher levels let through more. -/
def rank : LogLevel → Nat
  | .error => 1
  | .warn => 2
  | .info => 3
  | .debug => 4
  | .trace => 5

end LogLevel

structure LogEvent where
  level : LogLevel
  message : String
  fields : List (String × String) := []
  deriving DecidableEq, Repr

namespace LogEvent

def warn (message : String) : LogEvent := ⟨.warn, message, []⟩

def error (message : String) : LogEvent := ⟨.error, message, []⟩

def info (message : String) : LogEvent := ⟨.info, message, []⟩

end LogEvent

/-- One time series: a metric with values for its labels. -/
inductive Sample
  | eventsEnqueued (kind operation : String)
  | syncs (kind : String)
  | syncErrors (kind reason : String)
  | syncDurations (kind : String)
  | requeues (kind : String)
  | itemsDropped (kind : String)
  | queueDepth (kind : String)
  | storeOperations (operation outcome : String)
  | controllersRunning
  deriving DecidableEq, Repr

/-- The current values of all samples, in the order of their first change. -/
structure Metrics where
  samples : List (Sample × Int) := []
  deriving DecidableEq, Repr

namespace Metrics

/-- Applies a change to one sample of a list. -/
def update (sample : Sample) (change : Int → Int) : List (Sample × Int) → List (Sample × Int)
  | [] => [(sample, change 0)]
  | (s, n) :: rest =>
    if s = sample then (s, change n) :: rest else (s, n) :: update sample change rest

/-- The value of a sample, 0 before its first change. -/
def value (m : Metrics) (sample : Sample) : Int := (m.samples.lookup sample).getD 0

def add (m : Metrics) (sample : Sample) (n : Int) : Metrics := ⟨update sample (· + n) m.samples⟩

def increment (m : Metrics) (sample : Sample) : Metrics := m.add sample 1

def set (m : Metrics) (sample : Sample) (n : Int) : Metrics :=
  ⟨update sample (fun _ => n) m.samples⟩

/-- The greatest value that a sample can be set to. -/
def greatest : Int := 9223372036854775807

/-- Sets the depth of a kind's queue. -/
def setDepth (m : Metrics) (kind : String) (depth : Nat) : Metrics :=
  m.set (.queueDepth kind) (min depth greatest)

end Metrics

/-- What the program has reported so far: log events in their order, and metrics. -/
structure Journal where
  log : List LogEvent := []
  metrics : Metrics := {}

namespace Journal

def record (j : Journal) (e : LogEvent) : Journal := { j with log := j.log ++ [e] }

def count (j : Journal) (sample : Sample) : Journal :=
  { j with metrics := j.metrics.increment sample }

def adjust (j : Journal) (sample : Sample) (n : Int) : Journal :=
  { j with metrics := j.metrics.add sample n }

end Journal

end ClusterSync

import ClusterSync.Telemetry.Event

/-!
# Signals

The two signals that tell the program to stop.
-/

namespace ClusterSync

inductive Signal
  | interrupt | terminate
  deriving DecidableEq, Repr

namespace Signal

/-- The usual name of a signal. -/
def label : Signal → String
  | .interrupt => "SIGINT"
  | .terminate => "SIGTERM"

end Signal

/-- Somebody who waits for a signal, and what has been reported of it. -/
structure SignalWatch where
  received : Option Signal := none
  log : List LogEvent := []
  deriving DecidableEq, Repr

namespace SignalWatch

/-- Whether a signal has come. -/
def isDone (w : SignalWatch) : Bool := w.received.isSome

/-- A signal comes; only the first one counts. -/
def receive (w : SignalWatch) (s : Signal) : SignalWatch :=
  if w.isDone then w else ⟨some s, w.log ++ [.info ("Received " ++ s.label)]⟩

end SignalWatch

end ClusterSync

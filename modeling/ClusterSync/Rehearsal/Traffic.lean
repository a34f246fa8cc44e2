import ClusterSync.Controller.Lifecycle
import ClusterSync.Rehearsal.Store

/-!
# Transactions under way

Workers in virtual time whose transactions take a while before they are carried out.
-/

namespace ClusterSync.Rehearsal

/-- A transaction under way. Its worker is known by its controller's place and its own. -/
structure Flight where
  controller : Nat
  worker : Nat
  path : String
  due : Nat
  fate : Fate

structure Traffic where
  /-- How long a transaction takes. -/
  delay : Duration
  flights : List Flight
  /-- How many transactions have begun. -/
  begun : Nat
  /-- The most transactions on one path at the same time. -/
  busiest : Nat

namespace Traffic

def initial (delay : Duration) : Traffic := ⟨delay, [], 0, 0⟩

/-- The transaction of a worker. -/
def find? (t : Traffic) (controller worker : Nat) : Option Flight :=
  t.flights.find? fun f => f.controller = controller ∧ f.worker = worker

/-- A worker's transaction begins. -/
def depart (t : Traffic) (now controller worker : Nat) (path : String) (fate : Fate) : Traffic :=
  let flights := t.flights ++ [⟨controller, worker, path, Clock.dueAt now t.delay, fate⟩]
  { t with
    flights
    begun := t.begun + 1
    busiest := max t.busiest (flights.countP (·.path = path)) }

/-- A worker's transaction is over. -/
def land (t : Traffic) (controller worker : Nat) : Traffic :=
  { t with
    flights := t.flights.filter fun f => ¬ (f.controller = controller ∧ f.worker = worker) }

/-- The instant at which the next transaction is carried out. -/
def nextDue? (t : Traffic) : Option Nat := (t.flights.map (·.due)).min?

/-- The next step of a worker. What becomes of a transaction is settled when it begins, but it is
carried out only after it has taken its time; one that is told to break its worker does so before
it begins. -/
def workerStep? (now controller worker : Nat) (c : Controller) (s : FaultyStore) (t : Traffic) :
    Option (Controller × FaultyStore × Traffic) :=
  let advance (backend : Backend FaultyStore) (s : FaultyStore) (t : Traffic) :
      Option (Controller × FaultyStore × Traffic) :=
    (c.pipeline.advance? backend now worker s).map fun (pipeline, s) => ({ c with pipeline }, s, t)
  match c.pipeline.workers[worker]? with
  | some (.talking _ (.commit x _)) =>
    match t.find? controller worker with
    | some flight =>
      if flight.due ≤ now then advance (FaultyStore.backendFor flight.fate) s (t.land controller worker)
      else none
    | none =>
      if s.breakNext then
        some ({ c with pipeline := c.pipeline.setWorker worker .broken },
          { s with breakNext := false }, t)
      else
        let (fate, s) := s.drawFate
        let t := t.depart now controller worker x.comparison.path fate
        if t.delay.nanos = 0 then advance (FaultyStore.backendFor fate) s (t.land controller worker)
        else some (c, s, t)
  | _ => advance FaultyStore.backend s t

/-- The next step of a controller: a response of its own, or the first worker that has a step. -/
def controllerStep? (now controller : Nat) (c : Controller) (s : FaultyStore) (t : Traffic) :
    Option (Controller × FaultyStore × Traffic) :=
  match c.transition? now with
  | some c => some (c, s, t)
  | none =>
    (List.range c.pipeline.workers.length).findSome? fun worker =>
      workerStep? now controller worker c s t

end Traffic

/-- When a controller has something to do by the clock. -/
def controllerDue? (c : Controller) : Option Nat :=
  let deadline := if c.state = .syncing then some c.deadline else none
  (deadline.toList ++ c.pipeline.backlog.nextDue?.toList).min?

/-- Adds the delayed work of a controller that is due now, the earliest first. -/
def fireDue (now : Nat) (c : Controller) : Controller :=
  match c.pipeline.backlog.firstDue? now with
  | none => c
  | some i => { c with pipeline := { c.pipeline with backlog := c.pipeline.backlog.fire i } }

/-- How many steps a rehearsal takes at one instant before it gives up. -/
def patience : Nat := 10000000

end ClusterSync.Rehearsal

import ClusterSync.Rehearsal.Backlog
import ClusterSync.Rehearsal.Traffic

/-!
# Rehearsing a controller

One controller in virtual time, over a store with faults. Items may be processed one by one from
outside, or the controller is started and works by itself. After every step it has gone as far as
it can.
-/

namespace ClusterSync.Rehearsal

structure Site where
  now : Nat
  controller : Controller
  store : FaultyStore
  traffic : Traffic

/-- What can be done with a controller from outside. -/
inductive SiteStep
  | backlog (step : BacklogStep)
  /-- An event of the watch. -/
  | watch (event : WatchEvent)
  /-- Works on the next item to the end. -/
  | process
  /-- Another writer's transaction. -/
  | commit (x : Transaction)
  /-- Nobody changes the cache from now on. -/
  | abandonCache
  /-- Starts the controller. -/
  | run
  /-- Tells the controller to stop. -/
  | stop
  | nothing

inductive SiteReply
  | backlog (reply : BacklogReply)
  /-- How many items followed from an event. -/
  | enqueued (count : Nat)
  /-- Whether there was an item. -/
  | processed (had : Bool)
  | committed (outcome : Outcome)
  | nothing

namespace Site

/-- A controller that has not been started; it may have been told to stop already. -/
def initial (kind : Kind) (backoff : Backoff) (settings : ControllerSettings) (delay : Duration)
    (stopRequested : Bool) : Site where
  now := 0
  controller := { Controller.initial kind backoff settings with stopRequested }
  store := .initial
  traffic := .initial delay

/-- Lets the controller go as far as it can. -/
def settleWithin : (steps : Nat) → Site → Site
  | 0, s => s
  | steps + 1, s =>
    match Traffic.controllerStep? s.now 0 s.controller s.store s.traffic with
    | none => s
    | some (controller, store, traffic) =>
      settleWithin steps { s with controller, store, traffic }

def settle (s : Site) : Site := settleWithin patience s

/-- When something is to happen by the clock. -/
def nextDue? (s : Site) : Option Nat :=
  ((controllerDue? s.controller).toList ++ s.traffic.nextDue?.toList).min?

/-- Goes on to the next instant at which something happens, if that is not after `limit`. -/
def tick? (limit : Nat) (s : Site) : Option Site :=
  match s.nextDue? with
  | none => none
  | some due =>
    if limit < due then none
    else
      let now := max s.now due
      some { s with now, controller := fireDue now s.controller }.settle

/-- Lets time pass up to an instant. -/
def passTime (limit : Nat) : (rounds : Nat) → Site → Site
  | 0, s => { s with now := limit }
  | rounds + 1, s =>
    match s.tick? limit with
    | none => { s with now := limit }
    | some s => passTime limit rounds s

def setPipeline (s : Site) (pipeline : Pipeline) : Site :=
  { s with controller := { s.controller with pipeline } }

def setBacklog (s : Site) (backlog : Backlog) : Site :=
  s.setPipeline { s.controller.pipeline with backlog }

/-- Takes an item from outside. -/
def take? (s : Site) : Option (Site × Option WorkItem) :=
  let backlog := s.controller.pipeline.backlog
  match backlog.take? with
  | some (item, backlog) => some (s.setBacklog backlog, some item)
  | none => if backlog.closed then some (s, none) else none

/-- Takes an item, waiting for it up to an instant. -/
def takeBy (limit : Nat) : (rounds : Nat) → Site → Site × BacklogReply
  | 0, s => (s, .timeout)
  | rounds + 1, s =>
    match s.take? with
    | some (s, item) => (s, .item item)
    | none =>
      match s.tick? limit with
      | none => ({ s with now := limit }, .timeout)
      | some s => takeBy limit rounds s

/-- A step that concerns the backlog. -/
def backlogStep (s : Site) (step : BacklogStep) : Site × BacklogReply :=
  let backlog := s.controller.pipeline.backlog
  match step with
  | .take =>
    match s.take? with
    | some (s, item) => (s, .item item)
    | none => (s, .pending)
  | .takeWithin limit => takeBy (Clock.dueAt s.now limit) patience s
  | .advance time => (passTime (s.now + time.nanos) patience s, .nothing)
  | step => (s.setBacklog (step.change s.now backlog), step.look backlog)

/-- What a step does before the controller goes on; none if an event's object cannot be cached. -/
def act? (s : Site) : SiteStep → Option (Site × SiteReply)
  | .backlog step => let (s, reply) := s.backlogStep step; some (s, .backlog reply)
  | .watch event =>
    (s.controller.pipeline.receive? event).map fun (p, n) => (s.setPipeline p, .enqueued n)
  | .process =>
    match s.controller.pipeline.process? FaultyStore.backend s.now s.store with
    | none => some (s, .backlog .pending)
    | some (had, p, store) => some ({ s with store }.setPipeline p, .processed had)
  | .commit x =>
    let (outcome, table) := s.store.table.commit x
    some ({ s with store := { s.store with table } }, .committed outcome)
  | .abandonCache =>
    let p := s.controller.pipeline
    some (s.setPipeline { p with cache := p.cache.abandon }, .nothing)
  | .run => some ({ s with controller := s.controller.start s.now }, .nothing)
  | .stop => some ({ s with controller := { s.controller with stopRequested := true } }, .nothing)
  | .nothing => some (s, .nothing)

/-- Takes a step, with faults that come just before it. -/
def step? (s : Site) (faults : Faults) (step : SiteStep) : Option (Site × SiteReply) :=
  let s := { s with store := s.store.expect faults }
  (s.act? step).map fun (s, reply) => (s.settle, reply)

/-- The metrics, with the depth of the backlog. -/
def metrics (s : Site) : Metrics :=
  let p := s.controller.pipeline
  p.journal.metrics.setDepth p.kind.label p.backlog.size

end Site

end ClusterSync.Rehearsal

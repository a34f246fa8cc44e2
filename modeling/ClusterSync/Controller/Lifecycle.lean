import ClusterSync.Controller.Worker

/-!
# The life of a controller

A controller waits until its cache is synced, then lets its workers run until it is told to stop,
and then lets them finish what is left. It fails, without ever starting a worker, if the cache
cannot be synced, if that takes too long, or if it is told to stop before.

`Controller.respond?` does what is due at one go. `Controller.Walks` makes of the same pieces one
step each, so that others may come between any two of them.
-/

namespace ClusterSync

inductive ControllerState
  | initializing | syncing | running | draining | stopped | failed
  deriving DecidableEq, Repr

namespace ControllerState

def label : ControllerState → String
  | .initializing => "Initializing"
  | .syncing => "Syncing"
  | .running => "Running"
  | .draining => "Draining"
  | .stopped => "Stopped"
  | .failed => "Failed"

/-- Whether it is settled how the start went. -/
def isSettled : ControllerState → Bool
  | .initializing | .syncing => false
  | _ => true

end ControllerState

/-- Why a controller did not start. -/
inductive ControllerError
  | syncTimeout (kind : String) (timeout : Duration)
  | syncImpossible (kind : String)
  | stoppedBeforeSync (kind : String)
  deriving DecidableEq, Repr

namespace ControllerError

/-- What keeps a cache from ever being synced. -/
def writerGone : String := "watch cache writer was dropped before the initial list completed"

def message : ControllerError → String
  | .syncTimeout kind timeout =>
    s!"timed out after {timeout.text} waiting for the {kind} cache to sync"
  | .syncImpossible kind => s!"{kind} cache failed to sync: {writerGone}"
  | .stoppedBeforeSync kind => s!"shutdown requested before the {kind} cache synced"

/-- The cause behind an error, if it has one. -/
def cause? : ControllerError → Option String
  | .syncImpossible _ => some writerGone
  | .syncTimeout .. | .stoppedBeforeSync _ => none

end ControllerError

structure ControllerSettings where
  workers : Nat
  maxRetries : Nat
  syncTimeout : Duration
  deriving DecidableEq, Repr

structure Controller where
  settings : ControllerSettings
  pipeline : Pipeline
  /-- The states so far, the present one first. -/
  states : List ControllerState
  /-- The instant at which waiting for the cache ends. -/
  deadline : Nat
  /-- Whether the controller has been told to stop. -/
  stopRequested : Bool
  /-- How many broken workers have been reported. -/
  reported : Nat
  /-- How the run ended. -/
  result : Option (Except ControllerError Unit)

namespace Controller

/-- A controller that has not been started. -/
def initial (kind : Kind) (backoff : Backoff) (settings : ControllerSettings) : Controller :=
  ⟨settings, .initial kind backoff settings.maxRetries, [.initializing], 0, false, 0, none⟩

def state (c : Controller) : ControllerState := c.states.headD .initializing

def enter (c : Controller) (s : ControllerState) : Controller :=
  { c with states := s :: c.states }

/-- The number of workers that run, which is never 0. -/
def workerCount (c : Controller) : Nat := max c.settings.workers 1

/-- The number of workers that have broken down. -/
def broken (c : Controller) : Nat := c.pipeline.workers.countP fun w => w matches .broken

/-! ## What a run does, piece by piece -/

/-- Begins to wait for the cache. -/
def start (c : Controller) (now : Nat) : Controller :=
  { c.enter .syncing with deadline := Clock.dueAt now c.settings.syncTimeout }

def setPipeline (c : Controller) (pipeline : Pipeline) : Controller := { c with pipeline }

def closeBacklog (c : Controller) : Controller :=
  c.setPipeline { c.pipeline with backlog := c.pipeline.backlog.close }

/-- Moves the gauge of the running controllers. -/
def moveGauge (c : Controller) (n : Int) : Controller :=
  c.setPipeline { c.pipeline with journal := c.pipeline.journal.adjust .controllersRunning n }

def reportFailure (c : Controller) : Controller :=
  c.setPipeline { c.pipeline with
    journal := c.pipeline.journal.record (.error "Controller failed to start") }

/-- Reports one more worker that has broken down. -/
def reportBroken (c : Controller) : Controller :=
  { c with
    reported := c.reported + 1
    pipeline := { c.pipeline with
      journal := c.pipeline.journal.record (.error "Worker task failed") } }

/-- Starts one more worker. -/
def hire (c : Controller) : Controller :=
  c.setPipeline { c.pipeline with workers := c.pipeline.workers ++ [.idle] }

/-! ## At one go -/

/-- Fails before any worker has started. -/
def fail (c : Controller) (e : ControllerError) : Controller :=
  { (c.reportFailure.enter .failed).closeBacklog with result := some (.error e) }

/-- Starts the workers. -/
def startWorkers (c : Controller) : Controller :=
  ((c.setPipeline { c.pipeline with
    workers := List.replicate c.workerCount .idle }).enter .running).moveGauge 1

/-- Closes the backlog and goes on until the workers are gone. -/
def drain (c : Controller) : Controller := (c.enter .draining).closeBacklog

/-- Ends once every worker is gone. -/
def stop (c : Controller) : Controller :=
  { (c.moveGauge (-1)).enter .stopped with result := some (.ok ()) }

/-- What a controller may respond to. -/
inductive Stimulus
  | cache | deadline | stopRequest | workers
  deriving DecidableEq, Repr

/-- The response to a stimulus, if it is one now. The deadline counts only while it is open whether
the cache can be synced; between the cache and a wish to stop either may come first. -/
def respond? (c : Controller) (now : Nat) (s : Stimulus) : Option Controller :=
  let kind := c.pipeline.kind.label
  let cache := c.pipeline.cache
  match c.state, s with
  | .syncing, .cache =>
    if cache.synced then some c.startWorkers
    else if cache.writable then none
    else some (c.fail (.syncImpossible kind))
  | .syncing, .deadline =>
    if ¬ cache.synced ∧ cache.writable ∧ c.deadline ≤ now then
      some (c.fail (.syncTimeout kind c.settings.syncTimeout))
    else none
  | .syncing, .stopRequest =>
    if c.stopRequested then some (c.fail (.stoppedBeforeSync kind)) else none
  | .running, .stopRequest => if c.stopRequested then some c.drain else none
  | .draining, .workers =>
    if c.reported < c.broken then some c.reportBroken
    else if c.pipeline.workers.all Worker.isGone then some c.stop
    else none
  | _, _ => none

/-- The first response that is due. -/
def transition? (c : Controller) (now : Nat) : Option Controller :=
  [.cache, .deadline, .stopRequest, .workers].findSome? (c.respond? now)

end Controller

/-! ## One thing after the other -/

/-- How far a run has come. -/
inductive ControllerPhase
  /-- It has not begun. -/
  | unstarted
  /-- It waits for the cache, for the deadline and for the wish to stop. -/
  | waiting
  /-- The wait has ended badly, and nobody has been told. -/
  | failing (e : ControllerError)
  /-- `Failed` is published, and the backlog is still as it was. -/
  | forsaking (e : ControllerError)
  /-- The cache is synced, and workers are being started. -/
  | hiring
  /-- `Running` is published, and the gauge does not show it yet. -/
  | arriving
  /-- It waits for the wish to stop. -/
  | serving
  /-- `Draining` is published, and the backlog is still as it was. -/
  | closing
  /-- It waits for the workers. -/
  | joining
  /-- The workers are gone, and the gauge shows it. -/
  | ending
  /-- It is about to return. -/
  | leaving (result : Except ControllerError Unit)
  | finished (result : Except ControllerError Unit)

namespace Controller

/-- The steps of a run. The wait for the cache, the deadline and the wish to stop race: whichever is
looked at first decides, and the deadline may be looked at when the cache has just been synced. -/
inductive Walks (now : Nat) (c : Controller) :
    ControllerPhase → ControllerPhase → Controller → Prop
  | begins : Walks now c .unstarted .waiting (c.start now)
  | finds (hc : c.pipeline.cache.synced = true) : Walks now c .waiting .hiring c
  | despairs (hc : c.pipeline.cache.synced = false) (hw : c.pipeline.cache.writable = false) :
      Walks now c .waiting (.failing (.syncImpossible c.pipeline.kind.label)) c
  | tires (hd : c.deadline ≤ now) :
      Walks now c .waiting
        (.failing (.syncTimeout c.pipeline.kind.label c.settings.syncTimeout)) c
  | obeys (hr : c.stopRequested = true) :
      Walks now c .waiting (.failing (.stoppedBeforeSync c.pipeline.kind.label)) c
  | fails (e : ControllerError) :
      Walks now c (.failing e) (.forsaking e) (c.reportFailure.enter .failed)
  | forsakes (e : ControllerError) :
      Walks now c (.forsaking e) (.leaving (.error e)) c.closeBacklog
  | hires (hn : c.pipeline.workers.length < c.workerCount) : Walks now c .hiring .hiring c.hire
  | arrives (hn : c.workerCount ≤ c.pipeline.workers.length) :
      Walks now c .hiring .arriving (c.enter .running)
  | shows : Walks now c .arriving .serving (c.moveGauge 1)
  | drains (hr : c.stopRequested = true) : Walks now c .serving .closing (c.enter .draining)
  | closes : Walks now c .closing .joining c.closeBacklog
  | learns (hb : c.reported < c.broken) : Walks now c .joining .joining c.reportBroken
  | joins (hb : c.broken ≤ c.reported) (hg : c.pipeline.workers.all Worker.isGone = true) :
      Walks now c .joining .ending (c.moveGauge (-1))
  | ends : Walks now c .ending (.leaving (.ok ())) (c.enter .stopped)
  | returns (result : Except ControllerError Unit) :
      Walks now c (.leaving result) (.finished result) { c with result := some result }

end Controller

end ClusterSync

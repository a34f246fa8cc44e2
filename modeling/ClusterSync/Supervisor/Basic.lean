import ClusterSync.Settings.Basic
import ClusterSync.Supervisor.Kinds
import ClusterSync.Supervisor.ReadyFlag
import ClusterSync.Supervisor.RollCall

/-!
# The supervisor

Runs one controller and one watch for every enabled kind. It reports ready once every controller
runs: first to those who ask for its readiness, then with the flag in the datastore. When it is
told to stop it takes both back, in the same order, and only then tells the controllers and
watches; it has finished when all of them are gone. If a controller does not get to run it never
reports ready, and the others go on.

Every response, and every call of a dialogue with the datastore, is a step of its own, so
controllers, watches and the signal may come in between.
-/

namespace ClusterSync

/-- How a kind's watch stands. -/
inductive WatchState
  | running
  /-- It has left because it was told to stop. -/
  | ended
  /-- It has broken down. -/
  | broken
  deriving DecidableEq, Repr

/-- What runs for one kind. -/
structure Member where
  controller : Controller
  watch : WatchState

namespace Member

/-- What a member's controller shows of itself. -/
def showing (m : Member) : Showing := ⟨m.controller.state, m.controller.result.isSome⟩

/-- Whether neither the controller nor the watch does anything any more. -/
def isGone (m : Member) : Bool := m.controller.result.isSome && decide (m.watch ≠ .running)

/-- The member without its watch, after which nobody changes its cache. -/
def loseWatch (m : Member) (watch : WatchState) : Member :=
  { m with
    watch
    controller := { m.controller with
      pipeline := { m.controller.pipeline with cache := m.controller.pipeline.cache.abandon } } }

/-- Tells the controller to stop. -/
def requestStop (m : Member) : Member :=
  { m with controller := { m.controller with stopRequested := true } }

end Member

/-- Where a supervisor stands. -/
inductive Stage
  /-- It waits for the controllers to start. -/
  | waiting (roll : RollCall)
  /-- It is setting the flag in the datastore. -/
  | announcing (rest : Dialogue Unit)
  /-- It waits for the signal to stop. -/
  | holding
  /-- It is clearing the flag in the datastore. -/
  | retracting (rest : Dialogue Unit)
  /-- It waits for controllers and watches to go. -/
  | draining
  | finished
  /-- It has not started anything, for the reason given. -/
  | refused (reason : String)

structure Supervisor where
  members : List Member
  stage : Stage
  /-- What those who ask for the readiness are told. -/
  ready : Bool
  /-- Whether the signal to stop has come. -/
  signalled : Bool
  journal : Journal

namespace Supervisor

/-- Why a supervisor does not start: the list of controllers enables none. -/
def noControllers (list : String) : String :=
  s!"no controllers enabled (CONTROLLERS={Text.quoted list})"

/-- The settings of a kind's controller. -/
def controllerSettings (s : Settings) : Kind → ControllerSettings
  | .node => ⟨s.nodeWorkers, s.maxRetries, s.syncTimeout⟩
  | .policy => ⟨s.policyWorkers, s.maxRetries, s.syncTimeout⟩

/-- A member that has just been started. -/
def member (s : Settings) (now : Nat) (kind : Kind) : Member :=
  let backoff := Backoff.initial s.backoffStart s.backoffMax
  ⟨(Controller.initial kind backoff (controllerSettings s kind)).start now, .running⟩

/-- The supervisor with more log events. -/
def reportAll (s : Supervisor) (events : List LogEvent) : Supervisor :=
  { s with journal := events.foldl Journal.record s.journal }

/-- A supervisor that has just started a member for each of the kinds that are enabled. It refuses
to start if there is none. -/
def start (s : Settings) (now : Nat) : Supervisor :=
  let kinds := Kind.ofList s.controllers
  let supervisor : Supervisor :=
    { members := kinds.map (member s now)
      stage := if kinds = [] then .refused (noControllers s.controllers) else .waiting .initial
      ready := false
      signalled := false
      journal := {} }
  supervisor.reportAll (Kind.unknownNames (Text.commaList s.controllers))

/-- Takes the readiness back and begins to clear the flag. -/
def retract (s : Supervisor) : Supervisor :=
  { s with ready := false, stage := .retracting (ReadyFlag.publish false) }

/-- Ends the roll call: ready if every controller runs, and not ready for good otherwise. -/
def concludeRollCall (s : Supervisor) (allRunning : Bool) : Supervisor :=
  if allRunning then { s with ready := true, stage := .announcing (ReadyFlag.publish true) }
  else
    { s.reportAll [.error "One or more controllers failed to start, not reporting ready"] with
      stage := .holding }

/-- Ends for good, with a report for every watch that has broken down. -/
def finish (s : Supervisor) : Supervisor :=
  let broken := s.members.filter fun m => m.watch = .broken
  { s.reportAll (broken.map fun _ => .error "Controller task panicked") with stage := .finished }

/-- What a supervisor may respond to. -/
inductive Stimulus
  /-- The next controller answers the roll call, or all have answered. -/
  | rollCall
  | signal
  /-- The members are gone. -/
  | members
  deriving DecidableEq, Repr

/-- The response to a stimulus, if it is one now. -/
def respond? (s : Supervisor) (stimulus : Stimulus) : Option Supervisor :=
  let showings := s.members.map Member.showing
  match s.stage, stimulus with
  | .waiting roll, .rollCall =>
    match roll.outcome? showings with
    | some allRunning => some (s.concludeRollCall allRunning)
    | none =>
      (roll.next? showings).map fun (roll, events) =>
        { s.reportAll events with stage := .waiting roll }
  | .waiting _, .signal | .holding, .signal => if s.signalled then some s.retract else none
  | .draining, .members => if s.members.all Member.isGone then some s.finish else none
  | _, _ => none

variable {σ : Type}

/-- One step of the dialogue that sets or clears the flag. -/
def speak? (backend : Backend σ) (s : Supervisor) (store : σ) : Option (Supervisor × σ) :=
  match s.stage with
  | .announcing (.done ()) => some ({ s with stage := .holding }, store)
  | .announcing rest =>
    let (rest, journal, store) := rest.step backend s.journal store
    some ({ s with stage := .announcing rest, journal }, store)
  | .retracting (.done ()) =>
    some ({ s with stage := .draining, members := s.members.map Member.requestStop }, store)
  | .retracting rest =>
    let (rest, journal, store) := rest.step backend s.journal store
    some ({ s with stage := .retracting rest, journal }, store)
  | _ => none

/-- Whether the members have been told to stop. -/
def hasStopped (s : Supervisor) : Bool :=
  match s.stage with
  | .draining | .finished => true
  | _ => false

/-- A watch leaves because it has been told to stop. -/
def endWatch? (s : Supervisor) (i : Nat) : Option Supervisor := do
  let m ← s.members[i]?
  guard (s.hasStopped ∧ m.watch = .running)
  return { s with members := s.members.set i (m.loseWatch .ended) }

/-- Puts a member's controller, after a step of it, into its place. A controller that fails is
reported. -/
def setController (s : Supervisor) (i : Nat) (c : Controller) : Supervisor :=
  match s.members[i]? with
  | none => s
  | some m =>
    let failed := m.controller.result.isNone && c.result matches some (.error _)
    { s.reportAll (if failed then [.error "Controller failed"] else []) with
      members := s.members.set i { m with controller := c } }

/-- News for a member's watch, which breaks down if the object cannot be cached. A watch that is
gone hears nothing. -/
def observe (s : Supervisor) (i : Nat) (event : WatchEvent) : Supervisor :=
  match s.members[i]? with
  | none => s
  | some m =>
    if m.watch = .running then
      match m.controller.pipeline.receive? event with
      | none => { s with members := s.members.set i (m.loseWatch .broken) }
      | some (pipeline, _) =>
        { s with
          members := s.members.set i { m with controller := { m.controller with pipeline } } }
    else s

end Supervisor

end ClusterSync

import ClusterSync.Rehearsal.Feed
import ClusterSync.Rehearsal.Traffic
import ClusterSync.Watch.Trouble

/-!
# Rehearsing a supervisor

A supervisor with its controllers in virtual time, over a store, with a scripted cluster for each
kind. After every step everything has gone as far as it can.
-/

namespace ClusterSync.Rehearsal

structure World where
  now : Nat
  supervisor : Supervisor
  store : FaultyStore
  traffic : Traffic
  /-- What each member's watch is going to hear. -/
  feeds : List (Option Feed)

namespace World

/-- A supervisor that has just been started over a store. -/
def initial (settings : Settings) (script : Kind → List Phase) (store : FaultyStore) : World where
  now := 0
  supervisor := .start settings 0
  store := store
  traffic := .initial 0
  feeds := (Kind.ofList settings.controllers).map fun kind => some (.start 0 (script kind))

/-- What a member's watch does about a piece of news. -/
def hear (i : Nat) (s : Supervisor) : News → Supervisor
  | .event e => s.observe i e
  | .bookmark => s
  | .trouble text =>
    match s.members[i]? with
    | some m =>
      if m.watch = .running then
        s.reportAll [WatchTrouble.report m.controller.pipeline.kind.label text]
      else s
    | none => s

/-- Lets a member's watch hear what is due now. -/
def listen? (w : World) (i : Nat) : Option World := do
  let feed ← (← w.feeds[i]?)
  let m ← w.supervisor.members[i]?
  guard (feed.due ≤ w.now ∧ m.watch = .running)
  match feed.next? with
  | none => return { w with feeds := w.feeds.set i none }
  | some (news, feed) =>
    return { w with
      supervisor := news.foldl (hear i) w.supervisor
      feeds := w.feeds.set i (some feed) }

/-- The next step of a member: of its controller, of its watch, or the end of its watch. -/
def memberStep? (w : World) (i : Nat) : Option World := do
  let m ← w.supervisor.members[i]?
  match Traffic.controllerStep? w.now i m.controller w.store w.traffic with
  | some (c, store, traffic) =>
    return { w with supervisor := w.supervisor.setController i c, store, traffic }
  | none =>
    match w.supervisor.endWatch? i with
    | some supervisor => return { w with supervisor }
    | none => w.listen? i

/-- The next step of the supervisor itself. -/
def supervisorStep? (w : World) : Option World :=
  match [.rollCall, .signal, .members].findSome? w.supervisor.respond? with
  | some supervisor => some { w with supervisor }
  | none =>
    (w.supervisor.speak? FaultyStore.backend w.store).map fun (supervisor, store) =>
      { w with supervisor, store }

/-- Lets everything go as far as it can. -/
def settleWithin : (steps : Nat) → World → World
  | 0, w => w
  | steps + 1, w =>
    match w.supervisorStep?.or
        ((List.range w.supervisor.members.length).findSome? w.memberStep?) with
    | none => w
    | some w => settleWithin steps w

def settle (w : World) : World := settleWithin patience w

/-- When something is to happen by the clock. -/
def nextDue? (w : World) : Option Nat :=
  let feeds := (w.supervisor.members.zip w.feeds).filterMap fun (m, feed) =>
    if m.watch = .running then feed.map (·.due) else none
  (feeds ++ w.supervisor.members.filterMap fun m => controllerDue? m.controller).min?

/-- Goes on to the next instant at which something happens, if that is not after `limit`. -/
def tick? (limit : Nat) (w : World) : Option World :=
  match w.nextDue? with
  | none => none
  | some due =>
    if limit < due then none
    else
      let now := max w.now due
      let members := w.supervisor.members.map fun m =>
        { m with controller := fireDue now m.controller }
      some (settle { w with now, supervisor := { w.supervisor with members } })

/-- Lets time pass up to an instant. -/
def passTime (limit : Nat) : (rounds : Nat) → World → World
  | 0, w => { w with now := limit }
  | rounds + 1, w =>
    match w.tick? limit with
    | none => { w with now := limit }
    | some w => passTime limit rounds w

def advance (w : World) (time : Duration) : World := passTime (w.now + time.nanos) patience w

/-- Gives the signal to stop and lets a millisecond pass. -/
def signal (w : World) : World :=
  (settle { w with supervisor := { w.supervisor with signalled := true } }).advance (.ofMillis 1)

/-- Whether the supervisor is done. -/
def isFinished (w : World) : Bool :=
  match w.supervisor.stage with
  | .finished | .refused _ => true
  | _ => false

/-- Why the supervisor has not started, if it has not. -/
def refusal? (w : World) : Option String :=
  match w.supervisor.stage with
  | .refused message => some message
  | _ => none

/-- All that has been reported, by the supervisor and by the controllers. -/
def log (w : World) : List LogEvent :=
  w.supervisor.journal.log
    ++ w.supervisor.members.flatMap fun m => m.controller.pipeline.journal.log

end World

end ClusterSync.Rehearsal

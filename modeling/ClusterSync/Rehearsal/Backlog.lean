import ClusterSync.Backlog.Waiting
import ClusterSync.Delivery.RetryPolicy

/-!
# Rehearsing a backlog

A backlog in virtual time, with callers that wait for work. After every step all callers have gone
as far as they can, and delayed work is added at its time when the clock is advanced.
-/

namespace ClusterSync.Rehearsal

/-- What can be done with a backlog from outside. -/
inductive BacklogStep
  | add (item : WorkItem)
  | addLater (item : WorkItem)
  | addAfter (delay : Duration) (item : WorkItem)
  | take
  /-- Takes an item, waiting for it up to a limit. -/
  | takeWithin (limit : Duration)
  | release (name : ObjectName)
  | forget (name : ObjectName)
  | putOffs (name : ObjectName)
  | close
  | advance (time : Duration)

/-- What a step answers. -/
inductive BacklogReply
  | nothing
  /-- A piece of work, or none because the backlog is closed and empty. -/
  | item (item : Option WorkItem)
  /-- There was nothing to take without waiting. -/
  | pending
  /-- Nothing came within the limit. -/
  | timeout
  | count (n : Nat)
  deriving DecidableEq, Repr

namespace BacklogStep

/-- The change that a step makes by itself. -/
def change (now : Nat) (b : Backlog) : BacklogStep → Backlog
  | .add item => b.add item
  | .addLater item => b.addLater now item
  | .addAfter delay item => b.addAfter now delay item
  | .release name => b.release name
  | .forget name => b.forget name
  | .close => b.close
  | .take | .takeWithin _ | .putOffs _ | .advance _ => b

/-- The answer that needs no more than a look. -/
def look (b : Backlog) : BacklogStep → BacklogReply
  | .putOffs name => .count (b.putOffs name)
  | _ => .nothing

end BacklogStep

/-- A waiting room in virtual time. -/
structure Bench where
  now : Nat
  room : WaitingRoom
  /-- The callers that were sent in to wait. -/
  waiters : List Nat

namespace Bench

def initial (base max : Duration) : Bench := ⟨0, .initial (.initial (.initial base max)), []⟩

/-- Changes the room and lets everybody go as far as they can. -/
def act (b : Bench) (f : WaitingRoom → WaitingRoom) : Bench := { b with room := (f b.room).settle }

/-- The instant at which delayed work is due, if that is not after `limit`. -/
def nextDue? (b : Bench) (limit : Nat) : Option (Nat × Nat) := do
  let i ← b.room.backlog.firstDue? limit
  let d ← b.room.backlog.delayed[i]?
  return (i, d.due)

/-- Goes on to the instant at which some delayed work is due, and adds it. -/
def fire (b : Bench) (i due : Nat) : Bench :=
  { b with now := max b.now due }.act (·.change (·.fire i))

/-- Lets time pass up to an instant. Each round adds one of the `rounds` delayed pieces of work. -/
def passTime (limit : Nat) : (rounds : Nat) → Bench → Bench
  | 0, b => { b with now := limit }
  | rounds + 1, b =>
    match b.nextDue? limit with
    | none => { b with now := limit }
    | some (i, due) => passTime limit rounds (b.fire i due)

/-- What a caller has been given, if it has its answer. -/
def answer? (b : Bench) (caller : Nat) : Option (Option WorkItem) :=
  match b.room.callers[caller]? with
  | some (.answered item) => some item
  | _ => none

/-- Waits until a caller has its answer or the limit has come. -/
def await (caller limit : Nat) : (rounds : Nat) → Bench → Bench
  | 0, b => b
  | rounds + 1, b =>
    if (b.answer? caller).isSome then b
    else
      match b.nextDue? limit with
      | none => { b with now := limit }
      | some (i, due) => await caller limit rounds (b.fire i due)

/-- Sends a caller in that waits up to a limit, or not at all. -/
def call (b : Bench) (limit? : Option Duration) : Bench × BacklogReply :=
  let caller := b.room.callers.length
  let b := b.act (·.enter)
  let b :=
    match limit? with
    | none => b
    | some limit =>
      await caller (Clock.dueAt b.now limit) (b.room.backlog.delayed.length + 1) b
  match b.answer? caller with
  | some item => (b, .item item)
  | none => (b.act (·.giveUp caller), if limit?.isSome then .timeout else .pending)

/-- Takes a step. -/
def step (b : Bench) (s : BacklogStep) : Bench × BacklogReply :=
  match s with
  | .take => b.call none
  | .takeWithin limit => b.call (some limit)
  | .advance time => (passTime (b.now + time.nanos) b.room.backlog.delayed.length b, .nothing)
  | .close => (b.act (·.close), .nothing)
  | s => (b.act (·.change fun backlog => s.change b.now backlog), s.look b.room.backlog)

/-- Sends callers in that wait until they are given something. -/
def sendWaiters (b : Bench) (n : Nat) : Bench :=
  let first := b.room.callers.length
  { b.act (fun room => (List.range n).foldl (fun room _ => room.enter) room) with
    waiters := b.waiters ++ List.range' first n }

/-- What became of the waiters: the items of those who got one, by name, how many got none, and how
many still wait. -/
structure Collection where
  items : List WorkItem
  ended : Nat
  waiting : Nat

/-- Looks after the waiters and forgets those who have their answer. -/
def collect (b : Bench) : Bench × Collection :=
  let answers := b.waiters.filterMap b.answer?
  let waiting := b.waiters.filter fun caller => (b.answer? caller).isNone
  ({ b with waiters := waiting },
    { items := (answers.filterMap id).mergeSort fun x y => (compare x.name y.name).isLE
      ended := answers.countP Option.isNone
      waiting := waiting.length })

/-- Leaves a failed item to the retry policy. -/
def fail (b : Bench) (item : WorkItem) (e : DeliveryError) (maxRetries : Nat) : Bench × Verdict :=
  let verdict := RetryPolicy.verdict b.room.backlog item e maxRetries
  (b.act (·.change (RetryPolicy.carryOut verdict b.now item)), verdict)

end Bench

end ClusterSync.Rehearsal

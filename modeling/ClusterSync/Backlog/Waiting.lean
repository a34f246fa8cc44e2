import ClusterSync.Backlog.Basic

/-!
# Waiting for work

Callers that want work, and how they are woken. A caller first registers with the bell, or uses up
a ring that is left over; then it looks into the backlog; and only if there is nothing and the
backlog is open does it sleep until the bell rings for it. A caller that has its answer leaves the
bell, which may pass a ring on. Whoever adds work changes the backlog first and rings afterwards.
Everything here is a step of its own, so that others may act in between, and the rings that are
owed may come in any order. `WaitingRoom.settle` takes steps until nobody has one left.
-/

namespace ClusterSync

/-- What a caller has heard of the bell since it arrived. -/
inductive Heard
  /-- It is registered and has heard nothing. -/
  | nothing
  /-- The bell has rung for it alone. -/
  | alone
  /-- The bell has rung for all who were registered. -/
  | withAll
  /-- It has used up a ring that was left over instead of registering. -/
  | leftOver
  deriving DecidableEq, Repr

/-- Where a caller is on its way to a piece of work. -/
inductive Caller
  /-- It is about to register. -/
  | arriving
  /-- It is about to look into the backlog. -/
  | looking (heard : Heard)
  /-- It has looked, has its answer and is about to leave the bell. -/
  | leaving (heard : Heard) (item : Option WorkItem)
  /-- It has found nothing and sleeps until the bell rings for it. -/
  | asleep
  /-- The bell has rung and it is about to start over. -/
  | woken (heard : Heard)
  /-- It has its answer: a piece of work, or none because the backlog is closed and empty. -/
  | answered (item : Option WorkItem)
  deriving DecidableEq, Repr

/-- How far a caller is from rest. -/
def Caller.unrest : Caller → Nat
  | .looking .alone => 6
  | .looking .nothing => 2
  | .looking _ | .leaving .alone _ => 5
  | .woken _ => 4
  | .arriving => 3
  | .leaving .. => 1
  | .asleep | .answered _ => 0

/-- A ring of the bell: for the caller who has been registered longest, or for all. -/
inductive Ring
  | one | all
  deriving DecidableEq, Repr

/-- A backlog with a bell. Callers are known by their place in the list. -/
structure WaitingRoom where
  backlog : Backlog
  /-- A ring for one that found nobody registered. -/
  leftOver : Bool
  /-- The registered callers for whom the bell has not rung, oldest first. -/
  registered : List Nat
  callers : List Caller
  /-- Rings still to come for changes that have been made. -/
  owed : List Ring

namespace WaitingRoom

/-- Nobody waits. -/
def initial (backlog : Backlog) : WaitingRoom := ⟨backlog, false, [], [], []⟩

/-! ## The bell -/

/-- A caller that hears the bell. -/
def hear (heard : Heard) : Caller → Caller
  | .looking _ => .looking heard
  | .leaving _ item => .leaving heard item
  | .asleep => .woken heard
  | c => c

/-- Rings for one: the oldest registered caller hears it, or the ring is left over. -/
def ringOne (r : WaitingRoom) : WaitingRoom :=
  match r.registered with
  | [] => { r with leftOver := true }
  | i :: rest => { r with registered := rest, callers := r.callers.modify i (hear .alone) }

/-- Rings for all: every registered caller hears it. -/
def ringAll (r : WaitingRoom) : WaitingRoom :=
  { r with
    registered := []
    callers := r.registered.foldl (fun cs i => cs.modify i (hear .withAll)) r.callers }

/-- Rings one of the rings that are owed. -/
def ring (r : WaitingRoom) (which : Ring) : WaitingRoom :=
  let rest := { r with owed := r.owed.erase which }
  if which ∈ r.owed then
    match which with
    | .one => rest.ringOne
    | .all => rest.ringAll
  else r

/-! ## Those who change the backlog -/

/-- A change of the backlog, which owes a ring for one if a name became ready. -/
def change (r : WaitingRoom) (f : Backlog → Backlog) : WaitingRoom :=
  let after := f r.backlog
  let owed := if r.backlog.ready.length < after.ready.length then r.owed ++ [.one] else r.owed
  { r with backlog := after, owed }

/-- Closes the backlog, which owes a ring for all. -/
def close (r : WaitingRoom) : WaitingRoom :=
  { r with backlog := r.backlog.close, owed := r.owed ++ [.all] }

/-! ## The callers -/

/-- A new caller. -/
def enter (r : WaitingRoom) : WaitingRoom := { r with callers := r.callers ++ [.arriving] }

/-- A caller registers, or uses up the ring that is left over. -/
def register (r : WaitingRoom) (i : Nat) : WaitingRoom :=
  if r.leftOver then { r with leftOver := false, callers := r.callers.set i (.looking .leftOver) }
  else { r with registered := r.registered ++ [i], callers := r.callers.set i (.looking .nothing) }

/-- A caller leaves the bell with its answer. A ring that was for it alone and that it has not
waited for goes to the next. -/
def leave (r : WaitingRoom) (i : Nat) (heard : Heard) (item : Option WorkItem) : WaitingRoom :=
  let r := { r with
    registered := r.registered.erase i
    callers := r.callers.set i (.answered item) }
  if heard = .alone then r.ringOne else r

/-- A caller looks into the backlog. -/
def look (r : WaitingRoom) (i : Nat) (heard : Heard) : WaitingRoom :=
  match r.backlog.take? with
  | some (item, backlog) =>
    { r with backlog, callers := r.callers.set i (.leaving heard (some item)) }
  | none =>
    if r.backlog.closed then { r with callers := r.callers.set i (.leaving heard none) }
    else { r with callers := r.callers.set i (if heard = .nothing then .asleep else .woken heard) }

/-- The step that a caller takes on its own, if it has one. -/
def callerStep? (r : WaitingRoom) (i : Nat) : Option WaitingRoom :=
  match r.callers[i]? with
  | some .arriving => some (r.register i)
  | some (.looking heard) => some (r.look i heard)
  | some (.leaving heard item) => some (r.leave i heard item)
  | some (.woken _) => some { r with callers := r.callers.set i .arriving }
  | some .asleep | some (.answered _) | none => none

/-- A caller that sleeps, or that has been woken from sleep, gives up; a ring it has been woken by
alone goes to the next. -/
def giveUp (r : WaitingRoom) (i : Nat) : WaitingRoom :=
  match r.callers[i]? with
  | some .asleep => r.leave i .nothing none
  | some (.woken heard) => r.leave i heard none
  | _ => r

/-! ## Running until nobody has a step left -/

/-- The next step of all: the first ring that is owed, or the first caller that has one. -/
def step? (r : WaitingRoom) : Option WaitingRoom :=
  match r.owed with
  | which :: _ => some (r.ring which)
  | [] => (List.range r.callers.length).findSome? r.callerStep?

/-- How far the room is from rest. -/
def unrest (r : WaitingRoom) : Nat :=
  r.callers.foldr (fun c n => c.unrest + n) 0 + (if r.leftOver then 4 else 0)
    + r.owed.length * (5 * r.callers.length + 5)

/-- Takes steps until nobody has one left. -/
def settle (r : WaitingRoom) : WaitingRoom :=
  match r.step? with
  | none => r
  | some next => if next.unrest < r.unrest then settle next else next
termination_by r.unrest

end WaitingRoom

end ClusterSync

import ClusterSync.Backlog.Backoff
import ClusterSync.Backlog.Clock
import Std.Data.ExtTreeSet

/-!
# The backlog

Work waiting to be done, one piece for each name. A name waits at most once: adding it again only
replaces the change, so the latest one counts. A name that a worker holds is not handed out again
before it is released; what is added meanwhile waits for the release. Once the backlog is closed
nothing more is taken in, and what it holds is still handed out.
-/

namespace ClusterSync

/-- A piece of work to be added at some instant. -/
structure Delayed where
  due : Nat
  item : WorkItem
  deriving DecidableEq, Repr

structure Backlog where
  /-- The names to be handed out, in their order. -/
  ready : List ObjectName
  /-- The change that waits for each name. -/
  pending : Std.ExtTreeMap ObjectName Change
  /-- The names that workers hold. -/
  held : Std.ExtTreeSet ObjectName
  backoff : Backoff
  closed : Bool
  /-- Work that is not to be added yet, in the order in which its delay began. -/
  delayed : List Delayed

namespace Backlog

/-- An empty backlog. -/
def initial (backoff : Backoff) : Backlog := ⟨[], ∅, ∅, backoff, false, []⟩

/-- The number of names to be handed out. -/
def size (b : Backlog) : Nat := b.ready.length

/-- Adds a piece of work. -/
def add (b : Backlog) (item : WorkItem) : Backlog :=
  if b.closed then b
  else if item.name ∈ b.pending then { b with pending := b.pending.insert item.name item.change }
  else
    let b := { b with pending := b.pending.insert item.name item.change }
    if item.name ∈ b.held then b else { b with ready := b.ready ++ [item.name] }

/-- Hands out the first name with the change that waits for it. -/
def take? (b : Backlog) : Option (WorkItem × Backlog) :=
  match b.ready with
  | [] => none
  | name :: rest =>
    some (⟨name, b.pending.getD name .update⟩,
      { b with ready := rest, pending := b.pending.erase name, held := b.held.insert name })

/-- Takes a name back from its worker. If a change waits for it, it is to be handed out again. -/
def release (b : Backlog) (name : ObjectName) : Backlog :=
  let b := { b with held := b.held.erase name }
  if name ∈ b.pending then { b with ready := b.ready ++ [name] } else b

/-- Adds a piece of work once a delay is over. -/
def addAfter (b : Backlog) (now : Nat) (delay : Duration) (item : WorkItem) : Backlog :=
  if delay.nanos = 0 then b.add item
  else { b with delayed := b.delayed ++ [⟨Clock.dueAt now delay, item⟩] }

/-- Adds a piece of work again after the delay that its name has come to. -/
def addLater (b : Backlog) (now : Nat) (item : WorkItem) : Backlog :=
  if b.closed then b
  else
    let (delay, backoff) := b.backoff.next item.name
    { b with backoff }.addAfter now delay item

/-- Adds the piece of work at a place of the delayed ones. -/
def fire (b : Backlog) (i : Nat) : Backlog :=
  match b.delayed[i]? with
  | none => b
  | some d => { b with delayed := b.delayed.eraseIdx i }.add d.item

/-- Starts the delays of a name over. -/
def forget (b : Backlog) (name : ObjectName) : Backlog :=
  { b with backoff := b.backoff.forget name }

/-- How often a name has been put off since it was last forgotten. -/
def putOffs (b : Backlog) (name : ObjectName) : Nat := b.backoff.count name

/-- Takes nothing in from now on. -/
def close (b : Backlog) : Backlog := { b with closed := true }

/-- The place of the delayed work that is due first, at `now` or before. -/
def firstDue? (b : Backlog) (now : Nat) : Option Nat :=
  let earliest := b.delayed.foldl (fun least d => min least d.due) (now + 1)
  if earliest ≤ now then b.delayed.findIdx? (·.due = earliest) else none

/-- The instant at which delayed work is due next. -/
def nextDue? (b : Backlog) : Option Nat := (b.delayed.map (·.due)).min?

end Backlog

end ClusterSync

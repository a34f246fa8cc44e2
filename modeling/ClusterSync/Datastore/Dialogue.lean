import ClusterSync.Datastore.Transaction
import ClusterSync.Telemetry.Event

/-!
# Dialogues with the datastore

A procedure that talks to the datastore one call at a time. Between two calls anything may happen
to the datastore, so a dialogue says nothing about how its calls are interleaved with those of
others: `Dialogue.run` plays it without interruption, and a scheduler may take single steps of
several dialogues instead.
-/

namespace ClusterSync

/-- What a procedure does next: stop with a result, make a call and go on with the reply, or
report something and go on. -/
inductive Dialogue (α : Type)
  | done (result : α)
  | commit (x : Transaction) (next : Except StoreError Outcome → Dialogue α)
  | read (path : String) (next : Except StoreError (Option Stored) → Dialogue α)
  | log (event : LogEvent) (next : Dialogue α)
  | count (sample : Sample) (next : Dialogue α)

namespace Dialogue

variable {α β : Type}

/-- One dialogue after another. -/
def bind (p : Dialogue α) (f : α → Dialogue β) : Dialogue β :=
  match p with
  | .done a => f a
  | .commit x next => .commit x fun reply => (next reply).bind f
  | .read path next => .read path fun reply => (next reply).bind f
  | .log event next => .log event (next.bind f)
  | .count sample next => .count sample (next.bind f)

instance : Monad Dialogue where
  pure := .done
  bind := bind

variable {σ : Type}

/-- Takes one step of a dialogue; one that is over stays as it is. -/
def step (backend : Backend σ) (p : Dialogue α) (journal : Journal) (store : σ) :
    Dialogue α × Journal × σ :=
  match p with
  | .done a => (.done a, journal, store)
  | .commit x next => let (reply, store) := backend.commit x store; (next reply, journal, store)
  | .read path next => let (reply, store) := backend.read path store; (next reply, journal, store)
  | .log event next => (next, journal.record event, store)
  | .count sample next => (next, journal.count sample, store)

/-- Plays a dialogue to its end without interruption. -/
def run (backend : Backend σ) (p : Dialogue α) (store : σ) (journal : Journal) :
    α × σ × Journal :=
  match p with
  | .done a => (a, store, journal)
  | .commit x next =>
    let (reply, store) := backend.commit x store
    (next reply).run backend store journal
  | .read path next =>
    let (reply, store) := backend.read path store
    (next reply).run backend store journal
  | .log event next => next.run backend store (journal.record event)
  | .count sample next => next.run backend store (journal.count sample)

end Dialogue

end ClusterSync

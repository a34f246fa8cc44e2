import ClusterSync.Delivery.Handler
import ClusterSync.Delivery.RetryPolicy
import ClusterSync.Watch.Listing

/-!
# Pipelines and their workers

One kind's way from news to the datastore: the cache, the backlog that events fill, and workers
that empty it. `Pipeline.advance?` takes one step of one worker. Handing an item out, looking its
object up, each call to the datastore, drawing the conclusion and releasing the item are steps of
their own, so that workers, events and delays may interleave in any way.

What `receive?` and `conclude` do at one go is taken apart once more: `takenIn` ends before the
items are added, and `mend` does one thing at a time about a failure.
-/

namespace ClusterSync

/-- What a worker is doing. -/
inductive Worker
  /-- It waits for an item. -/
  | idle
  /-- It has an item and is about to look the object up. -/
  | holding (item : WorkItem)
  /-- It is talking to the datastore about an item. -/
  | talking (item : WorkItem) (rest : Dialogue (Except DeliveryError Unit))
  /-- It is done with an item and about to release it. -/
  | releasing (item : WorkItem)
  /-- It has left because the backlog is closed and empty. -/
  | finished
  /-- It has broken down; its item stays held. -/
  | broken

namespace Worker

/-- The item that a worker has. -/
def item? : Worker → Option WorkItem
  | .holding item | .talking item _ | .releasing item => some item
  | .idle | .finished | .broken => none

/-- Whether a worker will do nothing any more. -/
def isGone : Worker → Bool
  | .finished | .broken => true
  | _ => false

/-- Whether a worker's next step is a transaction. -/
def isCommitting : Worker → Bool
  | .talking _ (.commit ..) => true
  | _ => false

end Worker

/-- How far a worker has come with what follows from a failure. Others may come between its
steps. -/
inductive RetryStage
  /-- It has not judged the failure. -/
  | unjudged
  /-- The item is to go back, which is not counted yet. -/
  | counting
  /-- The item is to be added after a delay. -/
  | returning (delay : Duration)
  /-- The item is given up, and earlier failures are not forgotten yet. -/
  | forgetting
  deriving DecidableEq

structure Pipeline where
  kind : Kind
  maxRetries : Nat
  cache : Cache
  listing : Listing
  backlog : Backlog
  workers : List Worker
  journal : Journal

namespace Pipeline

/-- An empty pipeline without workers. -/
def initial (kind : Kind) (backoff : Backoff) (maxRetries : Nat) : Pipeline :=
  ⟨kind, maxRetries, .initial, .initial, .initial backoff, [], {}⟩

/-! ## News -/

/-- Counts an item that follows from an event and adds it to the backlog. -/
def enqueue (p : Pipeline) (item : WorkItem) : Pipeline :=
  { p with
    backlog := p.backlog.add item
    journal := p.journal.count (.eventsEnqueued p.kind.label item.change.label) }

/-- The pipeline once an event has led to a cache, and the items that follow from the event. -/
def takenIn (p : Pipeline) (event : WatchEvent) (cache : Cache) : Pipeline × List WorkItem :=
  let (listing, items) := p.listing.observe event p.cache
  ({ p with listing, cache }, items)

/-- Takes an event in: first the cache, then the backlog. Gives the number of items that follow
from it; none if the event's object cannot be cached. -/
def receive? (p : Pipeline) (event : WatchEvent) : Option (Pipeline × Nat) :=
  (p.cache.accept? event).map fun cache =>
    let (p, items) := p.takenIn event cache
    (items.foldl enqueue p, items.length)

/-! ## Deliveries -/

/-- What is to be done about an item, given the cache. An object that is not cached any more needs
nothing. -/
def delivery (kind : Kind) (cache : Cache) (item : WorkItem) :
    Dialogue (Except DeliveryError Unit) :=
  match item.change with
  | .delete => Handler.delete kind item.name
  | .add =>
    match cache.get? item.name with
    | some o => Handler.create o
    | none => .done (.ok ())
  | .update =>
    match cache.get? item.name with
    | some o => Handler.update o
    | none => .done (.ok ())

/-- The verdict on an item whose delivery has just failed. -/
def verdict (p : Pipeline) (item : WorkItem) (e : DeliveryError) : Verdict :=
  RetryPolicy.verdict p.backlog item e p.maxRetries

/-- Counts a failed delivery and reports the verdict on it. -/
def judge (p : Pipeline) (item : WorkItem) (e : DeliveryError) : Pipeline :=
  let kind := p.kind.label
  { p with
    journal := RetryPolicy.report (p.verdict item e) kind
      ((p.journal.count (.syncDurations kind)).count (.syncErrors kind e.label)) }

/-- Draws the conclusion from a delivery: a success makes the backlog forget earlier failures, a
failure is left to the retry policy. -/
def conclude (p : Pipeline) (now : Nat) (item : WorkItem) (result : Except DeliveryError Unit) :
    Pipeline :=
  match result with
  | .ok () =>
    let kind := p.kind.label
    { p with
      backlog := p.backlog.forget item.name
      journal := (p.journal.count (.syncDurations kind)).count (.syncs kind) }
  | .error e =>
    { p.judge item e with
      backlog := RetryPolicy.carryOut (p.verdict item e) now item p.backlog }

/-! ## Failures step by step -/

/-- The next thing that a worker does about a failure, and how far it has come then; none once it is
done with the item. -/
def mend (p : Pipeline) (now : Nat) (item : WorkItem) (e : DeliveryError) :
    RetryStage → Pipeline × Option RetryStage
  | .unjudged =>
    (p.judge item e, some (if p.verdict item e = .requeue then .counting else .forgetting))
  | .counting =>
    if p.backlog.closed then (p, none)
    else
      let (delay, backoff) := p.backlog.backoff.next item.name
      ({ p with backlog := { p.backlog with backoff } }, some (.returning delay))
  | .returning delay => ({ p with backlog := p.backlog.addAfter now delay item }, none)
  | .forgetting => ({ p with backlog := p.backlog.forget item.name }, none)

variable {σ : Type}

/-- The pipeline with another state of one worker. -/
def setWorker (p : Pipeline) (i : Nat) (w : Worker) : Pipeline :=
  { p with workers := p.workers.set i w }

/-- The next step of a worker; none if it has to wait or is gone. -/
def advance? (backend : Backend σ) (now : Nat) (i : Nat) (p : Pipeline) (store : σ) :
    Option (Pipeline × σ) :=
  match p.workers[i]? with
  | none | some .finished | some .broken => none
  | some .idle =>
    match p.backlog.take? with
    | some (item, backlog) => some ({ p with backlog }.setWorker i (.holding item), store)
    | none => if p.backlog.closed then some (p.setWorker i .finished, store) else none
  | some (.holding item) =>
    some (p.setWorker i (.talking item (delivery p.kind p.cache item)), store)
  | some (.talking item (.done result)) =>
    some ((p.conclude now item result).setWorker i (.releasing item), store)
  | some (.talking item rest) =>
    let (rest, journal, store) := rest.step backend p.journal store
    some ({ p with journal }.setWorker i (.talking item rest), store)
  | some (.releasing item) =>
    some ({ p with backlog := p.backlog.release item.name }.setWorker i .idle, store)

/-- Takes the next item and works on it to the end without interruption; none if it would have to
wait for one. Also says whether there was one: there is none once the backlog is closed and
empty. -/
def process? (backend : Backend σ) (now : Nat) (p : Pipeline) (store : σ) :
    Option (Bool × Pipeline × σ) :=
  match p.backlog.take? with
  | none => if p.backlog.closed then some (false, p, store) else none
  | some (item, backlog) =>
    let (result, store, journal) := (delivery p.kind p.cache item).run backend store p.journal
    let p := { p with backlog, journal }.conclude now item result
    some (true, { p with backlog := p.backlog.release item.name }, store)

/-! ## All steps -/

/-- What can happen to a pipeline. -/
inductive Step
  | observe (event : WatchEvent)
  | advance (worker : Nat)
  | fire (delayed : Nat)
  | close

/-- Takes a step; none if it cannot be taken now. -/
def step? (backend : Backend σ) (now : Nat) (s : Step) (p : Pipeline) (store : σ) :
    Option (Pipeline × σ) :=
  match s with
  | .observe event => (p.receive? event).map fun (p, _) => (p, store)
  | .advance i => p.advance? backend now i store
  | .fire i =>
    if i < p.backlog.delayed.length then some ({ p with backlog := p.backlog.fire i }, store)
    else none
  | .close => some ({ p with backlog := p.backlog.close }, store)

end Pipeline

end ClusterSync

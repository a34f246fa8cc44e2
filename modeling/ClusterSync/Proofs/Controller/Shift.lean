import ClusterSync.Controller.Lifecycle
import ClusterSync.Proofs.Controller.Scene

/-!
# Controllers on duty

A shift is a controller from its start to its end, with its datastore, its watch and anybody else
who adds items. Its moves are as small as what others can come between. In particular a worker
whose delivery has failed goes on by `Pipeline.mend`: it first judges the failure, by the count that
it finds; then it counts the failure, or forgets the earlier ones; then it adds the item or leaves
that to a timer.

The record of a shift tells, the latest first, what was added and whether that was a retry, what
was handed out and how the delivery ended, what was counted, forgotten and released, and when the
backlog was closed.

**Theorem (`mend_eq_conclude`).** A worker that is not interrupted while it deals with a failure
draws the conclusion that the pipeline draws at one go.

**Theorem (`Reaches.inOrder`).** Whatever happens, workers hold different names, the backlog knows
them as held, and only workers whose delivery has failed deal with failures.
-/

namespace ClusterSync

variable {σ : Type}

/-- The responses of a controller, one for each thing that it does. -/
inductive Controller.Responds (c : Controller) : Controller → Prop
  | starts (hs : c.state = .syncing) (hc : c.pipeline.cache.synced = true) :
      Responds c c.startWorkers
  | fails (e : ControllerError) (hs : c.state = .syncing) : Responds c (c.fail e)
  | drains (hs : c.state = .running) (hr : c.stopRequested = true) : Responds c c.drain
  | reports (hs : c.state = .draining) : Responds c c.reportBroken
  | stops (hs : c.state = .draining) (hg : c.pipeline.workers.all Worker.isGone = true) :
      Responds c c.stop

theorem Controller.responds_of_respond? {c c' : Controller} {now : Nat} {stimulus : Stimulus}
    (h : c.respond? now stimulus = some c') : c.Responds c' := by
  unfold respond? at h
  dsimp only at h
  split at h
  · rename_i hs
    split at h
    · rename_i hc
      cases h
      exact .starts hs hc
    · split at h
      · cases h
      · cases h
        exact .fails _ hs
  · rename_i hs
    split at h
    · cases h
      exact .fails _ hs
    · cases h
  · rename_i hs
    split at h
    · cases h
      exact .fails _ hs
    · cases h
  · rename_i hs
    split at h
    · rename_i hr
      cases h
      exact .drains hs hr
    · cases h
  · rename_i hs
    split at h
    · cases h
      exact .reports hs
    · split at h
      · rename_i hg
        cases h
        exact .stops hs hg
      · cases h
  · cases h

/-- What a record tells. -/
inductive Incident
  /-- An item was offered to the backlog, `again` after its delivery had failed. -/
  | added (item : WorkItem) (again : Bool)
  | closed
  | handedOut (item : WorkItem)
  | succeeded (item : WorkItem)
  | failed (item : WorkItem) (e : DeliveryError) (verdict : Verdict)
  | putOff (item : WorkItem)
  | forgot (item : WorkItem)
  | released (item : WorkItem)

/-- What has happened so far, the latest first. -/
abbrev Record := List Incident

/-- A controller on duty. -/
structure Shift (σ : Type) where
  controller : Controller
  store : σ
  now : Nat
  /-- The items that follow from the last event and are still to be added. -/
  owed : List WorkItem
  /-- How far each worker has come with a failure. -/
  stages : Nat → RetryStage

namespace Shift

/-- A controller that has not been started. -/
def initial (kind : Kind) (base max : Duration) (settings : ControllerSettings) (store : σ) :
    Shift σ :=
  ⟨.initial kind (.initial base max) settings, store, 0, [], fun _ => .unjudged⟩

variable (s : Shift σ)

def pipeline : Pipeline := s.controller.pipeline

def backlog : Backlog := s.pipeline.backlog

def setPipeline (pipeline : Pipeline) : Shift σ :=
  { s with controller := { s.controller with pipeline } }

def setBacklog (backlog : Backlog) : Shift σ := s.setPipeline { s.pipeline with backlog }

def setStage (i : Nat) (stage : RetryStage) : Shift σ :=
  { s with stages := fun j => if j = i then stage else s.stages j }

section Fields

variable (p : Pipeline) (b : Backlog) (i j : Nat) (stage : RetryStage)

@[simp] theorem pipeline_setPipeline : (s.setPipeline p).pipeline = p := rfl

@[simp] theorem stages_setPipeline : (s.setPipeline p).stages = s.stages := rfl

@[simp] theorem pipeline_setBacklog :
    (s.setBacklog b).pipeline = { s.pipeline with backlog := b } := rfl

@[simp] theorem stages_setBacklog : (s.setBacklog b).stages = s.stages := rfl

@[simp] theorem pipeline_setStage : (s.setStage i stage).pipeline = s.pipeline := rfl

@[simp] theorem stages_setStage :
    (s.setStage i stage).stages j = if j = i then stage else s.stages j := rfl

end Fields

/-! ## Dealing with failures -/

/-- The pipeline after a failure has been judged. -/
def judged (item : WorkItem) (e : DeliveryError) : Pipeline := s.pipeline.judge item e

/-- A worker is done with a failure. -/
def mended (i : Nat) (item : WorkItem) (backlog : Backlog) : Shift σ :=
  (s.setPipeline ({ s.pipeline with backlog }.setWorker i (.releasing item))).setStage i .unjudged

/-- What there is to tell of the next thing that a worker does about a failure. -/
def tellsOf? (item : WorkItem) (e : DeliveryError) : RetryStage → Option Incident
  | .unjudged => some (.failed item e (s.pipeline.verdict item e))
  | .counting => if s.backlog.closed then none else some (.putOff item)
  | .returning delay => if delay.nanos = 0 then some (.added item true) else none
  | .forgetting => some (.forgot item)

/-- The next thing that a worker does about a failure, and what there is to tell of it. -/
def mend (i : Nat) (item : WorkItem) (e : DeliveryError) : Option Incident × Shift σ :=
  let (pipeline, stage?) := s.pipeline.mend s.now item e (s.stages i)
  (s.tellsOf? item e (s.stages i),
    match stage? with
    | some stage => (s.setPipeline pipeline).setStage i stage
    | none => (s.setPipeline (pipeline.setWorker i (.releasing item))).setStage i .unjudged)

/-- What there is to tell of the next step of a worker that has not failed. -/
def tells? (w : Worker) : Option Incident :=
  match w with
  | .idle => s.backlog.take?.map fun (item, _) => .handedOut item
  | .talking item (.done (.ok ())) => some (.succeeded item)
  | .releasing item => some (.released item)
  | .holding _ | .talking .. | .finished | .broken => none

/-- The next step of a worker; none if it has to wait or is gone. -/
def work? (backend : Backend σ) (i : Nat) : Option (Option Incident × Shift σ) :=
  match s.pipeline.workers[i]? with
  | none => none
  | some (.talking item (.done (.error e))) => some (s.mend i item e)
  | some w => (s.pipeline.advance? backend s.now i s.store).map fun (pipeline, store) =>
    (s.tells? w, { s.setPipeline pipeline with store })

/-! ## Moves -/

/-- What may happen to a controller on duty. -/
inductive Move
  /-- The controller begins to wait for its cache. -/
  | start
  /-- The controller is told to stop. -/
  | tellToStop
  | respond (stimulus : Controller.Stimulus)
  /-- An event reaches the cache. -/
  | takeIn (event : WatchEvent)
  /-- The first of the owed items is added. -/
  | hand
  /-- Somebody else adds an item. -/
  | add (item : WorkItem)
  /-- Nobody writes the cache any more. -/
  | abandon
  | work (worker : Nat)
  /-- The delay at a place of the delayed work is over. -/
  | fire (delayed : Nat)
  | wait (time : Nat)

/-- An event has been taken in and has led to a cache. -/
def takenIn (event : WatchEvent) (cache : Cache) : Shift σ :=
  { s.setPipeline (s.pipeline.takenIn event cache).1 with
    owed := (s.pipeline.takenIn event cache).2 }

/-- Makes a move and says what there is to tell of it; none if the move cannot be made now. -/
def move? (backend : Backend σ) : Move → Option (Option Incident × Shift σ)
  | .start =>
    if s.controller.state = .initializing then
      some (none, { s with controller := s.controller.start s.now })
    else none
  | .tellToStop => some (none, { s with controller := { s.controller with stopRequested := true } })
  | .respond stimulus =>
    (s.controller.respond? s.now stimulus).map fun controller =>
      (if controller.pipeline.backlog.closed ∧ ¬ s.backlog.closed then some .closed else none,
        { s with controller })
  | .takeIn event =>
    if s.owed = [] ∧ s.pipeline.cache.writable then
      (s.pipeline.cache.accept? event).map fun cache => (none, s.takenIn event cache)
    else none
  | .hand =>
    match s.owed with
    | [] => none
    | item :: owed =>
      some (some (.added item false), { s.setPipeline (s.pipeline.enqueue item) with owed })
  | .add item => some (some (.added item false), s.setBacklog (s.backlog.add item))
  | .abandon =>
    some (none, s.setPipeline { s.pipeline with cache := s.pipeline.cache.abandon })
  | .work i => s.work? backend i
  | .fire i =>
    (s.backlog.delayed[i]?).bind fun d =>
      if d.due ≤ s.now then some (some (.added d.item true), s.setBacklog (s.backlog.fire i))
      else none
  | .wait time => some (none, { s with now := s.now + time })

variable {s : Shift σ} {s' : Shift σ} {backend : Backend σ} {i : Nat} {item : WorkItem}
  {o : Option Incident} {m : Move}

/-- The steps of a worker, one for each thing that it can do. -/
inductive Works (backend : Backend σ) (i : Nat) (s : Shift σ) :
    Option Incident → Shift σ → Prop
  | takes {item : WorkItem} {backlog : Backlog} (hw : s.pipeline.workers[i]? = some .idle)
      (ht : s.backlog.take? = some (item, backlog)) :
      Works backend i s (some (.handedOut item))
        (s.setPipeline ({ s.pipeline with backlog }.setWorker i (.holding item)))
  | leaves (hw : s.pipeline.workers[i]? = some .idle) (ht : s.backlog.take? = none)
      (hc : s.backlog.closed = true) :
      Works backend i s none (s.setPipeline (s.pipeline.setWorker i .finished))
  | looks {item : WorkItem} (hw : s.pipeline.workers[i]? = some (.holding item)) :
      Works backend i s none (s.setPipeline (s.pipeline.setWorker i
        (.talking item (Pipeline.delivery s.pipeline.kind s.pipeline.cache item))))
  | talks {item : WorkItem} {rest next : Dialogue (Except DeliveryError Unit)} {journal : Journal}
      {store : σ} (hw : s.pipeline.workers[i]? = some (.talking item rest))
      (hr : ∀ result, rest ≠ .done result)
      (hn : rest.step backend s.pipeline.journal s.store = (next, journal, store)) :
      Works backend i s none { s.setPipeline
        ({ s.pipeline with journal }.setWorker i (.talking item next)) with store }
  | succeeds {item : WorkItem}
      (hw : s.pipeline.workers[i]? = some (.talking item (.done (.ok ())))) :
      Works backend i s (some (.succeeded item)) (s.setPipeline
        ((s.pipeline.conclude s.now item (.ok ())).setWorker i (.releasing item)))
  | judges {item : WorkItem} {e : DeliveryError} {verdict : Verdict}
      (hw : s.pipeline.workers[i]? = some (.talking item (.done (.error e))))
      (hs : s.stages i = .unjudged)
      (hv : RetryPolicy.verdict s.backlog item e s.pipeline.maxRetries = verdict) :
      Works backend i s (some (.failed item e verdict))
        ((s.setPipeline (s.judged item e)).setStage i
          (if verdict = .requeue then .counting else .forgetting))
  | counts {item : WorkItem} {e : DeliveryError} {delay : Duration} {backoff : Backoff}
      (hw : s.pipeline.workers[i]? = some (.talking item (.done (.error e))))
      (hs : s.stages i = .counting) (hc : s.backlog.closed = false)
      (hn : s.backlog.backoff.next item.name = (delay, backoff)) :
      Works backend i s (some (.putOff item))
        ((s.setBacklog { s.backlog with backoff }).setStage i (.returning delay))
  | desists {item : WorkItem} {e : DeliveryError}
      (hw : s.pipeline.workers[i]? = some (.talking item (.done (.error e))))
      (hs : s.stages i = .counting) (hc : s.backlog.closed = true) :
      Works backend i s none (s.mended i item s.backlog)
  | readds {item : WorkItem} {e : DeliveryError} {delay : Duration}
      (hw : s.pipeline.workers[i]? = some (.talking item (.done (.error e))))
      (hs : s.stages i = .returning delay) (hd : delay.nanos = 0) :
      Works backend i s (some (.added item true)) (s.mended i item (s.backlog.add item))
  | delays {item : WorkItem} {e : DeliveryError} {delay : Duration}
      (hw : s.pipeline.workers[i]? = some (.talking item (.done (.error e))))
      (hs : s.stages i = .returning delay) (hd : delay.nanos ≠ 0) :
      Works backend i s none (s.mended i item { s.backlog with
        delayed := s.backlog.delayed ++ [⟨Clock.dueAt s.now delay, item⟩] })
  | forgets {item : WorkItem} {e : DeliveryError}
      (hw : s.pipeline.workers[i]? = some (.talking item (.done (.error e))))
      (hs : s.stages i = .forgetting) :
      Works backend i s (some (.forgot item)) (s.mended i item (s.backlog.forget item.name))
  | releases {item : WorkItem} (hw : s.pipeline.workers[i]? = some (.releasing item)) :
      Works backend i s (some (.released item)) (s.setPipeline
        ({ s.pipeline with backlog := s.backlog.release item.name }.setWorker i .idle))

section Mend

variable {e : DeliveryError}

theorem mend_eq {stage : RetryStage} {next : Pipeline × Option RetryStage}
    (hs : s.stages i = stage) (hn : s.pipeline.mend s.now item e stage = next) :
    s.mend i item e = (s.tellsOf? item e stage,
      match next.2 with
      | some stage => (s.setPipeline next.1).setStage i stage
      | none => (s.setPipeline (next.1.setWorker i (.releasing item))).setStage i .unjudged) := by
  subst hs hn
  rfl

theorem mend_of_closed (hs : s.stages i = .counting) (hc : s.backlog.closed = true) :
    s.mend i item e = (none, s.mended i item s.backlog) := by
  rw [mend_eq hs (if_pos hc), tellsOf?, if_pos hc]
  rfl

theorem mend_of_open (hs : s.stages i = .counting) (hc : s.backlog.closed = false) :
    s.mend i item e = (some (.putOff item),
      (s.setBacklog { s.backlog with backoff := (s.backlog.backoff.next item.name).2 }).setStage i
        (.returning (s.backlog.backoff.next item.name).1)) := by
  have hopen : ¬ s.backlog.closed = true := by simp [hc]
  rw [mend_eq hs (if_neg hopen), tellsOf?, if_neg hopen]
  rfl

theorem mend_of_returning {delay : Duration} (hs : s.stages i = .returning delay) :
    s.mend i item e = (if delay.nanos = 0 then some (.added item true) else none,
      s.mended i item (s.backlog.addAfter s.now delay item)) :=
  mend_eq hs rfl

theorem mend_of_forgetting (hs : s.stages i = .forgetting) :
    s.mend i item e = (some (.forgot item), s.mended i item (s.backlog.forget item.name)) :=
  mend_eq hs rfl

theorem works_of_mend
    (hw : s.pipeline.workers[i]? = some (.talking item (.done (.error e)))) :
    s.Works backend i (s.mend i item e).1 (s.mend i item e).2 := by
  cases hs : s.stages i with
  | unjudged =>
    rw [mend_eq hs rfl]
    exact .judges hw hs rfl
  | counting =>
    cases hc : s.backlog.closed with
    | true =>
      rw [mend_of_closed hs hc]
      exact .desists hw hs hc
    | false =>
      rw [mend_of_open hs hc]
      exact .counts hw hs hc rfl
  | returning delay =>
    rw [mend_of_returning hs]
    unfold Backlog.addAfter
    by_cases hd : delay.nanos = 0
    · rw [if_pos hd, if_pos hd]
      exact .readds hw hs hd
    · rw [if_neg hd, if_neg hd]
      exact .delays hw hs hd
  | forgetting =>
    rw [mend_of_forgetting hs]
    exact .forgets hw hs

end Mend

theorem works_of_work? (h : s.work? backend i = some (o, s')) : s.Works backend i o s' := by
  unfold work? at h
  split at h
  · cases h
  · rename_i item e hw
    have hmend : s.Works backend i _ _ := works_of_mend hw
    rwa [Option.some.inj h] at hmend
  · rename_i w hne hw
    obtain ⟨⟨p, store⟩, ha, heq⟩ := Option.map_eq_some_iff.1 h
    cases heq
    cases Pipeline.advances_of_advance? ha with
    | takes hw' ht =>
      cases hw.symm.trans hw'
      have ht' : s.backlog.take? = some _ := ht
      unfold tells?
      rw [ht']
      exact .takes hw ht
    | leaves hw' ht hc =>
      cases hw.symm.trans hw'
      have ht' : s.backlog.take? = none := ht
      unfold tells?
      rw [ht']
      exact .leaves hw ht hc
    | looks hw' =>
      cases hw.symm.trans hw'
      exact .looks hw
    | @concludes item result hw' =>
      cases hw.symm.trans hw'
      cases result with
      | ok => exact .succeeds hw
      | error e => exact absurd rfl (hne item e)
    | @talks item rest hw' hr =>
      cases hw.symm.trans hw'
      have htells : s.tells? (.talking item rest) = none := by
        cases rest with
        | done result => exact absurd rfl (hr result)
        | commit | read | log | count => rfl
      rw [htells]
      exact .talks hw hr rfl
    | releases hw' =>
      cases hw.symm.trans hw'
      exact .releases hw

/-- The moves that can be made, one constructor for each kind. -/
inductive Moves (backend : Backend σ) (s : Shift σ) : Move → Option Incident → Shift σ → Prop
  | starts (hs : s.controller.state = .initializing) :
      Moves backend s .start none { s with controller := s.controller.start s.now }
  | told :
      Moves backend s .tellToStop none
        { s with controller := { s.controller with stopRequested := true } }
  | responds {stimulus : Controller.Stimulus} {controller : Controller}
      (hr : s.controller.Responds controller) :
      Moves backend s (.respond stimulus)
        (if controller.pipeline.backlog.closed ∧ ¬ s.backlog.closed then some .closed else none)
        { s with controller }
  | takesIn {event : WatchEvent} {cache : Cache} (ho : s.owed = [])
      (hc : s.pipeline.cache.accept? event = some cache) :
      Moves backend s (.takeIn event) none (s.takenIn event cache)
  | hands {item : WorkItem} {owed : List WorkItem} (ho : s.owed = item :: owed) :
      Moves backend s .hand (some (.added item false))
        { s.setPipeline (s.pipeline.enqueue item) with owed }
  | adds (item : WorkItem) :
      Moves backend s (.add item) (some (.added item false)) (s.setBacklog (s.backlog.add item))
  | abandons :
      Moves backend s .abandon none
        (s.setPipeline { s.pipeline with cache := s.pipeline.cache.abandon })
  | works {i : Nat} {o : Option Incident} {s' : Shift σ} (hw : s.Works backend i o s') :
      Moves backend s (.work i) o s'
  | fires {i : Nat} {d : Delayed} (hd : s.backlog.delayed[i]? = some d) (hdue : d.due ≤ s.now) :
      Moves backend s (.fire i) (some (.added d.item true)) (s.setBacklog (s.backlog.fire i))
  | waits (time : Nat) : Moves backend s (.wait time) none { s with now := s.now + time }

theorem moves_of_move? (h : s.move? backend m = some (o, s')) : s.Moves backend m o s' := by
  cases m with
  | start =>
    rw [move?] at h
    split at h
    · rename_i hs
      cases h
      exact .starts hs
    · cases h
  | tellToStop =>
    cases h
    exact .told
  | respond stimulus =>
    obtain ⟨controller, hr, heq⟩ := Option.map_eq_some_iff.1 h
    cases heq
    exact .responds (Controller.responds_of_respond? hr)
  | takeIn event =>
    rw [move?] at h
    split at h
    · rename_i ho
      obtain ⟨cache, hc, heq⟩ := Option.map_eq_some_iff.1 h
      cases heq
      exact .takesIn ho.1 hc
    · cases h
  | hand =>
    rw [move?] at h
    split at h
    · cases h
    · rename_i item owed ho
      cases h
      exact .hands ho
  | add item =>
    cases h
    exact .adds item
  | abandon =>
    cases h
    exact .abandons
  | work i => exact .works (works_of_work? h)
  | fire i =>
    obtain ⟨d, hd, h⟩ := Option.bind_eq_some_iff.1 h
    split at h
    · rename_i hdue
      cases h
      exact .fires hd hdue
    · cases h
  | wait time =>
    cases h
    exact .waits time

/-! ## Runs -/

/-- The records and shifts that moves lead to. -/
inductive Reaches (backend : Backend σ) (start : Shift σ) : Record → Shift σ → Prop
  | start : Reaches backend start [] start
  | move {past : Record} {s s' : Shift σ} {m : Move} {o : Option Incident}
      (h : Reaches backend start past s) (hm : s.move? backend m = some (o, s')) :
      Reaches backend start (o.toList ++ past) s'

/-- Makes moves one after the other and goes on with a record; those that cannot be made are passed
over. -/
def play (backend : Backend σ) (past : Record) (s : Shift σ) : List Move → Record × Shift σ
  | [] => (past, s)
  | m :: moves =>
    match s.move? backend m with
    | none => play backend past s moves
    | some (o, s') => play backend (o.toList ++ past) s' moves

theorem Reaches.play {start : Shift σ} {past : Record} (h : Reaches backend start past s)
    (moves : List Move) :
    Reaches backend start (s.play backend past moves).1 (s.play backend past moves).2 := by
  induction moves generalizing s past with
  | nil => exact h
  | cons m moves ih =>
    unfold Shift.play
    cases hm : s.move? backend m with
    | none => exact ih h
    | some next => exact ih (h.move hm)

theorem play_append (past : Record) (s : Shift σ) (moves more : List Move) :
    play backend past s (moves ++ more) =
      play backend (play backend past s moves).1 (play backend past s moves).2 more := by
  induction moves generalizing past s with
  | nil => rfl
  | cons m moves ih =>
    rw [List.cons_append, play, play]
    split <;> exact ih _ _

theorem play_work {past : Record} {next : Option Incident × Shift σ} {moves : List Move}
    (h : s.work? backend i = some next) :
    play backend past s (.work i :: moves) =
      play backend (next.1.toList ++ past) next.2 moves := by
  have hm : s.move? backend (.work i) = some next := h
  rw [play, hm]

theorem work?_of_failed {e : DeliveryError}
    (hw : s.pipeline.workers[i]? = some (.talking item (.done (.error e)))) :
    s.work? backend i = some (s.mend i item e) := by
  unfold work?
  rw [hw]

/-- A worker is dealing with a failure that it has judged, and the backlog has become another. -/
def mending (s : Shift σ) (i : Nat) (item : WorkItem) (e : DeliveryError) (stage : RetryStage)
    (backlog : Backlog) : Shift σ :=
  (s.setPipeline { s.judged item e with backlog }).setStage i stage

section Mending

variable {e : DeliveryError} {b b' : Backlog} {stage : RetryStage} {delay : Duration}
  {past : Record} {moves : List Move}

theorem mend_unjudged (hs : s.stages i = .unjudged) :
    s.mend i item e =
      (some (.failed item e (RetryPolicy.verdict s.backlog item e s.pipeline.maxRetries)),
        s.mending i item e (if RetryPolicy.verdict s.backlog item e s.pipeline.maxRetries = .requeue
          then .counting else .forgetting) s.backlog) := by
  rw [mend_eq hs rfl]
  rfl

theorem mended_mending (hs : s.stages i = .unjudged) :
    (s.mending i item e stage b).mended i item b' =
      s.setPipeline ({ s.judged item e with backlog := b' }.setWorker i (.releasing item)) := by
  obtain ⟨c, store, now, owed, stages⟩ := s
  simp only [mending, mended, setStage, setPipeline, pipeline, Shift.mk.injEq, true_and]
  funext j
  by_cases hj : j = i
  · simpa [hj] using hs.symm
  · simp [hj]

theorem setStage_setBacklog_mending {next : RetryStage} :
    ((s.mending i item e stage b).setBacklog b').setStage i next =
      s.mending i item e next b' := by
  simp only [mending, setStage, setBacklog, setPipeline, pipeline, Shift.mk.injEq, true_and]
  funext j
  by_cases hj : j = i <;> simp [hj]

theorem play_mending
    (hw : s.pipeline.workers[i]? = some (.talking item (.done (.error e)))) :
    play backend past (s.mending i item e stage b) (.work i :: moves) =
      play backend (((s.mending i item e stage b).mend i item e).1.toList ++ past)
        ((s.mending i item e stage b).mend i item e).2 moves :=
  play_work (work?_of_failed hw)

theorem mend_counting_of_closed (hs : s.stages i = .unjudged) (hc : b.closed = true) :
    (s.mending i item e .counting b).mend i item e = (none,
      s.setPipeline ({ s.judged item e with backlog := b }.setWorker i (.releasing item))) := by
  have hstage : (s.mending i item e .counting b).stages i = .counting := if_pos rfl
  rw [mend_of_closed hstage hc, mended_mending hs]
  rfl

theorem mend_counting (hc : b.closed = false) :
    (s.mending i item e .counting b).mend i item e = (some (.putOff item),
      s.mending i item e (.returning (b.backoff.next item.name).1)
        { b with backoff := (b.backoff.next item.name).2 }) := by
  have hstage : (s.mending i item e .counting b).stages i = .counting := if_pos rfl
  rw [mend_of_open hstage hc, setStage_setBacklog_mending]
  rfl

theorem mend_returning (hs : s.stages i = .unjudged) :
    (s.mending i item e (.returning delay) b).mend i item e =
      (if delay.nanos = 0 then some (.added item true) else none,
        s.setPipeline ({ s.judged item e with
          backlog := b.addAfter s.now delay item }.setWorker i (.releasing item))) := by
  have hstage : (s.mending i item e (.returning delay) b).stages i = .returning delay := if_pos rfl
  rw [mend_of_returning hstage, mended_mending hs]
  rfl

theorem mend_forgetting (hs : s.stages i = .unjudged) :
    (s.mending i item e .forgetting b).mend i item e = (some (.forgot item),
      s.setPipeline ({ s.judged item e with
        backlog := b.forget item.name }.setWorker i (.releasing item))) := by
  have hstage : (s.mending i item e .forgetting b).stages i = .forgetting := if_pos rfl
  rw [mend_of_forgetting hstage, mended_mending hs]
  rfl

theorem mend_eq_conclude
    (hw : s.pipeline.workers[i]? = some (.talking item (.done (.error e))))
    (hs : s.stages i = .unjudged) :
    ∃ incidents steps, play backend past s (List.replicate steps (.work i)) =
      (incidents ++ past,
        s.setPipeline ((s.pipeline.conclude s.now item (.error e)).setWorker i
          (.releasing item))) := by
  have hconclude : ∀ b : Backlog, RetryPolicy.carryOut
        (RetryPolicy.verdict s.backlog item e s.pipeline.maxRetries) s.now item s.backlog = b →
      s.pipeline.conclude s.now item (.error e) = { s.judged item e with backlog := b } := by
    rintro b rfl
    rfl
  by_cases hv : RetryPolicy.verdict s.backlog item e s.pipeline.maxRetries = .requeue
  · by_cases hc : s.backlog.closed = true
    · refine ⟨[.failed item e .requeue], 2, ?_⟩
      rw [hconclude s.backlog (by simp [hv, RetryPolicy.carryOut, Backlog.addLater, hc])]
      simp only [List.replicate, play_work (work?_of_failed hw), mend_unjudged hs, hv, if_pos,
        play_mending hw, mend_counting_of_closed hs hc]
      rfl
    · have hopen : s.backlog.closed = false := by simpa using hc
      rw [hconclude _ (by simp only [hv, RetryPolicy.carryOut, Backlog.addLater, if_neg hc]; rfl)]
      refine ⟨(if (s.backlog.backoff.next item.name).1.nanos = 0 then some (.added item true)
        else none).toList ++ [.putOff item, .failed item e .requeue], 3, ?_⟩
      simp only [List.replicate, play_work (work?_of_failed hw), mend_unjudged hs, hv, if_pos,
        play_mending hw, mend_counting hopen, mend_returning hs]
      simp only [play, Option.toList_some, List.append_assoc, List.cons_append, List.nil_append]
  · have hforget : RetryPolicy.carryOut (RetryPolicy.verdict s.backlog item e
        s.pipeline.maxRetries) s.now item s.backlog = s.backlog.forget item.name := by
      unfold RetryPolicy.carryOut
      split
      · rename_i hreq
        exact absurd hreq hv
      · rfl
      · rfl
    rw [hconclude _ hforget]
    refine ⟨[.forgot item, .failed item e (RetryPolicy.verdict s.backlog item e
      s.pipeline.maxRetries)], 2, ?_⟩
    simp only [List.replicate, play_work (work?_of_failed hw), mend_unjudged hs, if_neg hv,
      play_mending hw, mend_forgetting hs]
    rfl

end Mending

/-! ## What workers leave alone -/

/-- A step of a worker that was not gone changes its state and nothing about the controller. -/
structure Keeps (s s' : Shift σ) (i : Nat) : Prop where
  worker : ∃ w w', s.pipeline.workers[i]? = some w ∧ w.isGone = false ∧
    s'.pipeline.workers = s.pipeline.workers.set i w'
  states : s'.controller.states = s.controller.states
  result : s'.controller.result = s.controller.result
  closed : s'.backlog.closed = s.backlog.closed
  maxRetries : s'.pipeline.maxRetries = s.pipeline.maxRetries
  others : ∀ j, i ≠ j → s'.stages j = s.stages j

theorem keeps_mended {e : DeliveryError} {b : Backlog}
    (hw : s.pipeline.workers[i]? = some (.talking item (.done (.error e))))
    (hc : b.closed = s.backlog.closed) : s.Keeps (s.mended i item b) i :=
  ⟨⟨_, _, hw, rfl, rfl⟩, rfl, rfl, hc, rfl, fun _ hj => if_neg (Ne.symm hj)⟩

theorem Works.keeps (h : s.Works backend i o s') : s.Keeps s' i := by
  have hself : ∀ {w : Worker}, s.pipeline.workers[i]? = some w →
      s.pipeline.workers = s.pipeline.workers.set i w := fun hw => by
    obtain ⟨hi, rfl⟩ := List.getElem?_eq_some_iff.1 hw
    exact (List.set_getElem_self hi).symm
  cases h with
  | takes hw ht =>
    have hclosed : _ = s.backlog.closed := (Backlog.take?_keeps ht).1
    exact ⟨⟨_, _, hw, rfl, rfl⟩, rfl, rfl, hclosed, rfl, fun _ _ => rfl⟩
  | leaves hw | looks hw | talks hw =>
    exact ⟨⟨_, _, hw, rfl, rfl⟩, rfl, rfl, rfl, rfl, fun _ _ => rfl⟩
  | succeeds hw => exact ⟨⟨_, _, hw, rfl, rfl⟩, rfl, rfl, rfl, rfl, fun _ _ => rfl⟩
  | judges hw | counts hw =>
    exact ⟨⟨_, _, hw, rfl, hself hw⟩, rfl, rfl, rfl, rfl, fun _ hj => if_neg (Ne.symm hj)⟩
  | desists hw => exact keeps_mended hw rfl
  | readds hw => exact keeps_mended hw Backlog.closed_add
  | delays hw => exact keeps_mended hw rfl
  | forgets hw => exact keeps_mended hw rfl
  | releases hw =>
    exact ⟨⟨_, _, hw, rfl, rfl⟩, rfl, rfl, Backlog.closed_release, rfl, fun _ _ => rfl⟩

theorem Works.kind (h : s.Works backend i o s') : s'.pipeline.kind = s.pipeline.kind := by
  cases h <;> rfl

theorem Moves.kind (h : s.Moves backend m o s') : s'.pipeline.kind = s.pipeline.kind := by
  cases h with
  | works h => exact h.kind
  | responds h => cases h <;> rfl
  | starts | told | takesIn | hands | adds | abandons | fires | waits => rfl

/-! ## The course of a controller -/

/-- What the state of a controller says about its workers and its backlog. -/
def OnCourse (s : Shift σ) : Prop :=
  match s.controller.state with
  | .initializing | .syncing =>
    s.pipeline.workers = [] ∧ s.backlog.closed = false ∧ s.controller.result = none
  | .running =>
    s.pipeline.workers ≠ [] ∧ s.backlog.closed = false ∧ s.controller.result = none
  | .draining =>
    s.pipeline.workers ≠ [] ∧ s.backlog.closed = true ∧ s.controller.result = none
  | .stopped =>
    s.pipeline.workers ≠ [] ∧ s.backlog.closed = true ∧ s.controller.result = some (.ok ()) ∧
      s.pipeline.workers.all Worker.isGone = true
  | .failed =>
    s.pipeline.workers = [] ∧ s.backlog.closed = true ∧
      ∃ e, s.controller.result = some (.error e)

/-- Other things do not count. -/
theorem OnCourse.congr (h : s.OnCourse) (hs : s'.controller.states = s.controller.states)
    (hw : s'.pipeline.workers = s.pipeline.workers) (hc : s'.backlog.closed = s.backlog.closed)
    (hr : s'.controller.result = s.controller.result) : s'.OnCourse := by
  have hstate : s'.controller.state = s.controller.state := by
    unfold Controller.state
    rw [hs]
  unfold OnCourse at h ⊢
  rwa [hstate, hw, hc, hr]

theorem OnCourse.works (h : s.OnCourse) (hw : s.Works backend i o s') : s'.OnCourse := by
  obtain ⟨⟨w, w', hi, hgone, hset⟩, hstates, hresult, hclosed, -, -⟩ := hw.keeps
  have hmem : w ∈ s.pipeline.workers := List.mem_of_getElem? hi
  have hne : s.pipeline.workers ≠ [] := List.ne_nil_of_mem hmem
  have hne' : s'.pipeline.workers ≠ [] := by
    rw [hset]
    simpa using hne
  have hstate : s'.controller.state = s.controller.state := by
    unfold Controller.state
    rw [hstates]
  unfold OnCourse at h ⊢
  rw [hstate, hclosed, hresult]
  cases hs : s.controller.state with
  | initializing | syncing | failed =>
    rw [hs] at h
    exact absurd h.1 hne
  | running | draining =>
    rw [hs] at h
    exact ⟨hne', h.2⟩
  | stopped =>
    rw [hs] at h
    have hall := List.all_eq_true.1 h.2.2.2 w hmem
    rw [hgone] at hall
    cases hall

theorem OnCourse.moves (h : s.OnCourse) (hm : s.Moves backend m o s') : s'.OnCourse := by
  cases hm with
  | starts hs =>
    unfold OnCourse at h
    rw [hs] at h
    exact h
  | told | takesIn | abandons | waits => exact h.congr rfl rfl rfl rfl
  | hands | adds => exact h.congr rfl rfl Backlog.closed_add rfl
  | works hw => exact h.works hw
  | fires =>
    refine h.congr rfl rfl ?_ rfl
    change (s.backlog.fire _).closed = _
    exact Backlog.closed_fire
  | responds hr =>
    cases hr with
    | starts hs =>
      unfold OnCourse at h
      rw [hs] at h
      have hstarted : List.replicate s.controller.workerCount Worker.idle ≠ [] := by
        simp [Controller.workerCount]
      exact ⟨hstarted, h.2⟩
    | fails e hs =>
      unfold OnCourse at h
      rw [hs] at h
      exact ⟨h.1, rfl, e, rfl⟩
    | drains hs =>
      unfold OnCourse at h
      rw [hs] at h
      exact ⟨h.1, rfl, h.2.2⟩
    | reports hs => exact h.congr rfl rfl rfl rfl
    | stops hs hg =>
      unfold OnCourse at h
      rw [hs] at h
      exact ⟨h.1, h.2.1, rfl, hg⟩

theorem Reaches.onCourse {kind : Kind} {base max : Duration} {settings : ControllerSettings}
    {store : σ} {past : Record}
    (h : Reaches backend (initial kind base max settings store) past s) : s.OnCourse := by
  induction h with
  | start => exact ⟨rfl, rfl, rfl⟩
  | move _ hm ih => exact ih.moves (moves_of_move? hm)

/-! ## Workers in order -/

/-- Workers hold different names, and only those whose delivery has failed deal with failures. -/
structure InOrder (s : Shift σ) : Prop where
  orderly : s.pipeline.Orderly
  failing : ∀ {i : Nat}, s.stages i ≠ .unjudged →
    ∃ item e, s.pipeline.workers[i]? = some (.talking item (.done (.error e)))

/-- A worker that has not failed is in no stage of dealing with a failure. -/
theorem InOrder.unjudged (h : s.InOrder) {w : Worker} (hw : s.pipeline.workers[i]? = some w)
    (hne : ∀ item e, w ≠ .talking item (.done (.error e))) : s.stages i = .unjudged := by
  by_cases hs : s.stages i = .unjudged
  · exact hs
  · obtain ⟨item, e, hfailing⟩ := h.failing hs
    exact absurd (Option.some.inj (hw.symm.trans hfailing)) (hne item e)

/-- Other things do not count. -/
theorem InOrder.congr (h : s.InOrder) (hb : s'.backlog.Sound)
    (hw : s'.pipeline.workers = s.pipeline.workers) (hh : s'.backlog.held = s.backlog.held)
    (hs : s'.stages = s.stages) : s'.InOrder :=
  ⟨h.orderly.congr hb hw hh, fun hi => by rw [hw]; exact h.failing (hs ▸ hi)⟩

/-- A worker that has not failed takes a step of the pipeline. -/
theorem InOrder.advance (h : s.InOrder) {p : Pipeline} {store : σ}
    (ha : s.pipeline.Advances backend s.now i s.store p store) {w : Worker}
    (hw : s.pipeline.workers[i]? = some w) (hne : ∀ item e, w ≠ .talking item (.done (.error e)))
    (hothers : ∀ j, i ≠ j → p.workers[j]? = s.pipeline.workers[j]?) (hp : s'.pipeline = p)
    (hs : s'.stages = s.stages) : s'.InOrder where
  orderly := hp ▸ h.orderly.advance ha
  failing {j} hj := by
    rw [hs] at hj
    have hij : i ≠ j := by
      rintro rfl
      exact hj (h.unjudged hw hne)
    obtain ⟨item, e, hfailing⟩ := h.failing hj
    exact ⟨item, e, hp ▸ (hothers j hij).trans hfailing⟩

theorem InOrder.mended {e : DeliveryError} {b : Backlog} (h : s.InOrder)
    (hw : s.pipeline.workers[i]? = some (.talking item (.done (.error e)))) (hb : b.Sound)
    (hh : b.held = s.backlog.held) : (s.mended i item b).InOrder where
  orderly := by
    have hbacklog : ({ s.pipeline with backlog := b } : Pipeline).Orderly :=
      h.orderly.congr hb rfl hh
    exact hbacklog.setWorker hw rfl
  failing {j} hj := by
    have hij : j ≠ i := fun heq => hj (if_pos heq)
    have hstage : s.stages j ≠ .unjudged := fun heq => hj ((if_neg hij).trans heq)
    obtain ⟨item', e', hfailing⟩ := h.failing hstage
    exact ⟨item', e', (List.getElem?_set_ne (Ne.symm hij)).trans hfailing⟩

/-- A worker goes on to the next stage. -/
theorem InOrder.setStage {e : DeliveryError} (h : s.InOrder)
    (hw : s.pipeline.workers[i]? = some (.talking item (.done (.error e)))) (stage : RetryStage) :
    (s.setStage i stage).InOrder where
  orderly := h.orderly
  failing {j} hj := by
    by_cases hij : j = i
    · subst hij
      exact ⟨item, e, hw⟩
    · exact h.failing fun heq => hj ((if_neg hij).trans heq)

theorem InOrder.works (h : s.InOrder) (hw : s.Works backend i o s') : s'.InOrder := by
  cases hw with
  | takes hw ht =>
    have ha : s.pipeline.Advances backend s.now i s.store _ _ := .takes hw ht
    exact h.advance ha hw nofun (fun j hj => List.getElem?_set_ne hj) rfl rfl
  | leaves hw ht hc =>
    have ha : s.pipeline.Advances backend s.now i s.store _ _ := .leaves hw ht hc
    exact h.advance ha hw nofun (fun j hj => List.getElem?_set_ne hj) rfl rfl
  | looks hw =>
    have ha : s.pipeline.Advances backend s.now i s.store _ _ := .looks hw
    exact h.advance ha hw nofun (fun j hj => List.getElem?_set_ne hj) rfl rfl
  | talks hw hr hn =>
    have ha : s.pipeline.Advances backend s.now i s.store _ _ := .talks hw hr
    refine h.advance ha hw (fun item e heq => ?_) (fun j hj => ?_) ?_ rfl
    · cases heq
      exact hr _ rfl
    · exact List.getElem?_set_ne hj
    · rw [hn]
      rfl
  | succeeds hw =>
    have ha : s.pipeline.Advances backend s.now i s.store _ _ := .concludes hw
    exact h.advance ha hw nofun (fun j hj => List.getElem?_set_ne hj) rfl rfl
  | @judges item e verdict hw hs hv =>
    have hreported : (s.setPipeline (s.judged item e)).InOrder :=
      h.congr h.orderly.sound rfl rfl rfl
    exact hreported.setStage hw _
  | @counts item e delay backoff hw hs hc hn =>
    have hcounted : (s.setBacklog { s.backlog with backoff }).InOrder :=
      h.congr (h.orderly.sound.congr rfl rfl rfl) rfl rfl rfl
    exact hcounted.setStage hw _
  | desists hw => exact h.mended hw h.orderly.sound rfl
  | readds hw => exact h.mended hw (h.orderly.sound.add _) Backlog.held_add
  | delays hw => exact h.mended hw (h.orderly.sound.congr rfl rfl rfl) rfl
  | forgets hw => exact h.mended hw (h.orderly.sound.forget _) rfl
  | releases hw =>
    have ha : s.pipeline.Advances backend s.now i s.store _ _ := .releases hw
    exact h.advance ha hw nofun (fun j hj => List.getElem?_set_ne hj) rfl rfl

/-- Workers that wait for their first items hold nothing. -/
theorem InOrder.startWorkers (h : s.InOrder) (hnone : s.pipeline.workers = []) :
    ({ s with controller := s.controller.startWorkers } : Shift σ).InOrder where
  orderly := by
    have hidle : ∀ {i : Nat} {w : Worker},
        (List.replicate s.controller.workerCount Worker.idle)[i]? = some w → w.name? = none := by
      intro i w hw
      rw [List.eq_of_mem_replicate (List.mem_of_getElem? hw)]
      rfl
    refine ⟨h.orderly.sound, fun hi hn => ?_, fun hn => ?_, fun hi _ hn => ?_⟩
    · rw [hidle hi] at hn
      cases hn
    · obtain ⟨i, w, hi, -⟩ := h.orderly.had hn
      rw [hnone] at hi
      simp at hi
    · rw [hidle hi] at hn
      cases hn
  failing hi := by
    obtain ⟨item, e, hfailing⟩ := h.failing hi
    rw [hnone] at hfailing
    simp at hfailing

theorem InOrder.moves (h : s.InOrder) (hc : s.OnCourse) (hm : s.Moves backend m o s') :
    s'.InOrder := by
  cases hm with
  | starts | told | takesIn | abandons | waits => exact h.congr h.orderly.sound rfl rfl rfl
  | hands | adds => exact h.congr (h.orderly.sound.add _) rfl Backlog.held_add rfl
  | works hw => exact h.works hw
  | fires => exact h.congr (h.orderly.sound.fire _) rfl Backlog.held_fire rfl
  | responds hr =>
    cases hr with
    | starts hs =>
      unfold OnCourse at hc
      rw [hs] at hc
      exact h.startWorkers hc.1
    | fails => exact h.congr h.orderly.sound.close rfl rfl rfl
    | drains => exact h.congr h.orderly.sound.close rfl rfl rfl
    | reports | stops => exact h.congr h.orderly.sound rfl rfl rfl

theorem Reaches.inOrder {kind : Kind} {base max : Duration} {settings : ControllerSettings}
    {store : σ} {past : Record}
    (h : Reaches backend (initial kind base max settings store) past s) : s.InOrder := by
  induction h with
  | start =>
    have horderly := Pipeline.orderly_initial kind (.initial base max) settings.maxRetries 0
    exact ⟨horderly, fun hi => absurd rfl hi⟩
  | move hreach hm ih => exact ih.moves hreach.onCourse (moves_of_move? hm)

end Shift
end ClusterSync

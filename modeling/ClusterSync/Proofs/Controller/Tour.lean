import ClusterSync.Proofs.Controller.Topic

/-!
# Tours of duty

One run of a controller from its call to its return, in the steps of `Controller.Walks`, between
which everybody else may do something: it publishes a state in one step, closes the backlog or
moves the gauge of the running controllers in another, and starts its workers one after the other,
so that some may be at work while others are not there and `Running` is not published yet. A worker
may break down at any time. The calls that workers make to the datastore are noted.

A tour begins with any contents of the backlog, the cache and the datastore.

**Theorem (`walksOn_of_respond?`).** Without interruption these steps come to what the controller
does at one go.

**Theorem (`Reaches.lifecycle`).** The states that are published are an initial part of those of a
good or of a bad ending, and the result tells which. After a bad ending nothing has been handed out,
the datastore has not been called, and the backlog is closed. The datastore is called only once the
cache is synced, and the gauge is in the end what it was.
-/

namespace ClusterSync

variable {σ : Type}

namespace ControllerPhase

/-- The states that have been published, the latest first. -/
def states : ControllerPhase → List ControllerState
  | .unstarted => [.initializing]
  | .waiting | .failing _ | .hiring => [.syncing, .initializing]
  | .forsaking _ | .leaving (.error _) | .finished (.error _) => [.failed, .syncing, .initializing]
  | .arriving | .serving => [.running, .syncing, .initializing]
  | .closing | .joining | .ending => [.draining, .running, .syncing, .initializing]
  | .leaving (.ok ()) | .finished (.ok ()) =>
    [.stopped, .draining, .running, .syncing, .initializing]

/-- The result, once the run has returned. -/
def result? : ControllerPhase → Option (Except ControllerError Unit)
  | .finished result => some result
  | _ => none

/-- Whether the wait for the cache has ended well. -/
def hasSynced : ControllerPhase → Bool
  | .unstarted | .waiting | .failing _ | .forsaking _
  | .leaving (.error _) | .finished (.error _) =>
    false
  | .hiring | .arriving | .serving | .closing | .joining | .ending | .leaving (.ok ())
  | .finished (.ok ()) => true

/-- Whether the run has closed the backlog. -/
def hasClosed : ControllerPhase → Bool
  | .joining | .ending | .leaving _ | .finished _ => true
  | _ => false

/-- How much the run has moved the gauge. -/
def counted : ControllerPhase → Int
  | .serving | .closing | .joining => 1
  | _ => 0

/-- The states of a run that ends well. -/
def goodEnding : List ControllerState := [.initializing, .syncing, .running, .draining, .stopped]

/-- The states of a run that ends badly. -/
def badEnding : List ControllerState := [.initializing, .syncing, .failed]

variable {phase : ControllerPhase} {result : Except ControllerError Unit}

theorem states_prefix (phase : ControllerPhase) :
    phase.states.reverse <+: goodEnding ∨ phase.states.reverse <+: badEnding := by
  cases phase with
  | unstarted => exact .inl (by decide : [.initializing] <+: goodEnding)
  | waiting | failing | hiring => exact .inl (by decide : [.initializing, .syncing] <+: goodEnding)
  | arriving | serving =>
    exact .inl (by decide : [.initializing, .syncing, .running] <+: goodEnding)
  | closing | joining | ending =>
    exact .inl (by decide : [.initializing, .syncing, .running, .draining] <+: goodEnding)
  | forsaking => exact .inr (List.prefix_refl badEnding)
  | leaving result | finished result =>
    cases result with
    | error => exact .inr (List.prefix_refl badEnding)
    | ok => exact .inl (List.prefix_refl goodEnding)

theorem hasSynced_of_failed (h : .failed ∈ phase.states) : phase.hasSynced = false := by
  cases phase with
  | unstarted | waiting | failing | forsaking => rfl
  | leaving result | finished result =>
    cases result with
    | error => rfl
    | ok => simp [states] at h
  | hiring | arriving | serving | closing | joining | ending => simp [states] at h

theorem eq_finished_of_result? (h : phase.result? = some result) : phase = .finished result := by
  cases phase with
  | finished => rw [Option.some.inj h]
  | _ => cases h

end ControllerPhase

/-! ## Runs that nobody interrupts -/

namespace Controller

variable {c c' : Controller} {now : Nat} {phase : ControllerPhase}

/-- Steps of a run that nobody interrupts. -/
inductive WalksOn (now : Nat) : ControllerPhase → Controller → ControllerPhase → Controller → Prop
  | rests {phase : ControllerPhase} {c : Controller} : WalksOn now phase c phase c
  | walks {phase next last : ControllerPhase} {c c' c'' : Controller}
      (h : c.Walks now phase next c') (hrest : WalksOn now next c' last c'') : WalksOn now phase c last c''

/-- Where a run waits for something or has ended, and the controller says so. -/
def Rests (c : Controller) : ControllerPhase → Prop
  | .waiting => c.state = .syncing ∧ c.pipeline.workers = []
  | .serving => c.state = .running
  | .joining => c.state = .draining
  | .finished result => c.result = some result
  | _ => False

theorem walksOn_failing (e : ControllerError) :
    WalksOn now (.failing e) c (.finished (.error e)) (c.fail e) :=
  .walks (.fails e) (.walks (.forsakes e) (.walks (.returns _) .rests))

/-- As many workers are started as are missing. -/
theorem walksOn_hiring {n : Nat} (hn : c.workerCount = c.pipeline.workers.length + n) :
    WalksOn now .hiring c .serving (((c.setPipeline { c.pipeline with
      workers := c.pipeline.workers ++ List.replicate n .idle }).enter .running).moveGauge 1) := by
  induction n generalizing c with
  | zero =>
    have hall : c.workerCount ≤ c.pipeline.workers.length := Nat.le_of_eq hn
    rw [List.replicate_zero, List.append_nil]
    exact .walks (.arrives hall) (.walks .shows .rests)
  | succ n ih =>
    have hmissing : c.pipeline.workers.length < c.workerCount := by omega
    have hrest : c.hire.workerCount = c.hire.pipeline.workers.length + n := by
      show c.workerCount = (c.pipeline.workers ++ [Worker.idle]).length + n
      rw [List.length_append, List.length_singleton]
      omega
    have hworkers : c.hire.pipeline.workers ++ List.replicate n .idle =
        c.pipeline.workers ++ List.replicate (n + 1) .idle := by
      show (c.pipeline.workers ++ [Worker.idle]) ++ List.replicate n .idle = _
      rw [List.append_assoc, List.singleton_append, List.replicate_succ]
    have hgo := ih (c := c.hire) hrest
    rw [hworkers] at hgo
    exact .walks (.hires hmissing) hgo

/-- Where a run waits, the controller stands as it does when it is about to respond. -/
theorem walksOn_of_respond? {stimulus : Stimulus} (h : c.respond? now stimulus = some c')
    (hr : c.Rests phase) (hover : c.result = none) :
    ∃ next, WalksOn now phase c next c' ∧ c'.Rests next := by
  unfold respond? at h
  dsimp only at h
  cases phase with
  | waiting =>
    obtain ⟨hs, hw⟩ := hr
    rw [hs] at h
    cases stimulus with
    | cache =>
      dsimp only at h
      by_cases hc : c.pipeline.cache.synced = true
      · rw [if_pos hc] at h
        cases h
        have hmissing : c.workerCount = c.pipeline.workers.length + c.workerCount := by
          rw [hw, List.length_nil, Nat.zero_add]
        have hhire : WalksOn now .hiring c _ _ := walksOn_hiring hmissing
        rw [hw, List.nil_append] at hhire
        exact ⟨.serving, .walks (.finds hc) hhire, rfl⟩
      · rw [if_neg hc] at h
        split at h
        · cases h
        · rename_i hwritable
          cases h
          have hdespair : c.Walks now _ _ c :=
            .despairs (by simpa using hc) (by simpa using hwritable)
          exact ⟨.finished _, .walks hdespair (walksOn_failing _), rfl⟩
    | deadline =>
      dsimp only at h
      split at h
      · rename_i hdue
        cases h
        exact ⟨.finished _, .walks (.tires hdue.2.2) (walksOn_failing _), rfl⟩
      · cases h
    | stopRequest =>
      dsimp only at h
      split at h
      · rename_i hstop
        cases h
        exact ⟨.finished _, .walks (.obeys hstop) (walksOn_failing _), rfl⟩
      · cases h
    | workers => cases h
  | serving =>
    have hs : c.state = .running := hr
    rw [hs] at h
    cases stimulus with
    | stopRequest =>
      dsimp only at h
      split at h
      · rename_i hstop
        cases h
        exact ⟨.joining, .walks (.drains hstop) (.walks .closes .rests), rfl⟩
      · cases h
    | cache | deadline | workers => cases h
  | joining =>
    have hs : c.state = .draining := hr
    rw [hs] at h
    cases stimulus with
    | workers =>
      dsimp only at h
      split at h
      · rename_i hbroken
        cases h
        exact ⟨.joining, .walks (.learns hbroken) .rests, hs⟩
      · rename_i hbroken
        split at h
        · rename_i hgone
          cases h
          have hreported : c.broken ≤ c.reported := Nat.le_of_not_lt hbroken
          refine ⟨.finished _, .walks (.joins hreported hgone) ?_, rfl⟩
          exact .walks .ends (.walks (.returns _) .rests)
        · cases h
    | cache | deadline | stopRequest => cases h
  | finished result =>
    have hr : c.result = some result := hr
    rw [hover] at hr
    cases hr
  | unstarted | failing | forsaking | hiring | arriving | closing | ending | leaving => cases hr

end Controller

/-! ## What others leave alone -/

namespace Shift

variable {s s' : Shift σ} {backend : Backend σ} {m : Move} {o : Option Incident} {i : Nat}

/-- Moves that are not the controller's own. -/
def Move.IsForeign : Move → Prop
  | .start | .respond _ => False
  | _ => True

/-- What others leave alone. -/
structure Undisturbed (s s' : Shift σ) : Prop where
  states : s'.controller.states = s.controller.states
  result : s'.controller.result = s.controller.result
  workers : s.pipeline.workers = [] → s'.pipeline.workers = [] ∧ s'.store = s.store
  synced : s.pipeline.cache.synced = true → s'.pipeline.cache.synced = true
  closed : s.backlog.closed = true → s'.backlog.closed = true
  gauge : s'.pipeline.journal.metrics.value .controllersRunning =
    s.pipeline.journal.metrics.value .controllersRunning

theorem value_report {verdict : Verdict} {kind : String} {j : Journal} :
    (RetryPolicy.report verdict kind j).metrics.value .controllersRunning =
      j.metrics.value .controllersRunning := by
  cases verdict <;> exact Journal.value_count_of_ne nofun

theorem value_judged {item : WorkItem} {e : DeliveryError} :
    (s.judged item e).journal.metrics.value .controllersRunning =
      s.pipeline.journal.metrics.value .controllersRunning := by
  refine value_report.trans ((Journal.value_count_of_ne ?_).trans (Journal.value_count_of_ne ?_))
  · nofun
  · nofun

theorem Works.gauge (h : s.Works backend i o s') (ht : s.Calls) :
    s'.pipeline.journal.metrics.value .controllersRunning =
      s.pipeline.journal.metrics.value .controllersRunning := by
  cases h with
  | takes | leaves | looks | counts | desists | readds | delays | forgets | releases => rfl
  | @talks item rest next journal store hw hr hn =>
    have hkeeps := ht item rest (List.mem_of_getElem? hw)
    have hvalue : _ = s.pipeline.journal.metrics.value .controllersRunning :=
      hkeeps.value_step backend s.pipeline.journal s.store nofun
    rw [hn] at hvalue
    exact hvalue
  | succeeds hw =>
    refine (Journal.value_count_of_ne ?_).trans (Journal.value_count_of_ne ?_)
    · nofun
    · nofun
  | judges => exact value_judged

/-- A cache that is synced stays so. -/
theorem synced_accept? {cache cache' : Cache} {event : WatchEvent}
    (h : cache.accept? event = some cache') (hs : cache.synced = true) : cache'.synced = true := by
  cases event with
  | applied | deleted | listed =>
    obtain ⟨name, -, rfl⟩ := Option.map_eq_some_iff.1 h
    exact hs
  | listBegins =>
    cases h
    exact hs
  | listEnds order =>
    cases h
    rfl

theorem Works.undisturbed (h : s.Works backend i o s') (ht : s.Calls) : s.Undisturbed s' where
  states := h.keeps.states
  result := h.keeps.result
  workers hnone := by
    obtain ⟨w, -, hw, -⟩ := h.keeps.worker
    rw [hnone] at hw
    cases hw
  synced hs := by cases h <;> exact hs
  closed hc := h.keeps.closed.trans hc
  gauge := h.gauge ht

theorem Moves.undisturbed (h : s.Moves backend m o s') (hm : m.IsForeign) (ht : s.Calls) :
    s.Undisturbed s' := by
  cases h with
  | starts | responds => exact hm.elim
  | told | waits | abandons => exact ⟨rfl, rfl, fun h => ⟨h, rfl⟩, id, id, rfl⟩
  | takesIn ho hc => exact ⟨rfl, rfl, fun h => ⟨h, rfl⟩, synced_accept? hc, id, rfl⟩
  | hands =>
    exact ⟨rfl, rfl, fun h => ⟨h, rfl⟩, id, Backlog.closed_add.trans,
      Journal.value_count_of_ne nofun⟩
  | adds => exact ⟨rfl, rfl, fun h => ⟨h, rfl⟩, id, Backlog.closed_add.trans, rfl⟩
  | fires => exact ⟨rfl, rfl, fun h => ⟨h, rfl⟩, id, Backlog.closed_fire.trans, rfl⟩
  | works hw => exact hw.undisturbed ht

/-- Nothing is handed out where there are no workers. -/
theorem Moves.not_handedOut (h : s.Moves backend m o s') (hnone : s.pipeline.workers = [])
    (item : WorkItem) : o ≠ some (.handedOut item) := by
  cases h with
  | starts | told | takesIn | abandons | waits | hands | adds | fires => nofun
  | responds =>
    split <;> nofun
  | works hw =>
    obtain ⟨w, -, hw, -⟩ := hw.keeps.worker
    rw [hnone] at hw
    cases hw

end Shift

/-! ## Tours -/

/-- A call of the datastore. -/
inductive DatastoreCall
  | commit (x : Transaction)
  | read (path : String)

/-- A datastore with a list of the calls that it has received, the latest first. -/
def Backend.noted (backend : Backend σ) : Backend (List DatastoreCall × σ) where
  commit x s := ((backend.commit x s.2).1, .commit x :: s.1, (backend.commit x s.2).2)
  read path s := ((backend.read path s.2).1, .read path :: s.1, (backend.read path s.2).2)

/-- A controller with a run of it. -/
structure Tour (σ : Type) where
  shift : Shift (List DatastoreCall × σ)
  phase : ControllerPhase

namespace Tour

variable {backend : Backend σ} {t t' first : Tour σ} {o : Option Incident} {past : Record}

def controller (t : Tour σ) : Controller := t.shift.controller

def pipeline (t : Tour σ) : Pipeline := t.shift.pipeline

/-- The calls that have been made to the datastore, the latest first. -/
def calls (t : Tour σ) : List DatastoreCall := t.shift.store.1

/-- The value of the gauge of the running controllers. -/
def gauge (t : Tour σ) : Int := t.pipeline.journal.metrics.value .controllersRunning

/-- A run that has not begun, of a controller whose backlog, cache and datastore may hold
anything. -/
structure Fresh (t : Tour σ) : Prop where
  phase : t.phase = .unstarted
  states : t.controller.states = [.initializing]
  result : t.controller.result = none
  workers : t.pipeline.workers = []
  calls : t.calls = []

/-- What may happen during a tour: a step of the run, a move of somebody else, or a worker that
breaks down. -/
inductive Steps (backend : Backend σ) (t : Tour σ) : Option Incident → Tour σ → Prop
  | walks {next : ControllerPhase} {c : Controller}
      (h : t.controller.Walks t.shift.now t.phase next c) :
      Steps backend t none ⟨{ t.shift with controller := c }, next⟩
  | turns {m : Shift.Move} {o : Option Incident} {s : Shift (List DatastoreCall × σ)}
      (hm : m.IsForeign) (h : t.shift.move? backend.noted m = some (o, s)) :
      Steps backend t o ⟨s, t.phase⟩
  | breaksDown {i : Nat} {w : Worker} (hw : t.pipeline.workers[i]? = some w)
      (hg : w.isGone = false) :
      Steps backend t none ⟨t.shift.setPipeline (t.pipeline.setWorker i .broken), t.phase⟩

/-- The records and tours that steps lead to. -/
inductive Reaches (backend : Backend σ) (first : Tour σ) : Record → Tour σ → Prop
  | start : Reaches backend first [] first
  | step {past : Record} {t t' : Tour σ} {o : Option Incident} (h : Reaches backend first past t)
      (hs : t.Steps backend o t') : Reaches backend first (o.toList ++ past) t'

/-- What the phase of a run says about everything else. -/
structure OnTrack (t : Tour σ) (gauge : Int) (past : Record) : Prop where
  states : t.controller.states = t.phase.states
  result : t.controller.result = t.phase.result?
  idle : t.phase.hasSynced = false →
    t.pipeline.workers = [] ∧ t.calls = [] ∧ ∀ item, .handedOut item ∉ past
  synced : t.phase.hasSynced = true → t.pipeline.cache.synced = true
  closed : t.phase.hasClosed = true → t.pipeline.backlog.closed = true
  gauge : t.gauge = gauge + t.phase.counted
  onTopic : t.shift.Calls

theorem Fresh.onTrack (h : t.Fresh) : t.OnTrack t.gauge [] where
  states := by rw [h.states, h.phase]; rfl
  result := by rw [h.result, h.phase]; rfl
  idle _ := ⟨h.workers, h.calls, fun _ => List.not_mem_nil⟩
  synced hs := by rw [h.phase] at hs; cases hs
  closed hc := by rw [h.phase] at hc; cases hc
  gauge := by rw [h.phase]; exact (Int.add_zero _).symm
  onTopic item rest hmem := by
    have hnone : t.shift.pipeline.workers = [] := h.workers
    rw [hnone] at hmem
    cases hmem

/-! ## What steps keep -/

theorem gauge_moveGauge {c : Controller} {n : Int} :
    (c.moveGauge n).pipeline.journal.metrics.value .controllersRunning =
      c.pipeline.journal.metrics.value .controllersRunning + n := by
  refine Journal.value_adjust.trans ?_
  rw [if_pos rfl]

theorem OnTrack.walks {gauge : Int} {next : ControllerPhase} {c : Controller}
    (h : t.OnTrack gauge past) (hw : t.controller.Walks t.shift.now t.phase next c) :
    (⟨{ t.shift with controller := c }, next⟩ : Tour σ).OnTrack gauge past := by
  obtain ⟨shift, phase⟩ := t
  obtain ⟨hstates, hresult, hidle, hsynced, hclosed, hgauge, htopic⟩ := h
  dsimp only at hstates hresult hidle hsynced hclosed hgauge hw
  cases hw with
  | begins => exact ⟨congrArg (_ :: ·) hstates, hresult, hidle, nofun, nofun, hgauge, htopic⟩
  | finds hc => exact ⟨hstates, hresult, nofun, fun _ => hc, nofun, hgauge, htopic⟩
  | despairs | tires | obeys => exact ⟨hstates, hresult, hidle, nofun, nofun, hgauge, htopic⟩
  | fails => exact ⟨congrArg (_ :: ·) hstates, hresult, hidle, nofun, nofun, hgauge, htopic⟩
  | forsakes => exact ⟨hstates, hresult, hidle, nofun, fun _ => rfl, hgauge, htopic⟩
  | hires =>
    refine ⟨hstates, hresult, nofun, hsynced, nofun, hgauge, fun item rest hmem => ?_⟩
    rcases List.mem_append.1 hmem with hmem | hmem
    · exact htopic item rest hmem
    · cases List.mem_singleton.1 hmem
  | arrives => exact ⟨congrArg (_ :: ·) hstates, hresult, nofun, hsynced, nofun, hgauge, htopic⟩
  | shows =>
    refine ⟨hstates, hresult, nofun, hsynced, nofun, gauge_moveGauge.trans ?_, htopic⟩
    have hbefore : shift.pipeline.journal.metrics.value .controllersRunning = gauge + 0 := hgauge
    show shift.pipeline.journal.metrics.value .controllersRunning + 1 = gauge + 1
    omega
  | drains => exact ⟨congrArg (_ :: ·) hstates, hresult, nofun, hsynced, nofun, hgauge, htopic⟩
  | closes => exact ⟨hstates, hresult, nofun, hsynced, fun _ => rfl, hgauge, htopic⟩
  | learns => exact ⟨hstates, hresult, nofun, hsynced, hclosed, hgauge, htopic⟩
  | joins =>
    refine ⟨hstates, hresult, nofun, hsynced, hclosed, gauge_moveGauge.trans ?_, htopic⟩
    have hbefore : shift.pipeline.journal.metrics.value .controllersRunning = gauge + 1 := hgauge
    show shift.pipeline.journal.metrics.value .controllersRunning + -1 = gauge + 0
    omega
  | ends => exact ⟨congrArg (_ :: ·) hstates, hresult, nofun, hsynced, hclosed, hgauge, htopic⟩
  | returns result =>
    cases result with
    | error e => exact ⟨hstates, rfl, hidle, nofun, hclosed, hgauge, htopic⟩
    | ok => exact ⟨hstates, rfl, nofun, hsynced, hclosed, hgauge, htopic⟩

theorem OnTrack.turns {gauge : Int} {m : Shift.Move} {s : Shift (List DatastoreCall × σ)}
    (h : t.OnTrack gauge past) (hm : m.IsForeign) (hs : t.shift.Moves backend.noted m o s) :
    (⟨s, t.phase⟩ : Tour σ).OnTrack gauge (o.toList ++ past) := by
  have hothers := hs.undisturbed hm h.onTopic
  refine ⟨hothers.states.trans h.states, hothers.result.trans h.result, fun hphase => ?_,
    fun hphase => hothers.synced (h.synced hphase), fun hphase => hothers.closed (h.closed hphase),
    hothers.gauge.trans h.gauge, hs.onTopic h.onTopic Shift.willKeepTo_any⟩
  obtain ⟨hnone, hcalls, hpast⟩ := h.idle hphase
  obtain ⟨hnone', hstore⟩ := hothers.workers hnone
  refine ⟨hnone', (congrArg Prod.fst hstore).trans hcalls, fun item hmem => ?_⟩
  rcases List.mem_append.1 hmem with hmem | hmem
  · exact hs.not_handedOut hnone item (Option.mem_toList.1 hmem)
  · exact hpast item hmem

theorem OnTrack.breaksDown {gauge : Int} {i : Nat} {w : Worker} (h : t.OnTrack gauge past)
    (hw : t.pipeline.workers[i]? = some w) :
    (⟨t.shift.setPipeline (t.pipeline.setWorker i .broken), t.phase⟩ : Tour σ).OnTrack gauge
      past := by
  refine ⟨h.states, h.result, fun hphase => ?_, h.synced, h.closed, h.gauge,
    fun item rest hmem => ?_⟩
  · have hnone := (h.idle hphase).1
    rw [hnone] at hw
    cases hw
  · rcases List.mem_or_eq_of_mem_set hmem with hmem | heq
    · exact h.onTopic item rest hmem
    · cases heq

theorem OnTrack.steps {gauge : Int} (h : t.OnTrack gauge past) (hs : t.Steps backend o t') :
    t'.OnTrack gauge (o.toList ++ past) := by
  cases hs with
  | walks hw => exact h.walks hw
  | turns hm hs => exact h.turns hm (Shift.moves_of_move? hs)
  | breaksDown hw => exact h.breaksDown hw

theorem Reaches.onTrack (hf : first.Fresh) (h : Reaches backend first past t) :
    t.OnTrack first.gauge past := by
  induction h with
  | start => exact hf.onTrack
  | step _ hs ih => exact ih.steps hs

/-! ## How a run goes -/

/-- The states that have been published, in their order. -/
def published (t : Tour σ) : List ControllerState := t.controller.states.reverse

/-- News do not reach a backlog that is closed. -/
theorem backlog_receive?_of_closed {p p' : Pipeline} {event : WatchEvent} {count : Nat}
    (h : p.receive? event = some (p', count)) (hc : p.backlog.closed = true) :
    p'.backlog = p.backlog := by
  have henqueue : ∀ (items : List WorkItem) (q : Pipeline), q.backlog = p.backlog →
      (items.foldl Pipeline.enqueue q).backlog = p.backlog := by
    intro items
    induction items with
    | nil => intro q hq; exact hq
    | cons item items ih =>
      intro q hq
      apply ih
      show q.backlog.add item = p.backlog
      rw [hq, Backlog.add_of_closed hc]
  obtain ⟨cache, -, heq⟩ := Option.map_eq_some_iff.1 h
  cases heq
  exact henqueue _ _ rfl

theorem Reaches.lifecycle (hf : first.Fresh) (h : Reaches backend first past t) :
    (t.published <+: ControllerPhase.goodEnding ∨ t.published <+: ControllerPhase.badEnding) ∧
    (∀ result, t.controller.result = some result →
      result = .ok () ∧ t.published = ControllerPhase.goodEnding ∨
        ∃ e, result = .error e ∧ t.published = ControllerPhase.badEnding) ∧
    (.failed ∈ t.published → (∀ item, .handedOut item ∉ past) ∧ t.calls = []) ∧
    (∀ e, t.controller.result = some (.error e) → t.pipeline.backlog.closed = true ∧
      ∀ event p count, t.pipeline.receive? event = some (p, count) →
        p.backlog = t.pipeline.backlog) ∧
    (t.calls ≠ [] → t.phase.hasSynced = true ∧ t.pipeline.cache.synced = true) ∧
    (t.controller.result ≠ none → t.gauge = first.gauge) := by
  obtain ⟨hstates, hresult, hidle, hsynced, hclosed, hgauge, -⟩ := h.onTrack hf
  have hpublished : t.published = t.phase.states.reverse := congrArg List.reverse hstates
  rw [hpublished, hresult]
  refine ⟨t.phase.states_prefix, fun result heq => ?_, fun hfailed => ?_, fun e heq => ?_,
    fun hcalls => ?_, fun hreturned => ?_⟩
  · rw [ControllerPhase.eq_finished_of_result? heq]
    cases result with
    | ok => exact .inl ⟨rfl, rfl⟩
    | error e => exact .inr ⟨e, rfl, rfl⟩
  · have hbad := hidle (ControllerPhase.hasSynced_of_failed (List.mem_reverse.1 hfailed))
    exact ⟨hbad.2.2, hbad.2.1⟩
  · rw [ControllerPhase.eq_finished_of_result? heq] at hclosed
    have hshut := hclosed rfl
    exact ⟨hshut, fun event p count hreceive => backlog_receive?_of_closed hreceive hshut⟩
  · have hwell : t.phase.hasSynced = true := by
      by_cases hphase : t.phase.hasSynced = true
      · exact hphase
      · exact absurd (hidle (by simpa using hphase)).2.1 hcalls
    exact ⟨hwell, hsynced hwell⟩
  · obtain ⟨result, heq⟩ := Option.ne_none_iff_exists'.1 hreturned
    rw [hgauge, ControllerPhase.eq_finished_of_result? heq]
    exact Int.add_zero _

/-- A node controller that waits a second for its cache. -/
def impatient : Tour Table :=
  ⟨.initial .node (.ofMillis 5) (.ofSecs 1) ⟨2, 5, .ofSecs 1⟩ ([], .initial), .unstarted⟩

/-- Work has been queued before the run begins, and the cache is not synced in time. -/
theorem lifecycle_of_impatient : ∃ past t, impatient.Fresh ∧
    Reaches Table.backend impatient past t ∧ t.pipeline.backlog.ready = [.cluster "n1"] ∧
    t.controller.result = some (.error (.syncTimeout "node" (.ofSecs 1))) ∧
    t.published = ControllerPhase.badEnding ∧ (∀ item, .handedOut item ∉ past) ∧ t.calls = [] ∧
    t.pipeline.backlog.closed = true ∧ t.gauge = impatient.gauge := by
  have hfresh : impatient.Fresh := ⟨rfl, rfl, rfl, rfl, rfl⟩
  have hqueued : Reaches Table.backend impatient _ _ :=
    .step .start (.turns (m := .add ⟨.cluster "n1", .add⟩) trivial rfl)
  have hbegun := hqueued.step (.walks .begins)
  have hlate := hbegun.step (.turns (m := .wait 1000000000) trivial rfl)
  have htired := hlate.step (.walks (.tires (by decide)))
  have hreturned := htired.step (.walks (.fails _)) |>.step (.walks (.forsakes _))
    |>.step (.walks (.returns _))
  obtain ⟨-, -, hfailed, hshut, -, hgauge⟩ := hreturned.lifecycle hfresh
  exact ⟨_, _, hfresh, hreturned, by decide, rfl, rfl, (hfailed (by decide)).1,
    (hfailed (by decide)).2, (hshut _ rfl).1, hgauge nofun⟩

end Tour

end ClusterSync

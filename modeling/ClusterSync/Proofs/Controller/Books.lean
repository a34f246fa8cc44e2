import ClusterSync.Proofs.Controller.Audit
import ClusterSync.Proofs.Controller.Topic
import ClusterSync.Proofs.Telemetry.Metrics
import ClusterSync.Rehearsal.Store

/-!
# The books of a controller

The metrics of a controller are kept in several places: by the workers that conclude deliveries, by
the retry policy, and by whoever passes on what an event leads to. What a step counts shows in what
there is to tell of it, but for calls, the gauge of the running controllers and items that follow
from events.

**Theorem (`Audit.booked`).** Whatever happens, the metrics of deliveries are those of the record,
and events have led to as many items as they were said to lead to, less those that are still owed.

**Theorem (`Audit.books_balance`).** When nothing is held, what has been handed out has succeeded or
failed, has been timed, and has been put off or given up if it has failed.
-/

namespace ClusterSync

variable {σ : Type}

/-! ## What is counted -/

namespace Sample

/-- The errors of deliveries of a kind, whatever the reason. -/
def isSyncError (kind : String) : Sample → Bool
  | .syncErrors other _ => other = kind
  | _ => false

/-- The items of a kind that have followed from events, whatever has happened to the object. -/
def isEvent (kind : String) : Sample → Bool
  | .eventsEnqueued other _ => other = kind
  | _ => false

/-- Whether a sample is about deliveries. -/
def isOfDelivery : Sample → Bool
  | .syncs _ | .syncErrors .. | .syncDurations _ | .requeues _ | .itemsDropped _ => true
  | .eventsEnqueued .. | .queueDepth _ | .storeOperations .. | .controllersRunning => false

end Sample

/-- What a controller of a kind counts when something happens to it. -/
def Incident.samples (kind : String) : Incident → List Sample
  | .succeeded _ => [.syncDurations kind, .syncs kind]
  | .failed _ e verdict =>
    [.syncDurations kind, .syncErrors kind e.label,
      if verdict = .requeue then .requeues kind else .itemsDropped kind]
  | .added .. | .closed | .handedOut _ | .putOff _ | .forgot _ | .released _ => []

namespace Record

/-- What a controller of a kind has counted. -/
def samples (kind : String) (past : Record) : List Sample := past.flatMap (Incident.samples kind)

/-- How often samples of a sort have been counted. -/
def counted (kind : String) (past : Record) (sort : Sample → Bool) : Nat :=
  (past.samples kind).countP sort

theorem counted_cons (kind : String) (i : Incident) (past : Record) (sort : Sample → Bool) :
    counted kind (i :: past) sort = (i.samples kind).countP sort + past.counted kind sort := by
  simp [counted, samples]

/-- Every delivery that ends is timed, and it has succeeded or failed. Every failure leads to
another delivery or to the item being given up. -/
theorem counted_balance (kind : String) (past : Record) :
    past.counted kind (.syncDurations kind = ·) = past.concluded.length ∧
      past.counted kind (.syncDurations kind = ·) =
        past.counted kind (.syncs kind = ·) + past.counted kind (Sample.isSyncError kind) ∧
      past.counted kind (Sample.isSyncError kind) =
        past.counted kind (.requeues kind = ·) + past.counted kind (.itemsDropped kind = ·) := by
  induction past with
  | nil => exact ⟨rfl, rfl, rfl⟩
  | cons i past ih =>
    obtain ⟨hends, hsorts, hfails⟩ := ih
    simp only [counted_cons, concluded_cons, List.length_append]
    cases i with
    | added | closed | handedOut | putOff | forgot | released =>
      simp [Incident.samples, Incident.concluded?]
      omega
    | succeeded item =>
      simp [Incident.samples, Incident.concluded?, Sample.isSyncError]
      omega
    | failed item e verdict =>
      by_cases hv : verdict = .requeue
      · simp [Incident.samples, Incident.concluded?, Sample.isSyncError, hv]
        omega
      · simp [Incident.samples, Incident.concluded?, Sample.isSyncError, hv]
        omega

end Record

namespace Shift

variable {s s' : Shift σ} {backend : Backend σ} {i : Nat} {m : Move} {o : Option Incident}
  {past : Record} {promised : Nat} {read : Metrics → Int} {sort : Sample → Bool}

def metrics (s : Shift σ) : Metrics := s.pipeline.journal.metrics

theorem metrics_report (verdict : Verdict) (kind : String) (j : Journal) :
    (RetryPolicy.report verdict kind j).metrics = j.metrics.increment
      (if verdict = .requeue then .requeues kind else .itemsDropped kind) := by
  cases verdict <;> rfl

/-- A step of a worker counts what there is to tell of it, and calls. -/
theorem Works.metrics (h : s.Works backend i o s') (ht : s.Calls) : ∃ calls : List Sample,
    (∀ sample ∈ calls, ∃ operation outcome, sample = .storeOperations operation outcome) ∧
      s'.metrics = (o.toList.flatMap (Incident.samples s.pipeline.kind.label) ++ calls).foldl
        Metrics.increment s.metrics := by
  cases h with
  | takes | leaves | looks | counts | desists | readds | delays | forgets | releases =>
    exact ⟨[], nofun, rfl⟩
  | talks hw hr hn =>
    have hkeeps := ht _ _ (List.mem_of_getElem? hw)
    have hmetrics := hkeeps.metrics_step backend s.pipeline.journal s.store
    rw [hn] at hmetrics
    exact hmetrics
  | succeeds => exact ⟨[], nofun, rfl⟩
  | judges hw hs hv =>
    refine ⟨[], nofun, (metrics_report _ _ _).trans ?_⟩
    rw [← hv]
    rfl

/-- What is counted when an item that follows from an event is added. -/
def handed (s : Shift σ) : Move → List Sample
  | .hand => s.owed.head?.toList.map fun item =>
    .eventsEnqueued s.pipeline.kind.label item.change.label
  | _ => []

theorem exists_of_mem_handed {sample : Sample} (h : sample ∈ s.handed m) :
    ∃ operation, sample = .eventsEnqueued s.pipeline.kind.label operation := by
  cases m with
  | hand =>
    obtain ⟨item, -, rfl⟩ := List.mem_map.1 h
    exact ⟨_, rfl⟩
  | start | tellToStop | respond | takeIn | add | abandon | work | fire | wait => cases h

/-- What a sum of samples goes up by with a move. Calls and the gauge of the running controllers
are not in it. -/
theorem Moves.read_metrics (h : s.Moves backend m o s') (ht : s.Calls) (hr : Metrics.Sums read sort)
    (hcalls : ∀ operation outcome, sort (.storeOperations operation outcome) = false)
    (hgauge : sort .controllersRunning = false) :
    read s'.metrics = read s.metrics +
      (s.handed m ++ o.toList.flatMap (Incident.samples s.pipeline.kind.label)).countP sort := by
  cases h with
  | starts | told | takesIn | adds | abandons | fires | waits => exact (Int.add_zero _).symm
  | @hands item owed ho =>
    have hcounted : s.handed .hand =
        [.eventsEnqueued s.pipeline.kind.label item.change.label] := by
      simp [handed, ho]
    rw [hcounted]
    exact hr.increments s.metrics [.eventsEnqueued s.pipeline.kind.label item.change.label]
  | works hw =>
    obtain ⟨calls, hall, hmetrics⟩ := hw.metrics ht
    have hnone : calls.countP sort = 0 := by
      rw [List.countP_eq_zero]
      intro sample hsample
      obtain ⟨operation, outcome, rfl⟩ := hall sample hsample
      simp [hcalls]
    rw [hmetrics, hr.increments, List.countP_append, hnone]
    rfl
  | @responds stimulus c hc =>
    have hsame : read c.pipeline.journal.metrics = read s.metrics := by
      cases hc with
      | starts | stops => exact hr.add_of_not hgauge s.metrics
      | fails | drains | reports => rfl
    change read c.pipeline.journal.metrics = _
    rw [hsame]
    split <;> exact (Int.add_zero _).symm

/-- Items become owed as events say that they lead to them, and are owed until they are added. -/
theorem Moves.owed (h : s.Moves backend m o s') :
    s'.owed.length + (s.handed m).length = s.owed.length + s.returned m := by
  cases h with
  | starts | told | responds | adds | abandons | fires | waits => rfl
  | @takesIn event cache ho hc =>
    have hreturned : s.returned (.takeIn event) =
        (s.pipeline.takenIn event cache).2.length := by
      simp [returned, Pipeline.receive?, hc]
    simp [hreturned, handed, ho, takenIn]
  | hands ho => simp [handed, returned, ho]
  | works hw =>
    have hsame : s'.owed = s.owed := by cases hw <;> rfl
    rw [hsame]
    rfl

/-- The events of a kind are all that is counted when owed items are added, and nothing else is. -/
theorem countP_isEvent (s : Shift σ) (m : Move) (o : Option Incident) :
    (s.handed m ++ o.toList.flatMap (Incident.samples s.pipeline.kind.label)).countP
      (Sample.isEvent s.pipeline.kind.label) = (s.handed m).length := by
  have htold : (o.toList.flatMap (Incident.samples s.pipeline.kind.label)).countP
      (Sample.isEvent s.pipeline.kind.label) = 0 := by
    cases o with
    | none => rfl
    | some i =>
      cases i with
      | failed item e verdict =>
        by_cases hv : verdict = .requeue <;> simp [Incident.samples, Sample.isEvent, hv]
      | added | closed | handedOut | succeeded | putOff | forgot | released =>
        simp [Incident.samples, Sample.isEvent]
  rw [List.countP_append, htold, Nat.add_zero, List.countP_eq_length]
  intro sample hsample
  obtain ⟨operation, rfl⟩ := exists_of_mem_handed hsample
  simp [Sample.isEvent]

/-- How the metrics stand to the record: every sum of samples about deliveries is what the record
says, and the events of the kind are what events were said to lead to. -/
structure Booked (s : Shift σ) (kind : Kind) (past : Record) (promised : Nat) : Prop where
  ofKind : s.pipeline.kind = kind
  calls : s.Calls
  deliveries : ∀ read sort, Metrics.Sums read sort →
    (∀ sample, sort sample = true → sample.isOfDelivery = true) →
    read s.metrics = past.counted kind.label sort
  events : s.metrics.total (Sample.isEvent kind.label) + s.owed.length = promised

theorem Booked.moves {kind : Kind} (h : s.Booked kind past promised)
    (hm : s.Moves backend m o s') :
    s'.Booked kind (o.toList ++ past) (s.returned m + promised) := by
  obtain ⟨rfl, hcalls, hdeliveries, hevents⟩ := h
  refine ⟨hm.kind, hm.onTopic hcalls willKeepTo_any, ?deliveries, ?events⟩
  case deliveries =>
    intro read sort hr hsort
    have hnot (sample : Sample) (hsample : sample.isOfDelivery = false) : sort sample = false := by
      by_cases hs : sort sample = true
      · rw [hsort sample hs] at hsample
        cases hsample
      · simpa using hs
    have hhanded : (s.handed m).countP sort = 0 := by
      rw [List.countP_eq_zero]
      intro sample hsample
      obtain ⟨operation, rfl⟩ := exists_of_mem_handed hsample
      simp [hnot (.eventsEnqueued _ operation) rfl]
    rw [hm.read_metrics hcalls hr (fun _ _ => hnot _ rfl) (hnot _ rfl),
      hdeliveries read sort hr hsort, List.countP_append, hhanded, Nat.zero_add]
    cases o with
    | none => exact Int.add_zero _
    | some i => simp [Record.counted_cons, Int.add_comm]
  case events =>
    have hread := hm.read_metrics hcalls (Metrics.sums_total (Sample.isEvent s.pipeline.kind.label))
      (fun _ _ => rfl) rfl
    have howed := hm.owed
    rw [countP_isEvent] at hread
    omega

theorem booked_initial (kind : Kind) (base max : Duration) (settings : ControllerSettings)
    (store : σ) : (initial kind base max settings store).Booked kind [] 0 where
  ofKind := rfl
  calls := onTopic_of_workers_eq_nil rfl
  deliveries _ _ hr _ := hr.initial
  events := rfl

theorem Booked.breakDown {kind : Kind} (h : s.Booked kind past promised) (i : Nat) :
    (s.breakDown i).Booked kind past promised := by
  refine ⟨h.ofKind, ?_, h.deliveries, h.events⟩
  intro item rest hmem
  rcases List.mem_or_eq_of_mem_set hmem with hmem | heq
  · exact h.calls item rest hmem
  · cases heq

section Audited

variable {kind : Kind} {base max : Duration} {settings : ControllerSettings} {store : σ}

theorem Audit.booked (h : Audit backend (initial kind base max settings store) past promised s) :
    s.Booked kind past promised := by
  induction h with
  | start => exact booked_initial kind base max settings store
  | move _ hm ih => exact ih.moves (moves_of_move? hm)
  | breakDown _ _ _ ih => exact ih.breakDown _

/-- Whenever no item is between being handed out and being released, the books balance. What a
worker had when it broke down is never released. -/
theorem Audit.books_balance
    (h : Audit backend (initial kind base max settings store) past promised s)
    (hrest : ∀ n, n ∉ s.backlog.held) :
    past.handedOut.length = s.metrics.value (.syncs kind.label) +
        s.metrics.total (Sample.isSyncError kind.label) ∧
      past.handedOut.length = s.metrics.value (.syncDurations kind.label) ∧
      s.metrics.total (Sample.isSyncError kind.label) =
        s.metrics.value (.requeues kind.label) + s.metrics.value (.itemsDropped kind.label) ∧
      (∀ n, (past.tally n).IsSettled → s.backlog.putOffs n = 0) ∧
      s.metrics.total (Sample.isEvent kind.label) + s.owed.length = promised := by
  obtain ⟨-, -, hdeliveries, hevents⟩ := h.booked
  have hvalue (sample : Sample) (hs : sample.isOfDelivery = true) :
      s.metrics.value sample = past.counted kind.label (sample = ·) := by
    refine hdeliveries (·.value sample) _ (Metrics.sums_value sample) fun other hother => ?_
    exact of_decide_eq_true hother ▸ hs
  have herrors : s.metrics.total (Sample.isSyncError kind.label) =
      past.counted kind.label (Sample.isSyncError kind.label) := by
    refine hdeliveries (·.total _) _ (Metrics.sums_total _) fun sample hsample => ?_
    cases sample with
    | syncErrors => rfl
    | eventsEnqueued | syncs | syncDurations | requeues | itemsDropped | queueDepth
    | storeOperations | controllersRunning => cases hsample
  obtain ⟨hends, hsorts, hfails⟩ := Record.counted_balance kind.label past
  have hsame := (h.handedOut_perm hrest).length_eq
  rw [hvalue _ rfl, hvalue _ rfl, hvalue _ rfl, hvalue _ rfl, herrors]
  refine ⟨by omega, by omega, by omega, fun n hs => h.putOffs_eq_zero hrest hs, hevents⟩

end Audited

section Example

open Rehearsal

def auditNode (name : String) : WatchedObject :=
  .node { metadata := { name := some name, resourceVersion := some "1" } }

def auditStart : Shift FaultyStore :=
  initial .node ⟨5000000⟩ ⟨1000000000⟩ ⟨3, 2, .ofSecs 60⟩
    { FaultyStore.initial with failCommits := 2 }

/-- A node is given up after it has been put off once, another is created while the controller is
told to stop, and two workers leave. -/
def auditMoves : List Move :=
  [.start, .takeIn .listBegins, .takeIn .listEnds, .respond .cache,
    .takeIn (.applied (auditNode "n1")), .hand] ++ List.replicate 12 (.work 0) ++
    [.wait 5000000, .fire 0] ++ List.replicate 12 (.work 0) ++
    [.takeIn (.applied (auditNode "n2")), .hand, .work 1, .tellToStop, .respond .stopRequest] ++
    List.replicate 12 (.work 1) ++ [.work 0]

def audited : Record × Shift FaultyStore := auditStart.play FaultyStore.backend [] auditMoves

/-- The third worker, which has had nothing to do, breaks down in the end. -/
def auditEnd : Shift FaultyStore := audited.2.breakDown 2

theorem audited_idle : audited.2.pipeline.workers.all (·.item?.isNone) = true ∧
    audited.2.pipeline.workers[2]?.map (·.isGone) = some false ∧
    (audited.1.tally (.cluster "n1")).endings.head?.map Ending.isRequeued = some false := by
  decide +kernel

theorem books_balance_of_audited : ∃ promised,
    Audit FaultyStore.backend auditStart audited.1 promised auditEnd ∧
      (∀ n, n ∉ auditEnd.backlog.held) ∧ audited.1.handedOut.length = 3 ∧
      auditEnd.metrics.value (.syncDurations "node") = 3 ∧
      auditEnd.metrics.value (.syncs "node") = 1 ∧
      auditEnd.metrics.total (Sample.isSyncError "node") = 2 ∧
      auditEnd.metrics.value (.requeues "node") = 1 ∧
      auditEnd.metrics.value (.itemsDropped "node") = 1 ∧
      (audited.1.tally (.cluster "n1")).IsSettled ∧
      auditEnd.backlog.putOffs (.cluster "n1") = 0 ∧ promised = 2 := by
  obtain ⟨hidle, hworker, hending⟩ := audited_idle
  have hreaches : Reaches FaultyStore.backend auditStart audited.1 audited.2 :=
    Reaches.start.play auditMoves
  obtain ⟨promised, haudit⟩ := hreaches.audit
  obtain ⟨w, hw, hgone⟩ := Option.map_eq_some_iff.1 hworker
  have hbroken : Audit FaultyStore.backend auditStart audited.1 promised auditEnd :=
    haudit.breakDown hw hgone
  have hrest : ∀ n, n ∉ auditEnd.backlog.held := by
    refine hreaches.inOrder.not_held fun w hw => ?_
    simpa using List.all_eq_true.1 hidle w hw
  have hsettled : (audited.1.tally (.cluster "n1")).IsSettled := Option.map_eq_some_iff.1 hending
  have hhandedOut : audited.1.handedOut.length = 3 := by decide +kernel
  have hevents : auditEnd.metrics.total (Sample.isEvent "node") + auditEnd.owed.length = 2 := by
    decide +kernel
  obtain ⟨-, htimed, -, hforgotten, hreturned⟩ := Audit.books_balance hbroken hrest
  have hpromised : (promised : Int) = 2 := hreturned.symm.trans hevents
  rw [hhandedOut] at htimed
  exact ⟨promised, hbroken, hrest, hhandedOut, htimed.symm, by decide +kernel, by decide +kernel,
    by decide +kernel, by decide +kernel, hsettled, hforgotten _ hsettled,
    Int.ofNat.inj hpromised⟩

end Example

end Shift
end ClusterSync

import ClusterSync.Proofs.Controller.Scene
import ClusterSync.Rehearsal.Store

/-!
# Retries that displace newer work

A delivery that fails puts its item back, at once or after a delay, and the item is added like any
other: it takes the place of the change that waits for its name. So a name is handed out with the
change that was added last, be it because of an event or because of an earlier failure.

**Theorem (`handedOut_ne_latestEvent_iff`).** Whatever is handed out has once followed from an
event. It is the change of the latest event of its name, unless a retry of another change was added
after that event and nothing since; then it is the change of the retry.

**Theorem (`retry_displaces_deletion`).** That happens: with a datastore that fails once, a name is
handed out as added although its latest event was a deletion.
-/

namespace ClusterSync

variable {σ : Type}

/-! ## Histories -/

/-- The item that is handed out. -/
def Occurrence.handedOut? : Occurrence σ → Option WorkItem
  | .handedOut item _ => some item
  | .enqueued _ | .requeued _ => none

theorem Occurrence.exists_of_handedOut? {o? : Option (Occurrence σ)} {item : WorkItem}
    (h : o?.bind handedOut? = some item) : ∃ found, o? = some (.handedOut item found) := by
  obtain ⟨o, rfl, ho⟩ := Option.bind_eq_some_iff.1 h
  cases o with
  | enqueued | requeued => cases ho
  | handedOut item store => cases ho; exact ⟨store, rfl⟩

/-- Whether something is added for a name. -/
def Occurrence.Adds (n : ObjectName) : Occurrence σ → Prop
  | .enqueued item | .requeued item => item.name = n
  | .handedOut .. => False

namespace History

variable {past : History σ} {item : WorkItem} {n : ObjectName} {c : Change}

/-- The change that the latest event of a name led to. -/
def latestEvent? (n : ObjectName) : History σ → Option Change
  | [] => none
  | .enqueued item :: past => if item.name = n then some item.change else latestEvent? n past
  | .requeued _ :: past | .handedOut .. :: past => latestEvent? n past

/-- The change that was added last for a name. -/
def latestAddition? (n : ObjectName) : History σ → Option Change
  | [] => none
  | .enqueued item :: past | .requeued item :: past =>
    if item.name = n then some item.change else latestAddition? n past
  | .handedOut .. :: past => latestAddition? n past

/-- A retry of the item was added after the latest event of its name, which led to another change,
and nothing has been added for the name since. -/
def Displaced (past : History σ) (item : WorkItem) : Prop :=
  ∃ later earlier, past = later ++ .requeued item :: earlier ∧
    (∀ o ∈ later, ¬ o.Adds item.name) ∧ latestEvent? item.name earlier ≠ some item.change

/-- Something that adds nothing for the name has occurred. -/
theorem Displaced.cons {o : Occurrence σ} (h : past.Displaced item) (ho : ¬ o.Adds item.name) :
    Displaced (o :: past) item := by
  obtain ⟨later, earlier, rfl, hlater, hevent⟩ := h
  refine ⟨o :: later, earlier, rfl, fun o' ho' => ?_, hevent⟩
  rcases List.mem_cons.1 ho' with rfl | ho'
  · exact ho
  · exact hlater o' ho'

theorem latestEvent?_append {later : History σ} (h : ∀ o ∈ later, ¬ o.Adds n) :
    latestEvent? n (later ++ past) = latestEvent? n past := by
  induction later with
  | nil => rfl
  | cons o later ih =>
    have ih := ih fun o' ho' => h o' (List.mem_cons_of_mem _ ho')
    have ho := h o List.mem_cons_self
    cases o with
    | enqueued item => exact (if_neg ho).trans ih
    | requeued item => exact ih
    | handedOut item store => exact ih

theorem exists_latestEvent? (h : .enqueued item ∈ past) :
    ∃ c, latestEvent? item.name past = some c := by
  induction past with
  | nil => cases h
  | cons o past ih =>
    have hrest : o ≠ .enqueued item → ∃ c, latestEvent? item.name past = some c := fun hne =>
      ih ((List.mem_cons.1 h).resolve_left (Ne.symm hne))
    cases o with
    | enqueued other =>
      by_cases hname : other.name = item.name
      · exact ⟨other.change, if_pos hname⟩
      · obtain ⟨c, hc⟩ := hrest fun heq => hname (by cases heq; rfl)
        exact ⟨c, (if_neg hname).trans hc⟩
    | requeued other => exact hrest nofun
    | handedOut other store => exact hrest nofun

/-- Induction on the history: the occurrence that decides is the latest that adds something for the
name. -/
theorem latestEvent?_ne_iff_displaced (h : latestAddition? item.name past = some item.change) :
    latestEvent? item.name past ≠ some item.change ↔ past.Displaced item := by
  constructor
  · intro hne
    induction past with
    | nil => cases h
    | cons o past ih =>
      cases o with
      | enqueued other =>
        unfold latestAddition? at h
        unfold latestEvent? at hne
        by_cases hname : other.name = item.name
        · rw [if_pos hname] at h hne
          exact absurd h hne
        · rw [if_neg hname] at h hne
          exact (ih h hne).cons hname
      | requeued other =>
        unfold latestAddition? at h
        by_cases hname : other.name = item.name
        · rw [if_pos hname] at h
          have hitem : other = item := by
            cases other; cases item; simp_all
          exact ⟨[], past, by rw [hitem]; rfl, nofun, hne⟩
        · rw [if_neg hname] at h
          exact (ih h hne).cons hname
      | handedOut other store => exact (ih h hne).cons id
  · rintro ⟨later, earlier, rfl, hlater, hevent⟩
    rwa [latestEvent?_append hlater]

end History

/-! ## What backlogs and workers recall -/

open History

/-- What waits is what was added last, and nothing waits or is put off that has not followed from an
event. -/
structure Backlog.Recalls (b : Backlog) (past : History σ) : Prop where
  isOpen : b.closed = false
  latest : ∀ {n : ObjectName} {c : Change}, b.pending[n]? = some c → latestAddition? n past = some c
  pending : ∀ {n : ObjectName} {c : Change}, b.pending[n]? = some c → .enqueued ⟨n, c⟩ ∈ past
  delayed : ∀ d ∈ b.delayed, .enqueued d.item ∈ past

namespace Backlog.Recalls

variable {b b' : Backlog} {past : History σ} {item : WorkItem}

theorem congr (h : b.Recalls past) (hc : b'.closed = b.closed) (hp : b'.pending = b.pending)
    (hd : ∀ d ∈ b'.delayed, .enqueued d.item ∈ past) : b'.Recalls past where
  isOpen := hc.trans h.isOpen
  latest hn := h.latest (hp ▸ hn)
  pending hn := h.pending (hp ▸ hn)
  delayed := hd

/-- An addition is recalled, whether it is an event's or a retry's. -/
theorem add (h : b.Recalls past) {o : Occurrence σ} (ho : .enqueued item ∈ o :: past)
    (hl : ∀ n, latestAddition? n (o :: past) =
      if item.name = n then some item.change else latestAddition? n past) :
    (b.add item).Recalls (o :: past) where
  isOpen := closed_add.trans h.isOpen
  latest {n c} hn := by
    rw [getElem?_pending_add h.isOpen] at hn
    rw [hl n]
    by_cases hname : item.name = n
    · rwa [if_pos hname] at hn ⊢
    · rw [if_neg hname] at hn ⊢
      exact h.latest hn
  pending {n c} hn := by
    rw [getElem?_pending_add h.isOpen] at hn
    split at hn
    · rename_i hname
      cases hn
      exact hname ▸ ho
    · exact List.mem_cons_of_mem _ (h.pending hn)
  delayed d hd := List.mem_cons_of_mem _ (h.delayed d (delayed_add ▸ hd))

theorem enqueue (h : b.Recalls past) (item : WorkItem) :
    (b.add item).Recalls (.enqueued item :: past) :=
  h.add List.mem_cons_self fun _ => rfl

theorem requeue (h : b.Recalls past) (hi : .enqueued item ∈ past) :
    (b.add item).Recalls (.requeued item :: past) :=
  h.add (List.mem_cons_of_mem _ hi) fun _ => rfl

theorem take (h : b.Recalls past) (hs : b.Sound) (ht : b.take? = some (item, b')) (store : σ) :
    b'.Recalls (.handedOut item store :: past) := by
  have hkeep : ∀ {n : ObjectName} {c : Change}, b'.pending[n]? = some c →
      b.pending[n]? = some c := fun hn => by
    rw [getElem?_pending_take hs ht] at hn
    split at hn
    · cases hn
    · exact hn
  obtain ⟨rest, -, -, -, rfl⟩ := take?_eq_some hs ht
  exact ⟨h.isOpen, fun hn => h.latest (hkeep hn),
    fun hn => List.mem_cons_of_mem _ (h.pending (hkeep hn)),
    fun d hd => List.mem_cons_of_mem _ (h.delayed d hd)⟩

end Backlog.Recalls

/-- What workers have has followed from an event. -/
def Worker.Recalled (workers : List Worker) (past : History σ) : Prop :=
  ∀ w ∈ workers, ∀ item, w.item? = some item → .enqueued item ∈ past

theorem Worker.Recalled.set {workers : List Worker} {past : History σ} {w : Worker}
    (h : Recalled workers past) (i : Nat)
    (hw : ∀ item, w.item? = some item → .enqueued item ∈ past) :
    Recalled (workers.set i w) past :=
  forall_mem_set h i hw

theorem Worker.Recalled.append {workers : List Worker} {past : History σ}
    (h : Recalled workers past) (later : History σ) : Recalled workers (later ++ past) :=
  fun w hw item hi => List.mem_append_right later (h w hw item hi)

structure Scene.Recalls (s : Scene σ) (past : History σ) : Prop where
  orderly : s.pipeline.Orderly
  backlog : s.pipeline.backlog.Recalls past
  workers : Worker.Recalled s.pipeline.workers past

namespace Scene

variable {s s' : Scene σ} {past : History σ} {backend : Backend σ} {item : WorkItem} {m : Move}

theorem recalls_initial (kind : Kind) (backoff : Backoff) (maxRetries workers : Nat) (store : σ) :
    (initial kind backoff maxRetries workers store).Recalls [] := by
  have hnothing : ∀ (n : ObjectName) (c : Change),
      (Backlog.initial backoff).pending[n]? ≠ some c := fun n c hn => by
    rw [Backlog.initial, Std.ExtTreeMap.getElem?_empty] at hn
    cases hn
  refine ⟨Pipeline.orderly_initial kind backoff maxRetries workers,
    ⟨rfl, fun hn => absurd hn (hnothing _ _), fun hn => absurd hn (hnothing _ _), nofun⟩,
    fun w hw item hi => ?_⟩
  rw [List.eq_of_mem_replicate hw] at hi
  cases hi

/-- A worker takes a step. -/
theorem Recalls.advance {i : Nat} {p : Pipeline} {store : σ} (h : s.Recalls past)
    (ha : s.pipeline.Advances backend s.now i s.store p store) :
    ({ s with pipeline := p, store } : Scene σ).Recalls
      ((s.occurs? (.advance i)).toList ++ past) := by
  have horderly := h.orderly.advance ha
  have hhas : ∀ {w : Worker} {item : WorkItem}, s.pipeline.workers[i]? = some w →
      w.item? = some item → .enqueued item ∈ past := fun hw hi =>
    h.workers _ (List.mem_of_getElem? hw) _ hi
  cases ha with
  | @takes item backlog hw ht =>
    obtain ⟨rest, -, hpending, -, -⟩ := Backlog.take?_eq_some h.orderly.sound ht
    rw [occurs?_takes hw ht]
    refine ⟨horderly, h.backlog.take h.orderly.sound ht s.store,
      (h.workers.append [.handedOut item s.store]).set i fun item' hi => ?_⟩
    cases hi
    exact List.mem_cons_of_mem _ (h.backlog.pending hpending)
  | leaves hw ht hc =>
    rw [occurs?_leaves hw ht]
    exact ⟨horderly, h.backlog, h.workers.set i nofun⟩
  | looks hw =>
    rw [occurs?_looks hw]
    exact ⟨horderly, h.backlog, h.workers.set i fun item' hi => hhas hw hi⟩
  | @concludes item result hw =>
    have hitem : .enqueued item ∈ past := hhas hw rfl
    obtain ⟨backoff, delayed, hd, hb⟩ := s.pipeline.backlog_conclude s.now item result
    have hdelayed : ∀ d ∈ delayed, .enqueued d.item ∈ past := fun d hmem =>
      (hd d hmem).elim (h.backlog.delayed d) fun heq => heq ▸ hitem
    rw [occurs?_concludes hw]
    refine ⟨horderly, ?_, ?_⟩
    · rw [Pipeline.backlog_setWorker, hb]
      cases hr : s.pipeline.readmits? item result with
      | none => exact h.backlog.congr rfl rfl hdelayed
      | some item' =>
        cases Pipeline.readmits?_eq_some hr
        exact (h.backlog.requeue hitem).congr rfl rfl fun d hmem =>
          List.mem_cons_of_mem _ (hdelayed d hmem)
    · rw [Pipeline.workers_setWorker, Pipeline.workers_conclude]
      refine (h.workers.append _).set i fun item' hi => ?_
      cases hi
      exact List.mem_append_right _ hitem
  | @talks item rest hw hr =>
    rw [occurs?_talks hw hr]
    exact ⟨horderly, h.backlog, h.workers.set i fun item' hi => hhas hw hi⟩
  | @releases item hw =>
    rw [occurs?_releases hw]
    refine ⟨horderly, h.backlog.congr Backlog.closed_release Backlog.pending_release ?_,
      h.workers.set i nofun⟩
    rw [Pipeline.backlog_setWorker, Backlog.delayed_release]
    exact h.backlog.delayed

/-- What one move preserves. -/
theorem Recalls.move (h : s.Recalls past) (hs : s.move? backend m = some s') :
    s'.Recalls ((s.occurs? m).toList ++ past) := by
  cases moves_of_move? hs with
  | takeIn => exact ⟨h.orderly.congr h.orderly.sound rfl rfl, h.backlog, h.workers⟩
  | @hand item owed ho =>
    rw [occurs?, ho]
    exact ⟨h.orderly.congr (h.orderly.sound.add item) rfl Backlog.held_add,
      h.backlog.enqueue item, h.workers.append [.enqueued item]⟩
  | advance ha => exact h.advance ha
  | @fire i d hd hdue =>
    have hitem := h.backlog.delayed d (List.mem_of_getElem? hd)
    have hrest : ∀ d' ∈ s.pipeline.backlog.delayed.eraseIdx i, .enqueued d'.item ∈ past :=
      fun d' hd' => h.backlog.delayed d' (List.mem_of_mem_eraseIdx hd')
    have hb : ({ s.pipeline.backlog with
        delayed := s.pipeline.backlog.delayed.eraseIdx i } : Backlog).Recalls past :=
      h.backlog.congr rfl rfl hrest
    rw [occurs?, hd]
    refine ⟨h.orderly.congr (h.orderly.sound.fire i) rfl Backlog.held_fire, ?_,
      h.workers.append [.requeued d.item]⟩
    rw [setBacklog, Backlog.fire, hd]
    exact hb.requeue hitem
  | wait time => exact ⟨h.orderly, h.backlog, h.workers⟩

/-- What a whole run preserves. -/
theorem Recalls.reaches {may : Scene σ → Move → Prop} {start : Scene σ} (h : start.Recalls [])
    (hr : Reaches backend may start past s) : s.Recalls past := by
  induction hr with
  | start => exact h
  | move _ _ hs ih => exact ih.move hs

/-- What is handed out is what was added last for its name, and has followed from an event. -/
theorem Recalls.handedOut {store : σ} (h : s.Recalls past)
    (ho : s.occurs? m = some (.handedOut item store)) :
    latestAddition? item.name past = some item.change ∧ .enqueued item ∈ past := by
  cases m with
  | takeIn event => cases ho
  | hand =>
    obtain ⟨_, -, ho⟩ := Option.map_eq_some_iff.1 ho
    cases ho
  | advance i =>
    rw [occurs?] at ho
    split at ho
    · obtain ⟨⟨item', b⟩, ht, heq⟩ := Option.map_eq_some_iff.1 ho
      cases heq
      obtain ⟨rest, -, hpending, -, -⟩ := Backlog.take?_eq_some h.orderly.sound ht
      exact ⟨h.backlog.latest hpending, h.backlog.pending hpending⟩
    · obtain ⟨_, -, ho⟩ := Option.map_eq_some_iff.1 ho
      cases ho
    · cases ho
  | fire i =>
    obtain ⟨_, -, ho⟩ := Option.map_eq_some_iff.1 ho
    cases ho
  | wait time => cases ho

/-- The change of the latest event is handed out, unless a retry of another one was added since. -/
theorem handedOut_ne_latestEvent_iff {may : Scene σ → Move → Prop} {kind : Kind} {backoff : Backoff}
    {maxRetries workers : Nat} {store found : σ}
    (hr : Reaches backend may (initial kind backoff maxRetries workers store) past s)
    (ho : s.occurs? m = some (.handedOut item found)) :
    .enqueued item ∈ past ∧ ∃ c, latestEvent? item.name past = some c ∧
      (item.change ≠ c ↔ past.Displaced item) := by
  have h := (recalls_initial kind backoff maxRetries workers store).reaches hr
  obtain ⟨hlatest, hevent⟩ := h.handedOut ho
  obtain ⟨c, hc⟩ := exists_latestEvent? hevent
  refine ⟨hevent, c, hc, ?_⟩
  rw [← latestEvent?_ne_iff_displaced hlatest, hc, ne_eq, ne_eq, Option.some.injEq, eq_comm]

section Example

open Rehearsal

/-- A node that appears, whose creation fails, and that goes away before it is tried again. -/
def failedNode : WatchedObject :=
  .node { metadata := { name := some "n1", resourceVersion := some "1" } }

def failedNodeMoves : List Move :=
  [.takeIn (.applied failedNode), .hand, .advance 0, .advance 0, .advance 0, .advance 0, .advance 0,
    .advance 0, .takeIn (.deleted failedNode), .hand, .wait 5000000, .fire 0]

def failedNodeStart : Scene FaultyStore :=
  initial .node (.initial ⟨5000000⟩ ⟨1000000000⟩) 5 1 { FaultyStore.initial with failCommits := 1 }

theorem failedNode_playable :
    failedNodeStart.Playable FaultyStore.backend (fun _ _ => True) failedNodeMoves := by
  decide +kernel

theorem failedNode_handedOut :
    ∃ found, (failedNodeStart.play FaultyStore.backend [] failedNodeMoves).2.occurs? (.advance 0) =
      some (.handedOut ⟨.cluster "n1", .add⟩ found) := by
  refine Occurrence.exists_of_handedOut? ?_
  decide +kernel

/-- The retry of the addition displaces the deletion. -/
theorem retry_displaces_deletion :
    ∃ past s found, Reaches FaultyStore.backend (fun _ _ => True) failedNodeStart past s ∧
      s.occurs? (.advance 0) = some (.handedOut ⟨.cluster "n1", .add⟩ found) ∧
      latestEvent? (.cluster "n1") past = some .delete := by
  obtain ⟨found, ho⟩ := failedNode_handedOut
  refine ⟨_, _, found, Reaches.start.play _ failedNode_playable, ho, ?_⟩
  decide +kernel

/-- The theorem at the same run. -/
theorem handedOut_ne_latestEvent_iff_of_failedNode :
    ∃ past s found, Reaches FaultyStore.backend (fun _ _ => True) failedNodeStart past s ∧
      s.occurs? (.advance 0) = some (.handedOut ⟨.cluster "n1", .add⟩ found) ∧
      .enqueued ⟨.cluster "n1", .add⟩ ∈ past ∧ ∃ c, latestEvent? (.cluster "n1") past = some c ∧
        (.add ≠ c ↔ past.Displaced ⟨.cluster "n1", .add⟩) := by
  obtain ⟨found, ho⟩ := failedNode_handedOut
  have hr : Reaches FaultyStore.backend (fun _ _ => True) failedNodeStart _ _ :=
    Reaches.start.play _ failedNode_playable
  exact ⟨_, _, found, hr, ho, handedOut_ne_latestEvent_iff hr ho⟩

end Example

end Scene

end ClusterSync

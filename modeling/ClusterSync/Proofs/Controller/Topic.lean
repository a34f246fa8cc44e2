import ClusterSync.Proofs.Controller.Shift
import ClusterSync.Proofs.Delivery.Confined

/-!
# What workers talk about

What a worker talks about with the datastore is settled when it looks its object up; from then on it
only gets on with what it has to say.

**Theorem (`Moves.onTopic`).** Whatever happens to a controller on duty, its workers keep to the
paths that their items allow, if each delivery that may begin does.

**Theorem (`Moves.getElem?_store`).** A move leaves all paths of a table alone that the items of the
workers do not allow.
-/

namespace ClusterSync.Shift

variable {σ : Type} {s s' : Shift σ} {backend : Backend σ} {m : Move} {o : Option Incident}
  {i : Nat} {about : WorkItem → String → Prop}

/-- Workers that talk to the datastore about a path only if their item allows it. -/
def OnTopic (s : Shift σ) (about : WorkItem → String → Prop) : Prop :=
  ∀ item rest, .talking item rest ∈ s.pipeline.workers → rest.KeepsTo (about item)

/-- Every delivery that a worker is about to begin keeps to what its item allows. -/
def WillKeepTo (s : Shift σ) (about : WorkItem → String → Prop) : Prop :=
  ∀ item, .holding item ∈ s.pipeline.workers →
    (Pipeline.delivery s.pipeline.kind s.pipeline.cache item).KeepsTo (about item)

/-- Workers that do nothing but make calls and report them. -/
abbrev Calls (s : Shift σ) : Prop := s.OnTopic fun _ _ => True

theorem willKeepTo_any : s.WillKeepTo fun _ _ => True := fun _ _ =>
  Pipeline.keepsTo_delivery_of_keys (fun _ _ => trivial) fun _ _ _ _ => trivial

theorem onTopic_of_workers_eq_nil (h : s.pipeline.workers = []) : s.OnTopic about := by
  intro item rest hmem
  rw [h] at hmem
  cases hmem

theorem Works.onTopic (h : s.Works backend i o s') (ht : s.OnTopic about)
    (hw : s.WillKeepTo about) : s'.OnTopic about := by
  have hset : ∀ {w : Worker},
      (∀ item rest, w = .talking item rest → rest.KeepsTo (about item)) →
      ∀ item rest, .talking item rest ∈ s.pipeline.workers.set i w →
        rest.KeepsTo (about item) := by
    intro w hw item rest hmem
    rcases List.mem_or_eq_of_mem_set hmem with hmem | heq
    · exact ht item rest hmem
    · exact hw item rest heq.symm
  cases h with
  | takes | leaves | succeeds | desists | readds | delays | forgets | releases => exact hset nofun
  | judges | counts => exact ht
  | looks hi =>
    refine hset fun item rest heq => ?_
    cases heq
    exact hw _ (List.mem_of_getElem? hi)
  | talks hi hr hn =>
    refine hset fun item rest heq => ?_
    cases heq
    have hkeeps := (ht _ _ (List.mem_of_getElem? hi)).step backend s.pipeline.journal s.store
    rw [hn] at hkeeps
    exact hkeeps

theorem Moves.onTopic (h : s.Moves backend m o s') (ht : s.OnTopic about)
    (hw : s.WillKeepTo about) : s'.OnTopic about := by
  cases h with
  | starts | told | takesIn | hands | adds | abandons | fires | waits => exact ht
  | works h => exact h.onTopic ht hw
  | responds hr =>
    cases hr with
    | starts =>
      intro item rest hmem
      cases List.eq_of_mem_replicate hmem
    | fails | drains | reports | stops => exact ht

/-- Only a worker that talks changes the datastore. -/
theorem Works.getElem?_store {s s' : Shift Table} {path : String}
    (h : s.Works Table.backend i o s') (ht : s.OnTopic about)
    (hp : ∀ item rest, s.pipeline.workers[i]? = some (.talking item rest) → ¬ about item path) :
    s'.store.entries[path]? = s.store.entries[path]? := by
  cases h with
  | @talks item rest next journal store hi hr hn =>
    have hkeeps := ht item rest (List.mem_of_getElem? hi)
    have hsame := hkeeps.getElem?_step s.pipeline.journal s.store (hp item rest hi)
    rw [hn] at hsame
    exact hsame
  | takes | leaves | looks | succeeds | judges | counts | desists | readds | delays | forgets
  | releases => rfl

theorem Moves.getElem?_store {s s' : Shift Table} {path : String}
    (h : s.Moves Table.backend m o s') (ht : s.OnTopic about)
    (hp : ∀ (i : Nat) item rest, s.pipeline.workers[i]? = some (.talking item rest) →
      ¬ about item path) :
    s'.store.entries[path]? = s.store.entries[path]? := by
  cases h with
  | @works i _ _ h => exact h.getElem?_store ht (hp i)
  | starts | told | responds | takesIn | hands | adds | abandons | fires | waits => rfl

/-! ## Tables that controllers leave behind -/

theorem Works.reached {s s' : Shift Table} (h : s.Works Table.backend i o s')
    (hs : s.store.Reached) : s'.store.Reached := by
  cases h with
  | @talks item rest next journal store hw hr hn =>
    have hstep := Dialogue.reached_step hs rest s.pipeline.journal
    rw [hn] at hstep
    exact hstep
  | takes | leaves | looks | succeeds | judges | counts | desists | readds | delays | forgets
  | releases => exact hs

theorem Moves.reached {s s' : Shift Table} (h : s.Moves Table.backend m o s')
    (hs : s.store.Reached) : s'.store.Reached := by
  cases h with
  | works hw => exact hw.reached hs
  | starts | told | responds | takesIn | hands | adds | abandons | fires | waits => exact hs

theorem Reaches.reached {first s : Shift Table} {past : Record}
    (h : Reaches Table.backend first past s) (hf : first.store.Reached) : s.store.Reached := by
  induction h with
  | start => exact hf
  | move _ hm ih => exact (moves_of_move? hm).reached ih

end ClusterSync.Shift

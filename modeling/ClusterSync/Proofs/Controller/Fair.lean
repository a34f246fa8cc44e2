import Mathlib.Data.List.Basic
import ClusterSync.Proofs.Controller.Drain

/-!
# Fair schedules

A run tries one move after the other, as a schedule says, and passes over those that cannot be made.
A schedule is fair if no worker that has something to do waits forever for its turn, no delayed work
stays where it is once its delay is over, and time goes on.

**Theorem (`Fair.released`).** In a fair run a worker that has an item comes to release it. How long
it talks to the datastore depends on the answers, so this is by induction on the dialogue.

**Theorem (`Fair.takes`).** A name that is to be handed out does not stay there forever: some worker
always comes back, and whoever takes an item brings the name forward.
-/

namespace ClusterSync

variable {σ : Type}

/-- What holds until something happens holds when it happens first. -/
theorem exists_first {P Q : Nat → Prop} {t u : Nat} (hP : P t) (htu : t ≤ u) (hQ : Q u)
    (hstep : ∀ v, t ≤ v → P v → ¬ Q v → P (v + 1)) : ∃ v, t ≤ v ∧ P v ∧ Q v := by
  obtain ⟨k, rfl⟩ := Nat.exists_eq_add_of_le htu
  clear htu
  induction k generalizing t with
  | zero => exact ⟨t, Nat.le_refl t, hP, hQ⟩
  | succ k ih =>
    by_cases hnow : Q t
    · exact ⟨t, Nat.le_refl t, hP, hnow⟩
    · have hQ' : Q (t + 1 + k) := by rwa [Nat.add_assoc, Nat.add_comm 1 k]
      obtain ⟨v, hv, hfirst⟩ := ih (hstep t (Nat.le_refl t) hP hnow)
        (fun v hv => hstep v (Nat.le_of_succ_le hv)) hQ'
      exact ⟨v, Nat.le_of_succ_le hv, hfirst⟩

/-- How many steps a worker needs after a failure until it releases its item. -/
def RetryStage.ahead : RetryStage → Nat
  | .unjudged => 3
  | .counting => 2
  | .returning _ | .forgetting => 1

namespace Shift

variable {s s' : Shift σ} {backend : Backend σ} {i : Nat} {o : Option Incident} {m : Move}
  {item : WorkItem} {w : Worker}

/-! ## What moves leave to a worker -/

theorem Works.getElem?_of_ne {j : Nat} (h : s.Works backend j o s') (hij : j ≠ i) :
    s'.pipeline.workers[i]? = s.pipeline.workers[i]? ∧ s'.stages i = s.stages i := by
  obtain ⟨⟨_, _, -, -, hset⟩, -, -, -, -, hothers⟩ := h.keeps
  rw [hset]
  exact ⟨List.getElem?_set_ne hij, hothers i hij⟩

/-- A worker goes on only when it is its turn. -/
theorem Moves.spares (hm : s.Moves backend m o s') (hc : s.OnCourse) (hne : m ≠ .work i)
    (hw : s.pipeline.workers[i]? = some w) :
    s'.pipeline.workers[i]? = some w ∧ s'.stages i = s.stages i := by
  cases hm with
  | starts | told | takesIn | hands | adds | abandons | fires | waits => exact ⟨hw, rfl⟩
  | @works j o s' hworks =>
    obtain ⟨hsame, hstage⟩ := hworks.getElem?_of_ne fun heq => hne (congrArg Move.work heq)
    exact ⟨hsame.trans hw, hstage⟩
  | responds hr =>
    cases hr with
    | starts hs =>
      unfold OnCourse at hc
      rw [hs] at hc
      rw [hc.1] at hw
      simp at hw
    | fails | drains | reports | stops => exact ⟨hw, rfl⟩

/-- A backlog that is closed stays closed. -/
theorem Moves.closed (hm : s.Moves backend m o s') (hc : s.backlog.closed = true) :
    s'.backlog.closed = true := by
  cases hm with
  | starts | told | takesIn | abandons | waits => exact hc
  | hands | adds => exact Backlog.closed_add.trans hc
  | fires => exact Backlog.closed_fire.trans hc
  | works hw => exact hw.keeps.closed.trans hc
  | responds hr =>
    cases hr with
    | starts | reports | stops => exact hc
    | fails | drains => rfl

/-! ## What a worker does in its turn -/

theorem work?_ne_none (hw : s.pipeline.workers[i]? = some w)
    (h : w.item?.isSome ∨ w = .idle ∧ s.backlog.ready ≠ []) : s.work? backend i ≠ none := by
  unfold work?
  rw [hw]
  cases w with
  | idle =>
    obtain ⟨-, hready⟩ := h.resolve_left (by simp [Worker.item?])
    have htake : s.pipeline.backlog.take? ≠ none := mt Backlog.take?_eq_none_iff.1 hready
    obtain ⟨next, hnext⟩ := Option.ne_none_iff_exists'.1 htake
    simp [Pipeline.advance?, hw, hnext]
  | holding | releasing => simp [Pipeline.advance?, hw]
  | talking item rest =>
    cases rest with
    | done result => cases result <;> simp [Pipeline.advance?, hw]
    | commit | read | log | count => simp [Pipeline.advance?, hw]
  | finished | broken => simp [Worker.item?] at h

theorem work?_eq_none (hidle : ∀ w ∈ s.pipeline.workers, w = .idle)
    (hready : s.backlog.ready = []) (hopen : s.backlog.closed = false) :
    s.work? backend i = none := by
  have htake : s.pipeline.backlog.take? = none := Backlog.take?_eq_none_iff.2 hready
  have hclosed : s.pipeline.backlog.closed = false := hopen
  unfold work?
  split
  · rfl
  · rename_i hw
    cases hidle _ (List.mem_of_getElem? hw)
  · rename_i hw
    cases hidle _ (List.mem_of_getElem? hw)
    simp [Pipeline.advance?, hw, htake, hclosed]

theorem Works.of_holding (h : s.Works backend i o s')
    (hw : s.pipeline.workers[i]? = some (.holding item)) :
    ∃ rest, s'.pipeline.workers[i]? = some (.talking item rest) := by
  cases h with
  | looks hw' =>
    cases hw.symm.trans hw'
    exact ⟨_, Pipeline.getElem?_setWorker_self hw⟩
  | takes hw' | leaves hw' | talks hw' | succeeds hw' | judges hw' | counts hw' | desists hw'
  | readds hw' | delays hw' | forgets hw' | releases hw' => cases hw.symm.trans hw'

theorem Works.of_talking {rest : Dialogue (Except DeliveryError Unit)}
    (h : s.Works backend i o s') (hw : s.pipeline.workers[i]? = some (.talking item rest))
    (hr : ∀ result, rest ≠ .done result) :
    s'.pipeline.workers[i]? =
      some (.talking item (rest.step backend s.pipeline.journal s.store).1) := by
  cases h with
  | talks hw' _ hn =>
    cases hw.symm.trans hw'
    rw [hn]
    exact Pipeline.getElem?_setWorker_self hw
  | succeeds hw' | judges hw' | counts hw' | desists hw' | readds hw' | delays hw'
  | forgets hw' =>
    cases hw.symm.trans hw'
    exact absurd rfl (hr _)
  | takes hw' | leaves hw' | looks hw' | releases hw' => cases hw.symm.trans hw'

theorem Works.of_succeeded (h : s.Works backend i o s')
    (hw : s.pipeline.workers[i]? = some (.talking item (.done (.ok ())))) :
    s'.pipeline.workers[i]? = some (.releasing item) := by
  cases h with
  | succeeds hw' =>
    cases hw.symm.trans hw'
    exact Pipeline.getElem?_setWorker_self hw
  | talks hw' hr =>
    cases hw.symm.trans hw'
    exact absurd rfl (hr _)
  | takes hw' | leaves hw' | looks hw' | judges hw' | counts hw' | desists hw' | readds hw'
  | delays hw' | forgets hw' | releases hw' => cases hw.symm.trans hw'

/-- A worker whose delivery has failed gets nearer to the release of its item. -/
theorem Works.of_failed {e : DeliveryError} (h : s.Works backend i o s')
    (hw : s.pipeline.workers[i]? = some (.talking item (.done (.error e)))) :
    s'.pipeline.workers[i]? = some (.releasing item) ∨
    s'.pipeline.workers[i]? = some (.talking item (.done (.error e))) ∧
      (s'.stages i).ahead < (s.stages i).ahead := by
  cases h with
  | @judges item' e' verdict hw' hs =>
    refine .inr ⟨hw, ?_⟩
    rw [stages_setStage, if_pos rfl, hs]
    split <;> decide
  | counts hw' hs =>
    refine .inr ⟨hw, ?_⟩
    rw [stages_setStage, if_pos rfl, hs]
    exact Nat.lt_succ_self 1
  | desists hw' | readds hw' | delays hw' | forgets hw' =>
    cases hw.symm.trans hw'
    exact .inl (Pipeline.getElem?_setWorker_self hw)
  | talks hw' hr =>
    cases hw.symm.trans hw'
    exact absurd rfl (hr _)
  | takes hw' | leaves hw' | looks hw' | succeeds hw' | releases hw' =>
    cases hw.symm.trans hw'

theorem Works.of_releasing (h : s.Works backend i o s')
    (hw : s.pipeline.workers[i]? = some (.releasing item)) :
    s'.pipeline.workers[i]? = some .idle ∧ item.name ∉ s'.backlog.held := by
  cases h with
  | releases hw' =>
    cases hw.symm.trans hw'
    exact ⟨Pipeline.getElem?_setWorker_self hw, fun hn => (Backlog.mem_held_release.1 hn).1 rfl⟩
  | takes hw' | leaves hw' | looks hw' | talks hw' | succeeds hw' | judges hw' | counts hw'
  | desists hw' | readds hw' | delays hw' | forgets hw' => cases hw.symm.trans hw'

/-- A worker that waits takes the first name if there is one. -/
theorem Works.of_idle (h : s.Works backend i o s')
    (hw : s.pipeline.workers[i]? = some .idle) (hr : s.backlog.ready ≠ []) :
    ∃ n, s.backlog.ready = n :: s'.backlog.ready := by
  cases h with
  | takes hw' ht => exact ⟨_, Backlog.ready_take ht⟩
  | leaves hw' ht => exact absurd (Backlog.take?_eq_none_iff.1 ht) hr
  | looks hw' | talks hw' | succeeds hw' | judges hw' | counts hw' | desists hw' | readds hw'
  | delays hw' | forgets hw' | releases hw' => cases hw.symm.trans hw'

/-- Names are added at the end and handed out from the front. -/
theorem Moves.ready (hm : s.Moves backend m o s') :
    (∃ names, s'.backlog.ready = s.backlog.ready ++ names) ∨
    ∃ n, s.backlog.ready = n :: s'.backlog.ready := by
  have hsame : ∃ names, s.backlog.ready = s.backlog.ready ++ names := ⟨[], by simp⟩
  cases hm with
  | starts | told | takesIn | abandons | waits => exact .inl hsame
  | hands | adds => exact .inl (Backlog.ready_add _ _)
  | @fires i d hd =>
    obtain ⟨before, after, -, hfire⟩ := Backlog.exists_fire hd
    refine .inl ?_
    change ∃ names, (s.backlog.fire i).ready = _
    rw [hfire]
    exact Backlog.ready_add _ _
  | responds hr =>
    cases hr with
    | starts | fails | drains | reports | stops => exact .inl hsame
  | works hw =>
    cases hw with
    | takes hw ht => exact .inr ⟨_, Backlog.ready_take ht⟩
    | leaves | looks | talks | succeeds | judges | counts | desists | delays | forgets =>
      exact .inl hsame
    | readds => exact .inl (Backlog.ready_add _ _)
    | releases =>
      refine .inl ?_
      change ∃ names, (s.backlog.release _).ready = _
      rw [Backlog.ready_release]
      split
      · exact ⟨_, rfl⟩
      · exact hsame

/-- A name comes nearer to the front while it is not handed out. -/
theorem idxOf_lt_of_cons {n m : ObjectName} {names : List ObjectName} (h : (m :: names).Nodup)
    (hn : n ∈ names) : names.idxOf n < (m :: names).idxOf n := by
  have hne : m ≠ n := by
    rintro rfl
    exact (List.nodup_cons.1 h).1 hn
  rw [List.idxOf_cons_ne names hne]
  exact Nat.lt_succ_self _

theorem Moves.idxOf_ready_le {n : ObjectName} (hm : s.Moves backend m o s') (hs : s.InOrder)
    (hn : n ∈ s.backlog.ready) (hn' : n ∈ s'.backlog.ready) :
    s'.backlog.ready.idxOf n ≤ s.backlog.ready.idxOf n := by
  have hnodup : s.backlog.ready.Nodup := hs.orderly.sound.nodup
  rcases hm.ready with ⟨names, hready⟩ | ⟨m, hready⟩
  · rw [hready]
    exact Nat.le_of_eq (List.idxOf_append_of_mem hn)
  · rw [hready] at hnodup ⊢
    exact Nat.le_of_lt (idxOf_lt_of_cons hnodup hn')

/-! ## Runs -/

/-- A controller, what it works with, and the moves that are tried at each instant of a count. -/
structure Run (σ : Type) where
  backend : Backend σ
  kind : Kind
  base : Duration
  max : Duration
  settings : ControllerSettings
  store : σ
  schedule : Nat → Move

namespace Run

variable {r : Run σ} {t u : Nat}

def start (r : Run σ) : Shift σ := initial r.kind r.base r.max r.settings r.store

/-- The record of the first moves. -/
def past (r : Run σ) (t : Nat) : Record :=
  (play r.backend [] r.start ((List.range t).map r.schedule)).1

/-- The shift after the first moves. -/
def shift (r : Run σ) (t : Nat) : Shift σ :=
  (play r.backend [] r.start ((List.range t).map r.schedule)).2

theorem reaches (r : Run σ) (t : Nat) :
    Reaches r.backend (initial r.kind r.base r.max r.settings r.store) (r.past t) (r.shift t) :=
  Reaches.start.play _

theorem step (r : Run σ) (t : Nat) :
    (r.shift t).move? r.backend (r.schedule t) = none ∧
      r.past (t + 1) = r.past t ∧ r.shift (t + 1) = r.shift t ∨
    ∃ o, (r.shift t).move? r.backend (r.schedule t) = some (o, r.shift (t + 1)) ∧
      r.past (t + 1) = o.toList ++ r.past t := by
  unfold past shift
  rw [List.range_succ, List.map_append, play_append]
  generalize play r.backend [] r.start ((List.range t).map r.schedule) = played
  simp only [List.map_cons, List.map_nil, play]
  cases played.2.move? r.backend (r.schedule t) with
  | none => exact .inl ⟨rfl, rfl, rfl⟩
  | some next => exact .inr ⟨next.1, rfl, rfl⟩

/-- What a shift keeps when it makes a move or none. -/
theorem keeps {P : Shift σ → Prop} (htu : t ≤ u) (h : P (r.shift t))
    (hstep : ∀ {m o s s'}, s.OnCourse → s.Moves r.backend m o s' → P s → P s') :
    P (r.shift u) := by
  induction htu with
  | refl => exact h
  | @step v _ ih =>
    rcases r.step v with ⟨-, -, hsame⟩ | ⟨o, hm, -⟩
    · exact hsame ▸ ih
    · exact hstep (r.reaches _).onCourse (moves_of_move? hm) ih

theorem closed_of_le (htu : t ≤ u) (hc : (r.shift t).backlog.closed = true) :
    (r.shift u).backlog.closed = true :=
  r.keeps (P := fun s => s.backlog.closed = true) htu hc fun _ hm hc => hm.closed hc

/-- Workers stay at their places. -/
theorem exists_worker (htu : t ≤ u) (hw : (r.shift t).pipeline.workers[i]? = some w)
    (hopen : (r.shift u).backlog.closed = false) :
    ∃ w', (r.shift u).pipeline.workers[i]? = some w' ∧ w'.isGone = false := by
  have hsome : ∃ w', (r.shift u).pipeline.workers[i]? = some w' := by
    refine r.keeps (P := fun s => ∃ w', s.pipeline.workers[i]? = some w') htu ⟨w, hw⟩ ?_
    rintro m o s s' hc hm ⟨v, hv⟩
    by_cases hi : m = .work i
    · subst hi
      cases hm with
      | works hworks =>
        obtain ⟨⟨_, v', hlt, -, hset⟩, -⟩ := hworks.keeps
        exact ⟨v', hset ▸ List.getElem?_set_self (List.getElem?_eq_some_iff.1 hlt).1⟩
    · exact ⟨v, (hm.spares hc hi hv).1⟩
  obtain ⟨w', hw'⟩ := hsome
  refine ⟨w', hw', Bool.eq_false_iff.2 fun hgone => ?_⟩
  have hclosed := ((r.reaches u).leaving.gone w' (List.mem_of_getElem? hw') hgone).2
  cases hopen.symm.trans hclosed

/-- A schedule under which nobody waits forever. -/
structure Fair (r : Run σ) : Prop where
  /-- A worker gets its turn, or has nothing to do for a moment. -/
  workers : ∀ i t, ∃ u, t ≤ u ∧
    (r.schedule u = .work i ∨ (r.shift u).work? r.backend i = none)
  /-- Work does not stay delayed when its delay is over. -/
  timers : ∀ d t, d ∈ (r.shift t).backlog.delayed → d.due ≤ (r.shift t).now →
    ∃ u, t ≤ u ∧ d ∉ (r.shift u).backlog.delayed
  time : ∀ limit t, ∃ u, t ≤ u ∧ limit ≤ (r.shift u).now

/-! ## Workers come back -/

/-- A worker that has something to do is as it was until it does that. -/
theorem Fair.works (hf : r.Fair) (hw : (r.shift t).pipeline.workers[i]? = some w)
    (hbusy : ∀ u, t ≤ u → w.item?.isSome ∨ w = .idle ∧ (r.shift u).backlog.ready ≠ []) :
    ∃ u o, t ≤ u ∧ (r.shift u).pipeline.workers[i]? = some w ∧
      (r.shift u).stages i = (r.shift t).stages i ∧
      (r.shift u).Works r.backend i o (r.shift (u + 1)) := by
  obtain ⟨v, hv, hturn⟩ := hf.workers i t
  have hkeep : ∀ u, t ≤ u → ((r.shift u).pipeline.workers[i]? = some w ∧
      (r.shift u).stages i = (r.shift t).stages i) →
      ¬ (r.schedule u = .work i ∨ (r.shift u).work? r.backend i = none) →
      (r.shift (u + 1)).pipeline.workers[i]? = some w ∧
        (r.shift (u + 1)).stages i = (r.shift t).stages i := by
    rintro u - ⟨hw', hstage⟩ hnot
    rcases r.step u with ⟨-, -, hsame⟩ | ⟨o, hm, -⟩
    · rw [hsame]
      exact ⟨hw', hstage⟩
    · have hspares := (moves_of_move? hm).spares (r.reaches u).onCourse (hnot ∘ .inl) hw'
      exact ⟨hspares.1, hspares.2.trans hstage⟩
  obtain ⟨u, htu, ⟨hw', hstage⟩, hturn⟩ := exists_first ⟨hw, rfl⟩ hv hturn hkeep
  have hsome : (r.shift u).work? r.backend i ≠ none := work?_ne_none hw' (hbusy u htu)
  have hschedule := hturn.resolve_right hsome
  rcases r.step u with ⟨hnone, -⟩ | ⟨o, hm, -⟩
  · rw [hschedule] at hnone
    exact absurd hnone hsome
  · rw [hschedule] at hm
    exact ⟨u, o, htu, hw', hstage, works_of_work? hm⟩

theorem Fair.releasing_of_failed (hf : r.Fair) {e : DeliveryError}
    (hw : (r.shift t).pipeline.workers[i]? = some (.talking item (.done (.error e)))) :
    ∃ u, t ≤ u ∧ (r.shift u).pipeline.workers[i]? = some (.releasing item) := by
  generalize hk : ((r.shift t).stages i).ahead = k
  induction k using Nat.strongRecOn generalizing t with
  | ind k ih =>
    obtain ⟨u, o, htu, hw', hstage, hworks⟩ := hf.works hw fun _ _ => .inl rfl
    rcases hworks.of_failed hw' with hreleasing | ⟨hfailed, hless⟩
    · exact ⟨u + 1, Nat.le_succ_of_le htu, hreleasing⟩
    · rw [hstage, hk] at hless
      obtain ⟨v, huv, hreleasing⟩ := ih _ hless hfailed rfl
      exact ⟨v, Nat.le_trans (Nat.le_succ_of_le htu) huv, hreleasing⟩

theorem Fair.releasing_of_talking (hf : r.Fair) {rest : Dialogue (Except DeliveryError Unit)}
    (hw : (r.shift t).pipeline.workers[i]? = some (.talking item rest)) :
    ∃ u, t ≤ u ∧ (r.shift u).pipeline.workers[i]? = some (.releasing item) := by
  -- Whatever the answer is, what is left to be said after it is a part of the dialogue.
  have hgo : ∀ {rest : Dialogue (Except DeliveryError Unit)} {t : Nat},
      (r.shift t).pipeline.workers[i]? = some (.talking item rest) →
      (∀ result, rest ≠ .done result) → ∃ u journal store, t ≤ u ∧
        (r.shift (u + 1)).pipeline.workers[i]? =
          some (.talking item (rest.step r.backend journal store).1) := by
    intro rest t hw hr
    obtain ⟨u, o, htu, hw', -, hworks⟩ := hf.works hw fun _ _ => .inl rfl
    exact ⟨u, _, _, htu, hworks.of_talking hw' hr⟩
  induction rest generalizing t with
  | done result =>
    cases result with
    | ok =>
      obtain ⟨u, o, htu, hw', -, hworks⟩ := hf.works hw fun _ _ => .inl rfl
      exact ⟨u + 1, Nat.le_succ_of_le htu, hworks.of_succeeded hw'⟩
    | error e => exact hf.releasing_of_failed hw
  | commit x next ih | read path next ih =>
    obtain ⟨u, journal, store, htu, hnext⟩ := hgo hw nofun
    obtain ⟨v, huv, hreleasing⟩ := ih _ hnext
    exact ⟨v, Nat.le_trans (Nat.le_succ_of_le htu) huv, hreleasing⟩
  | log event next ih | count sample next ih =>
    obtain ⟨u, journal, store, htu, hnext⟩ := hgo hw nofun
    obtain ⟨v, huv, hreleasing⟩ := ih hnext
    exact ⟨v, Nat.le_trans (Nat.le_succ_of_le htu) huv, hreleasing⟩

/-- A worker that has an item comes to release it. -/
theorem Fair.released (hf : r.Fair) (hw : (r.shift t).pipeline.workers[i]? = some w)
    (hitem : w.item? = some item) :
    ∃ u, t ≤ u ∧ (r.shift (u + 1)).pipeline.workers[i]? = some .idle ∧
      item.name ∉ (r.shift (u + 1)).backlog.held := by
  have hreleasing : ∃ u, t ≤ u ∧
      (r.shift u).pipeline.workers[i]? = some (.releasing item) := by
    cases w with
    | idle | finished | broken => cases hitem
    | holding item' =>
      cases hitem
      obtain ⟨u, o, htu, hw', -, hworks⟩ := hf.works hw fun _ _ => .inl rfl
      obtain ⟨rest, htalking⟩ := hworks.of_holding hw'
      obtain ⟨v, huv, hreleasing⟩ := hf.releasing_of_talking htalking
      exact ⟨v, Nat.le_trans (Nat.le_succ_of_le htu) huv, hreleasing⟩
    | talking item' rest =>
      cases hitem
      exact hf.releasing_of_talking hw
    | releasing item' =>
      cases hitem
      exact ⟨t, Nat.le_refl t, hw⟩
  obtain ⟨u, htu, hreleasing⟩ := hreleasing
  obtain ⟨v, o, huv, hw', -, hworks⟩ := hf.works hreleasing fun _ _ => .inl rfl
  exact ⟨v, Nat.le_trans htu huv, hworks.of_releasing hw'⟩

theorem Fair.idle (hf : r.Fair) (hw : (r.shift t).pipeline.workers[i]? = some w)
    (hgone : w.isGone = false) :
    ∃ u, t ≤ u ∧ (r.shift u).pipeline.workers[i]? = some .idle := by
  have hback : ∀ {item : WorkItem}, w.item? = some item →
      ∃ u, t ≤ u ∧ (r.shift u).pipeline.workers[i]? = some .idle := fun hitem => by
    obtain ⟨u, htu, hidle, -⟩ := hf.released hw hitem
    exact ⟨u + 1, Nat.le_succ_of_le htu, hidle⟩
  cases w with
  | idle => exact ⟨t, Nat.le_refl t, hw⟩
  | holding | talking | releasing => exact hback rfl
  | finished | broken => cases hgone

/-! ## Nothing stays where it is -/

/-- A name that is to be handed out does not stay in front of workers that come back. -/
theorem Fair.takes (hf : r.Fair) (hopen : ∀ t, (r.shift t).backlog.closed = false)
    (hw : (r.shift t).pipeline.workers[i]? = some w) (n : ObjectName) :
    ∃ u, t ≤ u ∧ n ∉ (r.shift u).backlog.ready := by
  by_contra hstays
  have hready : ∀ u, t ≤ u → n ∈ (r.shift u).backlog.ready := fun u htu => by
    by_contra hn
    exact hstays ⟨u, htu, hn⟩
  have hle : ∀ {u v}, t ≤ u → u ≤ v → (r.shift v).backlog.ready.idxOf n ≤
      (r.shift u).backlog.ready.idxOf n := by
    intro u v htu huv
    induction huv with
    | refl => exact Nat.le_refl _
    | @step v huv ih =>
      refine Nat.le_trans ?_ ih
      rcases r.step v with ⟨-, -, hsame⟩ | ⟨o, hm, -⟩
      · exact Nat.le_of_eq (by rw [hsame])
      · have htv := Nat.le_trans htu huv
        exact (moves_of_move? hm).idxOf_ready_le (r.reaches v).inOrder (hready v htv)
          (hready (v + 1) (Nat.le_succ_of_le htv))
  have hnever : ∀ k u, t ≤ u → (r.shift u).backlog.ready.idxOf n = k → False := by
    intro k
    induction k using Nat.strongRecOn with
    | ind k ih =>
      rintro u htu rfl
      obtain ⟨v, hv, hgone⟩ := r.exists_worker htu hw (hopen u)
      obtain ⟨u', huu', hidle⟩ := hf.idle hv hgone
      have htu' := Nat.le_trans htu huu'
      obtain ⟨u'', o, hu', hidle', -, hworks⟩ := hf.works hidle fun x hx =>
        .inr ⟨rfl, List.ne_nil_of_mem (hready x (Nat.le_trans htu' hx))⟩
      have htu'' := Nat.le_trans htu' hu'
      have hmem := hready (u'' + 1) (Nat.le_succ_of_le htu'')
      obtain ⟨m, hcons⟩ := hworks.of_idle hidle' (List.ne_nil_of_mem (hready u'' htu''))
      have hnodup : (r.shift u'').backlog.ready.Nodup := (r.reaches u'').inOrder.orderly.sound.nodup
      have hless := idxOf_lt_of_cons (hcons ▸ hnodup) hmem
      rw [← hcons] at hless
      have hback := Nat.lt_of_lt_of_le hless (hle htu (Nat.le_trans huu' hu'))
      exact ih _ hback (u'' + 1) (Nat.le_succ_of_le htu'') rfl
  exact hnever _ t (Nat.le_refl t) rfl

end Run

end Shift
end ClusterSync

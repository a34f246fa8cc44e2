import ClusterSync.Proofs.Controller.Attempts
import ClusterSync.Proofs.Controller.Fair

/-!
# Names that settle

What is added once comes to rest in a fair run, as long as the backlog is open. The way there is
short: every step that concerns the name brings it nearer to the end of a delivery, and the number
of deliveries is bounded. `Tally.toil` counts how far there is to go.

**Theorem (`Goes.toil_lt`).** What happens to a name that nobody else adds shortens its way or
leaves it as it stands.

**Theorem (`Run.Fair.rests`).** How a name stands does not stay the same forever unless it is at
rest: workers come back, timers go off, and what waits is handed out.

**Theorem (`Run.retries_bounded`).** The failures of a name that are counted are those judged worth
another delivery since it was last forgotten, and fewer than the deliveries that are allowed. What
is added once is delivered until it succeeds, fails for good, or has used up its deliveries; then
nothing is left of it.
-/

namespace ClusterSync

variable {σ : Type} {n : ObjectName}

/-! ## How far there is to go -/

section Approach

variable {α : Type} {a : Nat → α} {far : Nat → Nat} {t : Nat}

theorem eq_or_nearer {v : Nat}
    (h : ∀ u, t ≤ u → a (u + 1) = a u ∧ far (u + 1) = far u ∨ far (u + 1) < far u) (htv : t ≤ v) :
    a v = a t ∧ far v = far t ∨ far v < far t := by
  induction htv with
  | refl => exact .inl ⟨rfl, rfl⟩
  | @step v htv ih =>
    rcases h v htv with ⟨ha, hfar⟩ | hless
    · rw [ha, hfar]
      exact ih
    · rcases ih with ⟨-, heq⟩ | ih
      · exact .inr (heq ▸ hless)
      · exact .inr (Nat.lt_trans hless ih)

/-- What comes nearer to an end whenever it changes stays as it is some day. -/
theorem exists_stays
    (h : ∀ u, t ≤ u → a (u + 1) = a u ∧ far (u + 1) = far u ∨ far (u + 1) < far u) :
    ∃ u, t ≤ u ∧ ∀ v, u ≤ v → a v = a u := by
  generalize hk : far t = k
  induction k using Nat.strongRecOn generalizing t with
  | ind k ih =>
    by_cases hstays : ∀ v, t ≤ v → a v = a t
    · exact ⟨t, Nat.le_refl t, hstays⟩
    · push Not at hstays
      obtain ⟨v, htv, hne⟩ := hstays
      have hless := (eq_or_nearer h htv).resolve_left fun hsame => hne hsame.1
      obtain ⟨u, hvu, hstays⟩ := ih _ (hk ▸ hless) (fun u hvu => h u (Nat.le_trans htv hvu)) rfl
      exact ⟨u, Nat.le_trans htv hvu, hstays⟩

end Approach

namespace Standing

variable {most : Nat} {past : Record} {st st' : Standing} {o : Option Incident}

/-- How far a worker is from the release of its item. -/
def holdRank : Option (Change × Hold) → Nat
  | none => 0
  | some (_, .working) | some (_, .releasing) => 1
  | some (_, .forgetting) => 2
  | some (_, .returning _) => 5
  | some (_, .counting) => 6

/-- How far a name is from its rest, unless there is another delivery. -/
def rank (st : Standing) : Nat :=
  holdRank st.hold + 2 * st.waiting.isSome.toNat + 3 * st.delayed.length

theorem rank_lt_rank {waiting : Option Change} {hold hold' : Option (Change × Hold)}
    {delayed : List Change} {putOffs putOffs' : Nat} {closed closed' : Bool}
    (h : holdRank hold' < holdRank hold) :
    rank ⟨waiting, hold', delayed, putOffs', closed'⟩ <
      rank ⟨waiting, hold, delayed, putOffs, closed⟩ :=
  Nat.add_lt_add_right (Nat.add_lt_add_right h _) _

end Standing

/-- How far a name is from its rest, if it may be delivered so often. -/
def Tally.toil (t : Tally) (most : Nat) (st : Standing) : Nat :=
  7 * (most - t.endings.length) + st.rank

namespace Standing

variable {most bound : Nat} {past : Record} {st st' : Standing} {o : Option Incident}

/-- Nothing of the name waits, is held or delayed. -/
structure Rests (st : Standing) : Prop where
  waiting : st.waiting = none
  hold : st.hold = none
  delayed : st.delayed = []

/-- Until a delivery ends, what happens to a name that nobody adds brings it nearer. -/
theorem Goes.rank_lt (h : st.Goes n most o st') (hc : st'.closed = false)
    (hoffers : (Record.tally n (o.toList ++ past)).offers = (past.tally n).offers)
    (hendings : (Record.tally n (o.toList ++ past)).endings = (past.tally n).endings) :
    st' = st ∧ Record.tally n (o.toList ++ past) = past.tally n ∨ st'.rank < st.rank := by
  have hopen := h.open hc
  have hnote : ∀ i : Incident, i.Concerns n →
      Record.tally n ((some i).toList ++ past) = (past.tally n).note i :=
    fun i hi => Record.tally_cons hi
  obtain ⟨waiting, hold, delayed, putOffs, closed⟩ := st
  cases hopen
  cases h with
  | stays ho => exact .inl ⟨rfl, Record.tally_of_not_concerns ho⟩
  | closes => cases hc
  | desists _ hc' => cases hc'
  | adds c =>
    rw [hnote (.added ⟨n, c⟩ false) rfl] at hoffers
    exact absurd hoffers (Nat.succ_ne_self _)
  | @succeeds c hh =>
    rw [hnote (.succeeded ⟨n, c⟩) rfl] at hendings
    exact absurd hendings (List.cons_ne_self _ _)
  | @judges c e verdict hh hv =>
    rw [hnote (.failed ⟨n, c⟩ e verdict) rfl] at hendings
    exact absurd hendings (List.cons_ne_self _ _)
  | @fires before after c hd =>
    cases hd
    right
    have hlength : (before ++ c :: after).length = (before ++ after).length + 1 := by
      simp only [List.length_append, List.length_cons, Nat.add_assoc]
    change holdRank hold + 2 * 1 + 3 * (before ++ after).length <
      holdRank hold + 2 * waiting.isSome.toNat + 3 * (before ++ c :: after).length
    omega
  | readds hh =>
    cases hh
    right
    change 1 + 2 * 1 + 3 * delayed.length < 5 + 2 * waiting.isSome.toNat + 3 * delayed.length
    omega
  | takes hw hh =>
    cases hw
    cases hh
    right
    change 1 + 2 * 0 + 3 * delayed.length < 0 + 2 * 1 + 3 * delayed.length
    omega
  | @delays c _ hh =>
    cases hh
    right
    change 1 + 2 * waiting.isSome.toNat + 3 * (delayed ++ [c]).length <
      5 + 2 * waiting.isSome.toNat + 3 * delayed.length
    rw [List.length_append, List.length_singleton]
    omega
  | counts _ hh =>
    cases hh
    exact .inr (rank_lt_rank (show 5 < 6 by decide))
  | forgets hh =>
    cases hh
    exact .inr (rank_lt_rank (show 1 < 2 by decide))
  | releases hh =>
    cases hh
    exact .inr (rank_lt_rank (show 0 < 1 by decide))

/-- The end of a delivery throws the name back, though by less than a delivery counts. -/
theorem Goes.rank_le (h : st.Goes n most o st')
    (hendings : (Record.tally n (o.toList ++ past)).endings ≠ (past.tally n).endings) :
    st'.rank ≤ st.rank + 5 := by
  have hnote : ∀ i : Incident, i.Concerns n →
      (Record.tally n ((some i).toList ++ past)).endings = ((past.tally n).note i).endings :=
    fun i hi => congrArg Tally.endings (Record.tally_cons hi)
  obtain ⟨waiting, hold, delayed, putOffs, closed⟩ := st
  cases h with
  | stays => exact Nat.le_add_right _ 5
  | desists | delays => exact absurd rfl hendings
  | closes => exact absurd (hnote .closed trivial) hendings
  | adds | fires | readds | takes | counts | forgets | releases =>
    refine absurd (hnote _ ?_) hendings
    exact rfl
  | succeeds hh =>
    cases hh
    exact Nat.le_add_right _ 5
  | @judges c e verdict hh hv =>
    cases hh
    have hhold :
        holdRank (some (c, if verdict = .requeue then .counting else .forgetting)) ≤ 6 := by
      split
      · exact Nat.le_refl 6
      · exact (by decide : 2 ≤ 6)
    change holdRank (some (c, if verdict = .requeue then .counting else .forgetting)) +
        2 * waiting.isSome.toNat + 3 * delayed.length ≤
      1 + 2 * waiting.isSome.toNat + 3 * delayed.length + 5
    omega

/-- What happens to a name that nobody adds. -/
theorem Goes.toil_lt (h : st.Goes n most o st') (hc : st'.closed = false)
    (hoffers : (Record.tally n (o.toList ++ past)).offers = (past.tally n).offers)
    (hbound : (Record.tally n (o.toList ++ past)).endings.length ≤ bound) :
    st' = st ∧ Record.tally n (o.toList ++ past) = past.tally n ∨
    (Record.tally n (o.toList ++ past)).toil bound st' < (past.tally n).toil bound st := by
  unfold Tally.toil
  by_cases hendings :
      (Record.tally n (o.toList ++ past)).endings = (past.tally n).endings
  · rw [hendings]
    exact (h.rank_lt hc hoffers hendings).imp_right fun hless => Nat.add_lt_add_left hless _
  · right
    have hrank := h.rank_le hendings
    obtain ⟨x, -, -, hends, -⟩ := h.endings.resolve_left hendings
    rw [hends, List.length_cons] at hbound ⊢
    omega

/-- Nothing happens to a name at rest that nobody adds. -/
theorem Goes.of_rests (h : st.Goes n most o st') (hr : st.Rests) (hc : st'.closed = false)
    (hoffers : (Record.tally n (o.toList ++ past)).offers = (past.tally n).offers) :
    st' = st ∧ Record.tally n (o.toList ++ past) = past.tally n := by
  obtain ⟨hwaiting, hhold, hdelayed⟩ := hr
  cases h with
  | stays ho => exact ⟨rfl, Record.tally_of_not_concerns ho⟩
  | closes => cases hc
  | adds c =>
    have hnote : Record.tally n (.added ⟨n, c⟩ false :: past) = _ := Record.tally_cons rfl
    rw [Option.toList_some, List.singleton_append, hnote] at hoffers
    exact absurd hoffers (Nat.succ_ne_self _)
  | @fires before after c hd =>
    rw [hdelayed] at hd
    simp at hd
  | takes hw => cases hwaiting.symm.trans hw
  | succeeds hh | judges hh | desists hh | readds hh | delays hh | forgets hh | releases hh =>
    cases hhold.symm.trans hh
  | counts _ hh => cases hhold.symm.trans hh

/-- What is added once is delivered no more often than is allowed. -/
theorem Lives.length_endings_le (hm : most ≤ Backoff.maxCount) (h : Lives n most past st)
    (hc : st.closed = false) (hone : (past.tally n).offers ≤ 1) :
    (past.tally n).endings.length ≤ max most 1 := by
  rcases h.course hm hc hone with ⟨-, -, hless⟩ | ⟨-, _, _, -, -, hle, -⟩
  · exact Nat.le_of_lt hless
  · exact hle

/-- What rests after it has been added has come to an end. -/
theorem Lives.isOver (hm : most ≤ Backoff.maxCount) (h : Lives n most past st)
    (hc : st.closed = false) (hone : (past.tally n).offers = 1) (hr : st.Rests) :
    IsOver (max most 1) (past.tally n).endings ∧
      (past.tally n).begun = (past.tally n).endings.length ∧ st.putOffs = 0 := by
  have hb := h.balanced hm hc
  have hleft : st.left = 0 := by simp [left, undecided, hr.waiting, hr.hold, hr.delayed]
  have hworking : st.working = 0 := by simp [working, hr.hold]
  have hforgetting : st.forgetting = 0 := by simp [Standing.forgetting, hr.hold]
  have hpos := hb.left_pos (by omega)
  have hkept := hb.kept
  have hrequeued := hb.requeued
  refine ⟨?_, by rw [hb.begun, hworking, Nat.add_zero], by omega⟩
  rcases h.course hm hc (Nat.le_of_eq hone) with ⟨hnone, -⟩ | ⟨-, hover⟩
  · omega
  · exact hover

end Standing

/-! ## How a name stands in a run -/

namespace Shift

variable {s s' : Shift σ} {backend : Backend σ} {st st' : Standing} {m : Move}
  {o : Option Incident} {i : Nat} {w : Worker}

/-- Nothing of a name waits, is held or delayed. -/
def Rests (s : Shift σ) (n : ObjectName) : Prop :=
  n ∉ s.backlog.pending ∧ n ∉ s.backlog.held ∧ ∀ d ∈ s.backlog.delayed, d.item.name ≠ n

theorem Shows.unique (hs : s.InOrder) (h : s.Shows n st) (h' : s.Shows n st') : st = st' := by
  have hle : ∀ {hold hold' : Option (Change × Hold)}, s.Holds n hold → s.Holds n hold' →
      hold.isSome → hold' = hold := by
    intro hold hold' hh hh' hsome
    obtain ⟨⟨c, hold⟩, rfl⟩ := Option.isSome_iff_exists.1 hsome
    obtain ⟨i, w, hi, hitem, rfl⟩ := hh
    exact hs.hold_eq hh' hi hitem rfl
  have hhold : st.hold = st'.hold := by
    by_cases hsome : st.hold.isSome
    · exact (hle h.1 h'.1 hsome).symm
    · by_cases hsome' : st'.hold.isSome
      · exact hle h'.1 h.1 hsome'
      · rw [Option.not_isSome_iff_eq_none.1 hsome, Option.not_isSome_iff_eq_none.1 hsome']
  rw [h.2, h'.2, hhold]

theorem Shows.not_mem_held (hs : s.InOrder) (h : s.Shows n st) :
    n ∉ s.backlog.held ↔ st.hold = none := by
  have hh := h.1
  constructor
  · intro hn
    cases hhold : st.hold with
    | none => rfl
    | some hold =>
      rw [hhold] at hh
      obtain ⟨i, w, hi, hitem, -⟩ := hh
      have hname : w.name? = some n := by rw [Worker.name?, hitem]; rfl
      exact absurd (hs.orderly.held hi hname) hn
  · intro hhold
    rw [hhold] at hh
    exact hh

theorem Shows.rests_iff (hs : s.InOrder) (h : s.Shows n st) : s.Rests n ↔ st.Rests := by
  have hwaiting : n ∉ s.backlog.pending ↔ st.waiting = none := by
    rw [h.2, Std.ExtTreeMap.mem_iff_isSome_getElem?, Option.not_isSome_iff_eq_none]
    rfl
  have hdelayed : (∀ d ∈ s.backlog.delayed, d.item.name ≠ n) ↔ st.delayed = [] := by
    rw [h.2]
    simp [Backlog.standing]
  constructor
  · rintro ⟨hp, hh, hd⟩
    exact ⟨hwaiting.1 hp, (h.not_mem_held hs).1 hh, hdelayed.1 hd⟩
  · rintro ⟨hp, hh, hd⟩
    exact ⟨hwaiting.2 hp, (h.not_mem_held hs).2 hh, hdelayed.2 hd⟩

/-- A worker that has judged the failure of a name is about to count it. -/
def Counts (s : Shift σ) (n : ObjectName) : Prop :=
  ∃ i item e, s.pipeline.workers[i]? = some (.talking item (.done (.error e))) ∧ item.name = n ∧
    s.stages i = .counting

theorem Shows.counting_eq (hs : s.InOrder) (h : s.Shows n st) :
    (s.Counts n → st.counting = 1) ∧ (¬ s.Counts n → st.counting = 0) := by
  constructor
  · rintro ⟨i, item, e, hi, hn, hstage⟩
    have hhold := hs.hold_eq h.1 hi rfl hn
    rw [hstage] at hhold
    simp [Standing.counting, hhold, Hold.of]
  · intro hnot
    have hh := h.1
    unfold Standing.counting
    split
    · rename_i c hhold
      rw [hhold] at hh
      obtain ⟨i, w, hi, hitem, hcounting⟩ := hh
      have hstage : s.stages i = .counting := by
        unfold Hold.of at hcounting
        split at hcounting
        · split at hcounting <;> cases hcounting
        · assumption
        · cases hcounting
        · cases hcounting
      have hjudged : s.stages i ≠ .unjudged := by simp [hstage]
      obtain ⟨item, e, hfailing⟩ := hs.failing hjudged
      cases hi.symm.trans hfailing
      cases hitem
      exact absurd ⟨i, _, e, hi, rfl, hstage⟩ hnot
    · rfl
    · rfl
    · rfl
    · rfl
    · rfl

/-- Delayed work stays until its timer goes off. -/
theorem Moves.delayed (hm : s.Moves backend m o s') {d : Delayed} (hd : d ∈ s.backlog.delayed) :
    d ∈ s'.backlog.delayed ∨ ∃ before after, s.backlog.delayed = before ++ d :: after ∧
      s'.backlog.delayed = before ++ after := by
  have hkeep : ∀ {b : Backlog}, b.delayed = s.backlog.delayed → d ∈ b.delayed := fun h => h ▸ hd
  cases hm with
  | starts | told | takesIn | abandons | waits => exact .inl hd
  | hands | adds => exact .inl (hkeep Backlog.delayed_add)
  | responds hr => cases hr <;> exact .inl hd
  | @fires j d' hd' =>
    obtain ⟨before, after, hsplit, hfire⟩ := Backlog.exists_fire hd'
    have hrest : (s.backlog.fire j).delayed = before ++ after := by rw [hfire, Backlog.delayed_add]
    by_cases heq : d' = d
    · subst heq
      exact .inr ⟨before, after, hsplit, hrest⟩
    · rw [hsplit] at hd
      refine .inl ?_
      change d ∈ (s.backlog.fire j).delayed
      rw [hrest]
      simpa [Ne.symm heq] using hd
  | works hw =>
    cases hw with
    | takes hw ht => exact .inl (hkeep (Backlog.take?_keeps ht).2.2)
    | leaves | looks | talks | succeeds | judges | counts | desists | forgets => exact .inl hd
    | readds => exact .inl (hkeep Backlog.delayed_add)
    | delays => exact .inl (List.mem_append_left _ hd)
    | releases => exact .inl (hkeep Backlog.delayed_release)

namespace Run

variable {r : Run σ} {t u : Nat}

/-- The accounts of a name. -/
def tally (r : Run σ) (n : ObjectName) (t : Nat) : Tally := (r.past t).tally n

/-- How a name stands at all instants of a run. -/
theorem exists_standings (r : Run σ) (n : ObjectName) :
    ∃ st : Nat → Standing, ∀ t, (r.shift t).Shows n (st t) ∧
      Standing.Lives n r.settings.maxRetries (r.past t) (st t) ∧
      ∃ o, r.past (t + 1) = o.toList ++ r.past t ∧
        (st t).Goes n r.settings.maxRetries o (st (t + 1)) := by
  choose st hshows hlives using fun t => (r.reaches t).lives n
  refine ⟨st, fun t => ⟨hshows t, hlives t, ?_⟩⟩
  rcases r.step t with ⟨-, hpast, hsame⟩ | ⟨o, hm, hpast⟩
  · have heq : st (t + 1) = st t :=
      Shows.unique (r.reaches t).inOrder (hsame ▸ hshows (t + 1)) (hshows t)
    exact ⟨none, hpast, heq ▸ .idle⟩
  · obtain ⟨hold', hholds, hgoes⟩ := goes_of_moves (r.reaches t).inOrder (r.reaches t).onCourse
      (hshows t).1 (moves_of_move? hm)
    have heq : (r.shift (t + 1)).backlog.standing n hold' = st (t + 1) :=
      Shows.unique (r.reaches (t + 1)).inOrder ⟨hholds, rfl⟩ (hshows (t + 1))
    rw [heq, ← (hshows t).2, (r.reaches t).maxRetries_eq] at hgoes
    exact ⟨o, hpast, hgoes⟩

section Forever

variable (hf : r.Fair) (hshows : ∀ u, t ≤ u → (r.shift u).Shows n st)
include hf hshows

/-- A worker that had the name would release it. -/
theorem Fair.hold_eq_none : st.hold = none := by
  cases hhold : st.hold with
  | none => rfl
  | some hold =>
    have hholds := (hshows t (Nat.le_refl t)).1
    rw [hhold] at hholds
    obtain ⟨j, v, hj, hitem, -⟩ := hholds
    obtain ⟨u, htu, -, hreleased⟩ := hf.released hj hitem
    have hshown := hshows (u + 1) (Nat.le_succ_of_le htu)
    exact hhold.symm.trans ((hshown.not_mem_held (r.reaches _).inOrder).1 hreleased)

/-- What waited and was free would be handed out. -/
theorem Fair.waiting_eq_none (hopen : ∀ t, (r.shift t).backlog.closed = false)
    (hw : (r.shift t).pipeline.workers[i]? = some w) : st.waiting = none := by
  cases hwaiting : st.waiting with
  | none => rfl
  | some c =>
    obtain ⟨u, htu, hnot⟩ := hf.takes hopen hw n
    have hshown := hshows u htu
    have hpending : n ∈ (r.shift u).backlog.pending := by
      rw [Std.ExtTreeMap.mem_iff_isSome_getElem?]
      have hsome : (r.shift u).backlog.pending[n]? = some c := by
        rw [← hwaiting, hshown.2]
        rfl
      rw [hsome]
      rfl
    have horder := (r.reaches u).inOrder
    rcases horder.orderly.sound.ready_or_held n hpending with hready | hheld
    · exact absurd hready hnot
    · exact absurd hheld ((hshown.not_mem_held horder).2 (hf.hold_eq_none hshows))

/-- A timer of the name would go off, and there would be one less. -/
theorem Fair.not_delayed {d : Delayed} (hn : d.item.name = n) :
    d ∉ (r.shift t).backlog.delayed := by
  intro hd
  have hstays : ∀ u, t ≤ u → d ∈ (r.shift u).backlog.delayed := by
    intro u htu
    induction htu with
    | refl => exact hd
    | @step u htu ih =>
      rcases r.step u with ⟨-, -, hsame⟩ | ⟨o, hm, -⟩
      · exact hsame ▸ ih
      · rcases (moves_of_move? hm).delayed ih with hmem | ⟨before, after, hsplit, hrest⟩
        · exact hmem
        · have hlength := congrArg (fun st => st.delayed.length)
            ((hshows u htu).2.symm.trans (hshows (u + 1) (Nat.le_succ_of_le htu)).2)
          simp [Backlog.standing, hsplit, hrest, hn] at hlength
  obtain ⟨u, htu, hdue⟩ := hf.time d.due t
  obtain ⟨v, huv, hgone⟩ := hf.timers d u (hstays u htu) hdue
  exact hgone (hstays v (Nat.le_trans htu huv))

/-- A name that stands forever as it does is at rest. -/
theorem Fair.rests (hopen : ∀ t, (r.shift t).backlog.closed = false)
    (hw : (r.shift t).pipeline.workers[i]? = some w) : st.Rests where
  waiting := hf.waiting_eq_none hshows hopen hw
  hold := hf.hold_eq_none hshows
  delayed := by
    by_contra hne
    obtain ⟨c, hc⟩ := List.exists_mem_of_ne_nil _ hne
    rw [(hshows t (Nat.le_refl t)).2] at hc
    obtain ⟨d, hd, -⟩ := List.mem_map.1 hc
    obtain ⟨hmem, hname⟩ := List.mem_filter.1 hd
    exact hf.not_delayed hshows (by simpa using hname) hmem

end Forever

theorem offers_mono (r : Run σ) (n : ObjectName) (htu : t ≤ u) :
    (r.tally n t).offers ≤ (r.tally n u).offers := by
  induction htu with
  | refl => exact Nat.le_refl _
  | @step u _ ih =>
    refine Nat.le_trans ih ?_
    unfold tally
    rcases r.step u with ⟨-, hpast, -⟩ | ⟨o, -, hpast⟩
    · exact Nat.le_of_eq (by rw [hpast])
    · rw [hpast]
      exact Record.offers_le o

/-- What is added once comes to rest. -/
theorem Fair.exists_rests (hf : r.Fair) (hm : r.settings.maxRetries ≤ Backoff.maxCount)
    (hopen : ∀ t, (r.shift t).backlog.closed = false)
    (hw : (r.shift t).pipeline.workers[i]? = some w)
    (hone : ∀ u, t ≤ u → (r.tally n u).offers = 1) : ∃ u, t ≤ u ∧ (r.shift u).Rests n := by
  obtain ⟨st, hst⟩ := r.exists_standings n
  have hclosed : ∀ u, (st u).closed = false := fun u => by
    rw [(hst u).1.2]
    exact hopen u
  let toil u := (r.tally n u).toil (Max.max r.settings.maxRetries 1) (st u)
  have hstep : ∀ u, t ≤ u → st (u + 1) = st u ∧ toil (u + 1) = toil u ∨ toil (u + 1) < toil u := by
    intro u htu
    have hbound := (hst (u + 1)).2.1.length_endings_le hm (hclosed (u + 1))
      (Nat.le_of_eq (hone (u + 1) (Nat.le_succ_of_le htu)))
    have hoffers := (hone (u + 1) (Nat.le_succ_of_le htu)).trans (hone u htu).symm
    obtain ⟨-, -, o, hpast, hgoes⟩ := hst u
    unfold tally at hoffers
    rw [hpast] at hbound hoffers
    unfold toil tally
    rw [hpast]
    rcases hgoes.toil_lt (hclosed (u + 1)) hoffers hbound with ⟨hsame, htally⟩ | hless
    · exact .inl ⟨hsame, by rw [hsame, htally]⟩
    · exact .inr hless
  obtain ⟨u, htu, hstays⟩ := exists_stays hstep
  obtain ⟨w', hw', -⟩ := r.exists_worker htu hw (hopen u)
  have hrests := hf.rests (fun v huv => hstays v huv ▸ (hst v).1) hopen hw'
  exact ⟨u, htu, ((hst u).1.rests_iff (r.reaches u).inOrder).2 hrests⟩

/-- A name that nobody adds stays at rest. -/
theorem rests_of_le (hopen : ∀ t, (r.shift t).backlog.closed = false) (htu : t ≤ u)
    (hone : ∀ v, t ≤ v → (r.tally n v).offers = 1) (hrests : (r.shift t).Rests n) :
    (r.shift u).Rests n ∧ r.tally n u = r.tally n t := by
  induction htu with
  | refl => exact ⟨hrests, rfl⟩
  | @step u htu ih =>
    obtain ⟨hrests, htally⟩ := ih
    obtain ⟨st, hst⟩ := r.exists_standings n
    have hr := ((hst u).1.rests_iff (r.reaches u).inOrder).1 hrests
    have hc : (st (u + 1)).closed = false := by
      rw [(hst (u + 1)).1.2]
      exact hopen (u + 1)
    have hoffers := (hone (u + 1) (Nat.le_succ_of_le htu)).trans (hone u htu).symm
    obtain ⟨hshows, -, o, hpast, hgoes⟩ := hst u
    unfold tally at hoffers htally ⊢
    rw [hpast] at hoffers ⊢
    obtain ⟨hsame, hnothing⟩ := hgoes.of_rests hr hc hoffers
    refine ⟨?_, hnothing.trans htally⟩
    exact ((hst (u + 1)).1.rests_iff (r.reaches (u + 1)).inOrder).2 (hsame ▸ hr)

/-- How often an item is delivered at most. -/
def most (r : Run σ) : Nat := Max.max r.settings.maxRetries 1

/-- The deliveries of a name have come to an end, and nothing is left of it. -/
structure Over (r : Run σ) (n : ObjectName) (t : Nat) : Prop where
  ended : Standing.IsOver r.most (r.tally n t).endings
  begun : (r.tally n t).begun = (r.tally n t).endings.length
  putOffs : (r.shift t).backlog.putOffs n = 0
  rests : (r.shift t).Rests n

theorem over_of_rests (hm : r.settings.maxRetries ≤ Backoff.maxCount)
    (hopen : (r.shift t).backlog.closed = false) (hone : (r.tally n t).offers = 1)
    (hrests : (r.shift t).Rests n) : r.Over n t := by
  obtain ⟨st, hshows, hlives⟩ := (r.reaches t).lives n
  have hc : st.closed = false := by rw [hshows.2]; exact hopen
  have hr := (hshows.rests_iff (r.reaches t).inOrder).1 hrests
  obtain ⟨hended, hbegun, hputOffs⟩ := hlives.isOver hm hc hone hr
  refine ⟨hended, hbegun, ?_, hrests⟩
  rw [← hputOffs, hshows.2]
  rfl

/-- What is added once is under way or has come to an end. -/
theorem goesOn_or_isOver (hm : r.settings.maxRetries ≤ Backoff.maxCount)
    (hopen : (r.shift t).backlog.closed = false) (hone : (r.tally n t).offers = 1) :
    Standing.GoesOn r.most (r.tally n t).endings ∧ ¬ (r.shift t).Rests n ∨
      Standing.IsOver r.most (r.tally n t).endings ∧
        (n ∉ (r.shift t).backlog.held → r.Over n t) := by
  obtain ⟨st, hshows, hlives⟩ := (r.reaches t).lives n
  have hc : st.closed = false := by rw [hshows.2]; exact hopen
  have horder := (r.reaches t).inOrder
  have hb := hlives.balanced hm hc
  have hone' : ((r.past t).tally n).offers = 1 := hone
  rcases hlives.course hm hc (Nat.le_of_eq hone) with ⟨hnone, hgoesOn⟩ | ⟨hsettled, hover⟩
  · refine .inl ⟨hgoesOn, fun hrests => ?_⟩
    obtain ⟨hwaiting, hhold, hdelayed⟩ := (hshows.rests_iff horder).1 hrests
    have hpos := hb.left_pos (by omega)
    simp [Standing.left, Standing.undecided, hwaiting, hhold, hdelayed, hnone] at hpos
  · refine .inr ⟨hover, fun hfree => over_of_rests hm hopen hone ?_⟩
    have hleft : st.left = 0 := by
      have hle := hb.left_le
      omega
    have hempty : st.waiting = none ∧ st.delayed = [] := by
      unfold Standing.left at hleft
      cases hw : st.waiting with
      | none =>
        refine ⟨rfl, List.length_eq_zero_iff.1 ?_⟩
        omega
      | some c => simp [hw] at hleft
    exact (hshows.rests_iff horder).2 ⟨hempty.1, (hshows.not_mem_held horder).1 hfree, hempty.2⟩

theorem retries_bounded (r : Run σ) (n : ObjectName)
    (hm : r.settings.maxRetries ≤ Backoff.maxCount) :
    (∀ t, (r.shift t).backlog.closed = false →
      ((r.shift t).Counts n → (r.tally n t).requeued = (r.shift t).backlog.putOffs n + 1) ∧
      (¬ (r.shift t).Counts n → (r.tally n t).requeued = (r.shift t).backlog.putOffs n) ∧
      (r.tally n t).requeued < r.most ∧
      (∀ row, row <:+: (r.tally n t).endings → r.most ≤ row.length →
        ∃ ending ∈ row, ending.isRequeued = false) ∧
      ((r.tally n t).offers = 1 →
        Standing.GoesOn r.most (r.tally n t).endings ∧ ¬ (r.shift t).Rests n ∨
          Standing.IsOver r.most (r.tally n t).endings ∧
            (n ∉ (r.shift t).backlog.held → r.Over n t))) ∧
    (r.Fair → (∀ t, (r.shift t).backlog.closed = false) →
      (∃ t, (r.shift t).pipeline.workers ≠ []) → (∀ t, (r.tally n t).offers ≤ 1) →
      (∃ t, (r.tally n t).offers = 1) →
        ∃ t, ∀ u, t ≤ u → r.Over n u ∧ r.tally n u = r.tally n t) := by
  constructor
  · intro t hopen
    obtain ⟨st, hshows, hlives⟩ := (r.reaches t).lives n
    have hc : st.closed = false := by rw [hshows.2]; exact hopen
    have hb := hlives.balanced hm hc
    have hputOffs : (r.shift t).backlog.putOffs n = st.putOffs := by rw [hshows.2]; rfl
    obtain ⟨hcounts, hnot⟩ := hshows.counting_eq (r.reaches t).inOrder
    refine ⟨fun h => ?_, fun h => ?_, hb.bound, fun row hrow hlength => ?_,
      fun hone => goesOn_or_isOver hm hopen hone⟩
    · rw [hputOffs, ← hcounts h]
      exact hb.requeued
    · rw [hputOffs, ← Nat.add_zero st.putOffs, ← hnot h]
      exact hb.requeued
    · by_contra hall
      push Not at hall
      have hless := hlives.length_lt hm hc hrow fun ending hmem => by simpa using hall ending hmem
      exact absurd hlength (Nat.not_le.2 hless)
  · rintro hf hopen ⟨t₁, hworkers⟩ hle ⟨t₂, hone⟩
    obtain ⟨w, hw⟩ := List.exists_mem_of_ne_nil _ hworkers
    obtain ⟨i, hi⟩ := List.getElem?_of_mem hw
    have honce : ∀ u, t₂ ≤ u → (r.tally n u).offers = 1 := fun u hu =>
      Nat.le_antisymm (hle u) (hone ▸ r.offers_mono n hu)
    obtain ⟨w', hw', -⟩ := r.exists_worker (Nat.le_max_left t₁ t₂) hi (hopen _)
    have hlater : ∀ u, Max.max t₁ t₂ ≤ u → t₂ ≤ u := fun u =>
      Nat.le_trans (Nat.le_max_right t₁ t₂)
    obtain ⟨t, ht, hrests⟩ := hf.exists_rests hm hopen hw' fun u hu => honce u (hlater u hu)
    refine ⟨t, fun u hu => ?_⟩
    have hlate := hlater t ht
    obtain ⟨hrests', htally⟩ := r.rests_of_le hopen hu
      (fun v hv => honce v (Nat.le_trans hlate hv)) hrests
    exact ⟨over_of_rests hm (hopen u) (honce u (Nat.le_trans hlate hu)) hrests', htally⟩

/-! ## Runs that become quiet -/

section Quiet

variable {r : Run σ} {t : Nat} (hwaits : ∀ u, t ≤ u → r.schedule u = .wait 1)
include hwaits

/-- Where nothing is tried any more only time goes on. -/
theorem shift_add_of_waits (k : Nat) :
    r.past (t + k) = r.past t ∧
      r.shift (t + k) = { r.shift t with now := (r.shift t).now + k } := by
  induction k with
  | zero => exact ⟨rfl, rfl⟩
  | succ k ih =>
    rcases r.step (t + k) with ⟨hnone, -⟩ | ⟨o, hm, hpast⟩
    · rw [hwaits _ (Nat.le_add_right t k)] at hnone
      cases hnone
    · rw [hwaits _ (Nat.le_add_right t k)] at hm
      obtain ⟨rfl, hshift⟩ := Prod.mk.inj (Option.some.inj hm)
      refine ⟨hpast.trans ih.1, hshift.symm.trans ?_⟩
      rw [ih.2]
      rfl

/-- A schedule that leaves nothing to be done is fair. -/
theorem fair_of_waits (hidle : ∀ w ∈ (r.shift t).pipeline.workers, w = .idle)
    (hready : (r.shift t).backlog.ready = []) (hopen : (r.shift t).backlog.closed = false)
    (hdelayed : (r.shift t).backlog.delayed = []) : r.Fair := by
  have hlate : ∀ v, ∃ k, Max.max t v = t + k := fun v =>
    Nat.exists_eq_add_of_le (Nat.le_max_left t v)
  refine ⟨fun i v => ?_, fun d v _ _ => ?_, fun limit v => ?_⟩
  · obtain ⟨k, hk⟩ := hlate v
    refine ⟨Max.max t v, Nat.le_max_right t v, .inr ?_⟩
    rw [hk, (shift_add_of_waits hwaits k).2]
    exact work?_eq_none hidle hready hopen
  · obtain ⟨k, hk⟩ := hlate v
    refine ⟨Max.max t v, Nat.le_max_right t v, ?_⟩
    rw [hk, (shift_add_of_waits hwaits k).2]
    change d ∉ (r.shift t).backlog.delayed
    rw [hdelayed]
    exact List.not_mem_nil
  · refine ⟨t + (v + limit), by omega, ?_⟩
    rw [(shift_add_of_waits hwaits _).2]
    change limit ≤ (r.shift t).now + (v + limit)
    omega

end Quiet

section Example

open Rehearsal

/-- A node is created although the datastore fails once. -/
def failedOnceMoves : List Move :=
  [.start, .takeIn .listBegins, .takeIn .listEnds, .respond .cache, .takeIn (.applied busyNode),
    .hand] ++ List.replicate 12 (.work 0) ++ [.wait 5000000, .fire 0] ++
    List.replicate 12 (.work 0)

def failedOnce : Run FaultyStore where
  backend := FaultyStore.backend
  kind := .node
  base := ⟨5000000⟩
  max := ⟨1000000000⟩
  settings := ⟨1, 2, .ofSecs 60⟩
  store := { FaultyStore.initial with failCommits := 1 }
  schedule t := failedOnceMoves.getD t (.wait 1)

theorem failedOnce_waits (u : Nat) (hu : failedOnceMoves.length ≤ u) :
    failedOnce.schedule u = .wait 1 := by
  change failedOnceMoves.getD u (.wait 1) = .wait 1
  rw [List.getD_eq_getElem?_getD, List.getElem?_eq_none hu]
  rfl

theorem failedOnce_idle :
    (failedOnce.shift failedOnceMoves.length).pipeline.workers.all (· matches .idle) = true := by
  decide +kernel

theorem failedOnce_quiet :
    (failedOnce.shift failedOnceMoves.length).backlog.ready = [] ∧
      (failedOnce.shift failedOnceMoves.length).backlog.closed = false ∧
      (failedOnce.shift failedOnceMoves.length).backlog.delayed = [] ∧
      (failedOnce.shift failedOnceMoves.length).pipeline.workers.length = 1 ∧
      (failedOnce.tally (.cluster "n1") failedOnceMoves.length).offers = 1 := by
  decide +kernel

theorem failedOnce_fair : failedOnce.Fair := by
  obtain ⟨hready, hopen, hdelayed, -⟩ := failedOnce_quiet
  refine fair_of_waits failedOnce_waits (fun w hw => ?_) hready hopen hdelayed
  have hmatches := List.all_eq_true.1 failedOnce_idle w hw
  cases w with
  | idle => rfl
  | holding | talking | releasing | finished | broken => cases hmatches

/-- The theorem at this run, whose node is added once. -/
theorem retries_bounded_of_failedOnce :
    failedOnce.settings.maxRetries ≤ Backoff.maxCount ∧ failedOnce.Fair ∧
      (∀ t, (failedOnce.shift t).backlog.closed = false) ∧
      (∃ t, (failedOnce.shift t).pipeline.workers ≠ []) ∧
      (∀ t, (failedOnce.tally (.cluster "n1") t).offers ≤ 1) ∧
      (∃ t, (failedOnce.tally (.cluster "n1") t).offers = 1) ∧
      ∃ t, ∀ u, t ≤ u → failedOnce.Over (.cluster "n1") u ∧
        failedOnce.tally (.cluster "n1") u = failedOnce.tally (.cluster "n1") t := by
  obtain ⟨-, hopen, -, hworkers, hone⟩ := failedOnce_quiet
  have hmost : failedOnce.settings.maxRetries ≤ Backoff.maxCount := by decide
  have hlater : ∀ u, ∃ k, u ≤ failedOnceMoves.length + k := fun u => ⟨u, Nat.le_add_left _ _⟩
  have hopen' : ∀ t, (failedOnce.shift t).backlog.closed = false := fun t => by
    obtain ⟨k, hk⟩ := hlater t
    refine Bool.eq_false_iff.2 fun hclosed => ?_
    have hclosed' := failedOnce.closed_of_le hk hclosed
    rw [(shift_add_of_waits failedOnce_waits k).2] at hclosed'
    cases hopen.symm.trans hclosed'
  have hworkers' : (failedOnce.shift failedOnceMoves.length).pipeline.workers ≠ [] :=
    List.ne_nil_of_length_eq_add_one hworkers
  have honce : ∀ t, (failedOnce.tally (.cluster "n1") t).offers ≤ 1 := fun t => by
    obtain ⟨k, hk⟩ := hlater t
    refine Nat.le_trans (failedOnce.offers_mono _ hk) (Nat.le_of_eq ?_)
    unfold tally at hone ⊢
    rw [(shift_add_of_waits failedOnce_waits k).1]
    exact hone
  exact ⟨hmost, failedOnce_fair, hopen', ⟨_, hworkers'⟩, honce, ⟨_, hone⟩,
    (retries_bounded failedOnce (.cluster "n1") hmost).2 failedOnce_fair hopen' ⟨_, hworkers'⟩
      honce ⟨_, hone⟩⟩

end Example

end Run

end Shift

end ClusterSync

import ClusterSync.Proofs.Backlog.Ledger

/-!
# Nobody sleeps while there is work

Callers come for work, others add it, give names back and close the backlog, and everybody acts in
small steps between which all others may act: a change of the backlog, each ring that follows from
one, a registration with the bell, a look, leaving the bell, and giving up.

**Theorem (`Reaches.nobody_asleep`).** Whenever no caller has a step left and no ring is owed, a
caller sleeps only if there is no work and the backlog is open. A closed backlog has no sleeping
callers as soon as the ring for all has come.

The invariant is `Attended`. While somebody sleeps, every name that is ready has somebody who cares
for it: a ring that is still owed, a caller who is going to look, or a caller who has been woken
alone and passes the ring on when it leaves with another name. `Caller.cares` counts them. Somebody
falls asleep only when no name is ready, because it has registered before it looked; from then on a
name becomes ready only together with a ring.
-/

namespace ClusterSync

/-! ## What others do to a backlog -/

/-- A call of those who do not come for work and do not close the backlog. -/
def BacklogCall.Changes : BacklogCall → Prop
  | .get | .close => False
  | _ => True

namespace Backlog

variable {b : Backlog} {c : BacklogCall} {item : WorkItem}

/-- A backlog after a call that makes at most one name ready and does not close it. -/
structure Fills (b after : Backlog) : Prop where
  ready : after.ready.length ≤ b.ready.length + 1
  closed : after.closed = b.closed

theorem fills_add (b : Backlog) (item : WorkItem) : b.Fills (b.add item) := by
  refine ⟨?_, closed_add⟩
  rw [add_eq]
  dsimp only
  split <;> simp

theorem fills_addAfter (b : Backlog) (now : Nat) (delay : Duration) (item : WorkItem) :
    b.Fills (b.addAfter now delay item) := by
  unfold addAfter
  split
  · exact fills_add b item
  · exact ⟨Nat.le_succ _, rfl⟩

theorem fills_perform (hc : c.Changes) : b.Fills (b.perform c).1 := by
  cases c with
  | get | close => exact hc.elim
  | add item => exact fills_add b item
  | forget name => exact ⟨Nat.le_succ _, rfl⟩
  | addAfter now delay item => exact fills_addAfter b now delay item
  | done name =>
    refine ⟨?_, closed_release⟩
    show (b.release name).ready.length ≤ _
    rw [ready_release]
    split <;> simp
  | drawDelay name =>
    obtain ⟨backoff, hb⟩ := drawDelay_eq b name
    show b.Fills (b.drawDelay name)
    rw [hb]
    exact ⟨Nat.le_succ _, rfl⟩
  | addLater now item =>
    show b.Fills (b.addLater now item)
    unfold addLater
    split
    · exact ⟨Nat.le_succ _, rfl⟩
    · obtain ⟨hready, hclosed⟩ :=
        fills_addAfter { b with backoff := (b.backoff.next item.name).2 } now
          (b.backoff.next item.name).1 item
      exact ⟨hready, hclosed⟩
  | fire i =>
    show b.Fills (b.fire i)
    unfold fire
    split
    · exact ⟨Nat.le_succ _, rfl⟩
    · rename_i d _
      obtain ⟨hready, hclosed⟩ := fills_add { b with delayed := b.delayed.eraseIdx i } d.item
      exact ⟨hready, hclosed⟩

end Backlog

/-! ## Callers -/

namespace Caller

/-- Whether a caller is registered with the bell and has heard nothing. -/
def IsRegistered : Caller → Prop
  | .looking .nothing | .leaving .nothing _ | .asleep => True
  | _ => False

/-- How many names a caller cares for: one if it is going to look, and one if it has been woken
alone and has not left the bell. -/
def cares : Caller → Nat
  | .looking .alone => 2
  | .arriving | .looking _ | .leaving .alone _ | .woken .alone => 1
  | .leaving .. | .woken _ | .asleep | .answered _ => 0

variable {c : Caller}

theorem cares_hear_alone (h : c.IsRegistered) :
    (WaitingRoom.hear .alone c).cares = c.cares + 1 := by
  cases c with
  | looking heard | leaving heard _ => cases heard <;> first | rfl | exact h.elim
  | asleep => rfl
  | arriving | woken | answered => exact h.elim

theorem not_isRegistered_hear {heard : Heard} (hh : heard ≠ .nothing) :
    ¬ (WaitingRoom.hear heard c).IsRegistered := by
  cases heard with
  | nothing => exact absurd rfl hh
  | alone | withAll | leftOver => cases c <;> exact id

end Caller

/-- How many names the callers care for. -/
def attention : List Caller → Nat
  | [] => 0
  | c :: rest => c.cares + attention rest

theorem attention_append (callers : List Caller) (c : Caller) :
    attention (callers ++ [c]) = attention callers + c.cares := by
  induction callers with
  | nil => exact Nat.add_comm _ _
  | cons first rest ih => rw [List.cons_append, attention, attention, ih, Nat.add_assoc]

theorem attention_set {callers : List Caller} {i : Nat} {c : Caller} (h : callers[i]? = some c)
    (c' : Caller) : attention (callers.set i c') + c.cares = attention callers + c'.cares := by
  induction callers generalizing i with
  | nil => simp at h
  | cons first rest ih =>
    cases i with
    | zero =>
      simp only [List.getElem?_cons_zero, Option.some.injEq] at h
      subst h
      simp only [List.set_cons_zero, attention]
      omega
    | succ i =>
      have hrest := ih (by simpa using h)
      simp only [List.set_cons_succ, attention]
      omega

theorem attention_eq_zero {callers : List Caller} (h : ∀ c ∈ callers, c.cares = 0) :
    attention callers = 0 := by
  induction callers with
  | nil => rfl
  | cons c rest ih =>
    have hrest := ih fun c hc => h c (List.mem_cons_of_mem _ hc)
    have hc := h c List.mem_cons_self
    rw [attention, hc, hrest]

namespace WaitingRoom

variable {r r' first : WaitingRoom} {i : Nat} {c : Caller}

/-! ## Steps -/

/-- What may happen in a waiting room. -/
inductive Steps (r : WaitingRoom) : WaitingRoom → Prop
  | enters : Steps r r.enter
  | goes {i : Nat} {r' : WaitingRoom} (h : r.callerStep? i = some r') : Steps r r'
  | givesUp (i : Nat) : Steps r (r.giveUp i)
  | changes {c : BacklogCall} (hc : c.Changes) : Steps r (r.change fun b => (b.perform c).1)
  | closes : Steps r r.close
  | rings (which : Ring) : Steps r (r.ring which)

/-- The waiting rooms that steps lead to. -/
inductive Reaches (first : WaitingRoom) : WaitingRoom → Prop
  | start : Reaches first first
  | step {r r' : WaitingRoom} (h : Reaches first r) (hs : r.Steps r') : Reaches first r'

/-- Nobody has a step left: no ring is owed, and no caller goes on by itself. -/
def AtRest (r : WaitingRoom) : Prop := r.owed = [] ∧ ∀ i, r.callerStep? i = none

theorem atRest_iff : r.AtRest ↔ r.step? = none := by
  unfold AtRest step?
  cases hr : r.owed with
  | cons which rest => simp
  | nil =>
    simp only [true_and, List.findSome?_eq_none_iff, List.mem_range]
    refine ⟨fun h i _ => h i, fun h i => ?_⟩
    by_cases hi : i < r.callers.length
    · exact h i hi
    · unfold callerStep?
      rw [List.getElem?_eq_none (Nat.le_of_not_lt hi)]

/-- What is done until nobody has a step left is one order of the steps. -/
theorem steps_of_step? (h : r.step? = some r') : r.Steps r' := by
  unfold step? at h
  split at h
  · cases h
    exact .rings _
  · obtain ⟨i, -, hi⟩ := List.exists_of_findSome?_eq_some h
    exact .goes hi

theorem Reaches.settle (h : Reaches first r) : Reaches first r.settle := by
  fun_induction WaitingRoom.settle r with
  | case1 r hs => exact h
  | case2 r next hs hlt ih => exact ih (h.step (steps_of_step? hs))
  | case3 r next hs hlt => exact h.step (steps_of_step? hs)

/-! ## The invariant -/

/-- What holds in every waiting room while `hand` rings are on their way to the next caller. -/
structure Attended (hand : Nat) (r : WaitingRoom) : Prop where
  nodup : r.registered.Nodup
  registered : ∀ i, i ∈ r.registered ↔ ∃ c, r.callers[i]? = some c ∧ c.IsRegistered
  leftOver : r.leftOver = true → r.registered = []
  enough : .asleep ∈ r.callers →
    r.backlog.ready.length ≤ r.owed.count .one + attention r.callers + hand
  closing : r.backlog.closed = true → .asleep ∈ r.callers → .all ∈ r.owed

variable {hand : Nat}

theorem attended_initial (b : Backlog) : (initial b).Attended 0 where
  nodup := List.nodup_nil
  registered i := by simp [initial]
  leftOver h := nomatch h
  enough h := absurd h List.not_mem_nil
  closing _ h := absurd h List.not_mem_nil

/-- Who sleeps is registered. -/
theorem Attended.not_asleep (h : r.Attended hand) (hn : r.registered = []) :
    .asleep ∉ r.callers := by
  intro hmem
  obtain ⟨i, hi⟩ := List.getElem?_of_mem hmem
  have hreg : i ∈ r.registered := (h.registered i).2 ⟨_, hi, trivial⟩
  rw [hn] at hreg
  exact absurd hreg List.not_mem_nil

theorem mem_set_asleep {callers : List Caller} {c' : Caller} (hc : c' ≠ .asleep)
    (h : .asleep ∈ callers.set i c') : .asleep ∈ callers := by
  rcases List.mem_or_eq_of_mem_set h with hmem | heq
  · exact hmem
  · exact absurd heq.symm hc

theorem registered_set {callers : List Caller} {registered : List Nat} {c' : Caller}
    (h : ∀ j, j ∈ registered ↔ ∃ c, callers[j]? = some c ∧ c.IsRegistered)
    (hi : callers[i]? = some c) (hc : c'.IsRegistered ↔ c.IsRegistered) (j : Nat) :
    j ∈ registered ↔ ∃ c, (callers.set i c')[j]? = some c ∧ c.IsRegistered := by
  rw [h j]
  by_cases hij : i = j
  · subst hij
    rw [List.getElem?_set_self (List.getElem?_eq_some_iff.1 hi).1, hi]
    simp [hc]
  · rw [List.getElem?_set_ne hij]

/-- A caller goes on to where it is registered if and only if it was, and may take a name with it.
It falls asleep only if no name is ready and the backlog is open. -/
theorem Attended.move {c' : Caller} {backlog : Backlog} (h : r.Attended hand)
    (hi : r.callers[i]? = some c) (hreg : c'.IsRegistered ↔ c.IsRegistered)
    (hclosed : backlog.closed = r.backlog.closed)
    (hsleep : c' = .asleep → backlog.ready = [] ∧ backlog.closed = false)
    (hcares : backlog.ready = [] ∨
      backlog.ready.length + c.cares ≤ r.backlog.ready.length + c'.cares) :
    ({ r with backlog, callers := r.callers.set i c' } : WaitingRoom).Attended hand where
  nodup := h.nodup
  registered := registered_set h.registered hi hreg
  leftOver := h.leftOver
  enough hmem := by
    rcases hcares with hready | hcares
    · simp [hready]
    · have hattention := attention_set hi c'
      dsimp only
      rcases List.mem_or_eq_of_mem_set hmem with hbefore | heq
      · have henough := h.enough hbefore
        omega
      · simp [(hsleep heq.symm).1]
  closing hc hmem := by
    rcases List.mem_or_eq_of_mem_set hmem with hbefore | heq
    · exact h.closing (hclosed ▸ hc) hbefore
    · rw [(hsleep heq.symm).2] at hc
      cases hc

/-! ## The bell -/

/-- A ring on its way reaches the next caller, or nobody sleeps. -/
theorem Attended.ringOne (h : r.Attended (hand + 1)) : r.ringOne.Attended hand := by
  unfold WaitingRoom.ringOne
  split
  · rename_i hnone
    have hasleep := h.not_asleep hnone
    exact ⟨h.nodup, h.registered, fun _ => hnone, fun hmem => absurd hmem hasleep,
      fun _ hmem => absurd hmem hasleep⟩
  · rename_i i rest hreg
    have hnodup := h.nodup
    rw [hreg, List.nodup_cons] at hnodup
    obtain ⟨c, hi, hc⟩ := (h.registered i).1 (hreg ▸ List.mem_cons_self)
    have hset : r.callers.modify i (hear .alone) = r.callers.set i (hear .alone c) := by
      refine List.ext_getElem? fun j => ?_
      rw [List.getElem?_modify, List.getElem?_set]
      by_cases hij : i = j
      · subst hij
        rw [hi, if_pos rfl, if_pos (List.getElem?_eq_some_iff.1 hi).1]
        simp
      · simp [hij]
    have hunregistered : ¬ (hear .alone c).IsRegistered := Caller.not_isRegistered_hear nofun
    have hheard : hear .alone c ≠ .asleep := fun heq => hunregistered (heq ▸ trivial)
    rw [hset]
    refine ⟨hnodup.2, fun j => ?_, fun hleft => ?_, fun hmem => ?_, fun hclosed hmem => ?_⟩
    · by_cases hij : i = j
      · subst hij
        rw [List.getElem?_set_self (List.getElem?_eq_some_iff.1 hi).1]
        simp [hnodup.1, hunregistered]
      · rw [List.getElem?_set_ne hij, ← h.registered j, hreg, List.mem_cons]
        simp [Ne.symm hij]
    · have hempty := h.leftOver hleft
      rw [hreg] at hempty
      cases hempty
    · have hbefore := h.enough (mem_set_asleep hheard hmem)
      have hattention := attention_set hi (hear .alone c)
      rw [Caller.cares_hear_alone hc] at hattention
      dsimp only
      omega
    · exact h.closing hclosed (mem_set_asleep hheard hmem)

/-- After a ring for all nobody is registered who was before. -/
theorem not_isRegistered_foldl (registered : List Nat) (callers : List Caller)
    (h : ∀ j c, callers[j]? = some c → c.IsRegistered → j ∈ registered) (j : Nat) :
    ∀ c, (registered.foldl (fun cs i => cs.modify i (hear .withAll)) callers)[j]? = some c →
      ¬ c.IsRegistered := by
  induction registered generalizing callers with
  | nil =>
    intro c hc hreg
    exact absurd (h j c hc hreg) List.not_mem_nil
  | cons i rest ih =>
    refine ih (callers.modify i (hear .withAll)) fun k c hk hreg => ?_
    by_cases hik : i = k
    · subst hik
      rw [List.getElem?_modify_eq] at hk
      obtain ⟨c₀, -, rfl⟩ := Option.map_eq_some_iff.1 hk
      exact absurd hreg (Caller.not_isRegistered_hear nofun)
    · rw [List.getElem?_modify_ne _ _ hik] at hk
      exact (List.mem_cons.1 (h k c hk hreg)).resolve_left (Ne.symm hik)

theorem attended_ringAll (h : ∀ i c, r.callers[i]? = some c → c.IsRegistered → i ∈ r.registered) :
    r.ringAll.Attended hand := by
  have hnobody := not_isRegistered_foldl r.registered r.callers h
  have hasleep : .asleep ∉ r.ringAll.callers := by
    intro hmem
    obtain ⟨j, hj⟩ := List.getElem?_of_mem hmem
    exact hnobody j _ hj trivial
  refine ⟨List.nodup_nil, fun j => ?_, fun _ => rfl, fun hmem => absurd hmem hasleep,
    fun _ hmem => absurd hmem hasleep⟩
  simp only [WaitingRoom.ringAll, List.not_mem_nil, false_iff, not_exists, not_and]
  exact hnobody j

theorem Attended.ring (h : r.Attended 0) (which : Ring) : (r.ring which).Attended 0 := by
  unfold WaitingRoom.ring
  dsimp only
  split
  · rename_i howed
    cases which with
    | one =>
      have hpos : 0 < r.owed.count .one := List.count_pos_iff.2 howed
      refine Attended.ringOne
        ⟨h.nodup, h.registered, h.leftOver, fun hmem => ?_, fun hclosed hmem => ?_⟩
      · have hbefore := h.enough hmem
        simp only [List.count_erase_self]
        omega
      · exact (List.mem_erase_of_ne (by decide)).2 (h.closing hclosed hmem)
    | all => exact attended_ringAll fun i c hi hc => (h.registered i).2 ⟨c, hi, hc⟩
  · exact h

/-! ## The callers -/

theorem Attended.enter (h : r.Attended hand) : r.enter.Attended hand where
  nodup := h.nodup
  registered j := by
    refine (h.registered j).trans ?_
    show _ ↔ ∃ c, (r.callers ++ [.arriving])[j]? = some c ∧ c.IsRegistered
    rw [List.getElem?_append]
    split
    · rfl
    · rename_i hj
      rw [List.getElem?_eq_none (Nat.le_of_not_lt hj)]
      refine ⟨fun ⟨c, hc, _⟩ => absurd hc nofun, fun ⟨c, hc, hreg⟩ => ?_⟩
      rw [List.mem_singleton.1 (List.mem_of_getElem? hc)] at hreg
      exact hreg.elim
  leftOver := h.leftOver
  enough hmem := by
    have hbefore := h.enough (by simpa [WaitingRoom.enter] using hmem)
    simp only [WaitingRoom.enter, attention_append]
    omega
  closing hclosed hmem := h.closing hclosed (by simpa [WaitingRoom.enter] using hmem)

theorem Attended.register (h : r.Attended hand) (hi : r.callers[i]? = some .arriving) :
    (r.register i).Attended hand := by
  unfold WaitingRoom.register
  split
  · have hmove : ({ r with callers := r.callers.set i (.looking .leftOver) } : WaitingRoom).Attended
        hand := h.move hi Iff.rfl rfl (by simp) (.inr Nat.le.refl)
    exact ⟨hmove.nodup, hmove.registered, nofun, hmove.enough, hmove.closing⟩
  · rename_i hleft
    have hlt : i < r.callers.length := (List.getElem?_eq_some_iff.1 hi).1
    have hnew : i ∉ r.registered := by
      intro hmem
      obtain ⟨c, hc, hreg⟩ := (h.registered i).1 hmem
      rw [hi] at hc
      cases hc
      exact hreg
    refine ⟨?_, fun j => ?_, fun hl => absurd hl hleft, fun hmem => ?_, fun hclosed hmem => ?_⟩
    · rw [List.nodup_append]
      refine ⟨h.nodup, by simp, fun j hj k hk heq => hnew ?_⟩
      rwa [← List.mem_singleton.1 hk, ← heq]
    · rw [List.mem_append, List.mem_singleton]
      by_cases hij : i = j
      · subst hij
        rw [List.getElem?_set_self hlt]
        exact ⟨fun _ => ⟨_, rfl, trivial⟩, fun _ => .inr rfl⟩
      · rw [List.getElem?_set_ne hij, h.registered j]
        exact ⟨fun hj => hj.resolve_right (Ne.symm hij), .inl⟩
    · have henough := h.enough (mem_set_asleep (by simp) hmem)
      have hattention := attention_set hi (.looking .nothing)
      simp only [Caller.cares] at hattention
      dsimp only
      omega
    · exact h.closing hclosed (mem_set_asleep (by simp) hmem)

/-- A caller looks: it takes a name that is ready, or finds that there is none. -/
theorem Attended.look (h : r.Attended hand) {heard : Heard}
    (hi : r.callers[i]? = some (.looking heard)) : (r.look i heard).Attended hand := by
  have hleaving : ∀ item : Option WorkItem,
      (Caller.leaving heard item).IsRegistered ↔ (Caller.looking heard).IsRegistered := by
    intro item
    cases heard <;> rfl
  unfold WaitingRoom.look
  split
  · rename_i item backlog htake
    have hready := Backlog.ready_take htake
    obtain ⟨hclosed, -, -⟩ := Backlog.take?_keeps htake
    have hcares : (Caller.looking heard).cares = (Caller.leaving heard (some item)).cares + 1 := by
      cases heard <;> rfl
    refine h.move hi (hleaving _) hclosed nofun (.inr ?_)
    rw [hready, hcares, List.length_cons]
    omega
  · rename_i htake
    have hready : r.backlog.ready = [] := Backlog.take?_eq_none_iff.1 htake
    split
    · exact h.move hi (hleaving none) rfl nofun (.inl hready)
    · rename_i hopen
      refine h.move hi ?_ rfl (fun _ => ⟨hready, by simpa using hopen⟩) (.inl hready)
      cases heard <;> rfl

/-- A caller leaves, and a ring that it has been woken by alone goes to the next. -/
theorem Attended.leave (h : r.Attended 0) {heard : Heard} {item : Option WorkItem}
    (hi : r.callers[i]? = some c) (hcares : c.cares ≤ if heard = .alone then 1 else 0) :
    (r.leave i heard item).Attended 0 := by
  have hlt : i < r.callers.length := (List.getElem?_eq_some_iff.1 hi).1
  have hleft : ({ r with
      registered := r.registered.erase i
      callers := r.callers.set i (.answered item) } : WaitingRoom).Attended
        (if heard = .alone then 1 else 0) := by
    refine ⟨h.nodup.erase i, fun j => ?_, fun hl => ?_, fun hmem => ?_, fun hclosed hmem => ?_⟩
    · rw [h.nodup.mem_erase_iff]
      by_cases hij : i = j
      · subst hij
        rw [List.getElem?_set_self hlt]
        simp [Caller.IsRegistered]
      · rw [List.getElem?_set_ne hij, h.registered j]
        exact and_iff_right (Ne.symm hij)
    · rw [show r.registered = [] from h.leftOver hl]
      rfl
    · have henough := h.enough (mem_set_asleep (by simp) hmem)
      have hattention := attention_set hi (.answered item)
      have hanswered : (Caller.answered item).cares = 0 := rfl
      dsimp only
      omega
    · exact h.closing hclosed (mem_set_asleep (by simp) hmem)
  unfold WaitingRoom.leave
  dsimp only
  split
  · rename_i halone
    rw [if_pos halone] at hleft
    exact hleft.ringOne
  · rename_i halone
    rwa [if_neg halone] at hleft

theorem Attended.callerStep (h : r.Attended 0) (hs : r.callerStep? i = some r') :
    r'.Attended 0 := by
  unfold callerStep? at hs
  split at hs
  · rename_i hi
    cases hs
    exact h.register hi
  · rename_i heard hi
    cases hs
    exact h.look hi
  · rename_i heard item hi
    cases hs
    refine h.leave hi ?_
    cases heard <;> exact Nat.le_refl _
  · rename_i heard hi
    cases hs
    refine h.move hi ?_ rfl nofun (.inr (Nat.add_le_add_left ?_ _))
    · exact Iff.rfl
    · cases heard <;> decide
  · cases hs
  · cases hs
  · cases hs

theorem Attended.giveUp (h : r.Attended 0) (i : Nat) : (r.giveUp i).Attended 0 := by
  unfold WaitingRoom.giveUp
  split
  · rename_i hi
    exact h.leave hi (Nat.zero_le _)
  · rename_i heard hi
    refine h.leave hi ?_
    cases heard <;> decide
  · exact h

/-! ## Those who change the backlog -/

/-- A name becomes ready only together with a ring. -/
theorem Attended.change {f : Backlog → Backlog} (h : r.Attended hand)
    (hf : r.backlog.Fills (f r.backlog)) : (r.change f).Attended hand := by
  have howed : ∀ which ∈ r.owed, which ∈ (r.change f).owed := by
    intro which hmem
    unfold WaitingRoom.change
    dsimp only
    split
    · exact List.mem_append_left _ hmem
    · exact hmem
  refine ⟨h.nodup, h.registered, h.leftOver, fun hmem => ?_, fun hclosed hmem => ?_⟩
  · have henough := h.enough hmem
    have hready := hf.ready
    unfold WaitingRoom.change
    dsimp only
    split
    · rw [List.count_append, List.count_singleton_self]
      omega
    · omega
  · exact howed _ (h.closing (hf.closed ▸ hclosed) hmem)

theorem Attended.close (h : r.Attended hand) : r.close.Attended hand where
  nodup := h.nodup
  registered := h.registered
  leftOver := h.leftOver
  enough hmem := by
    have henough := h.enough hmem
    simp only [WaitingRoom.close, Backlog.close, List.count_append]
    omega
  closing _ _ := List.mem_append_right _ (List.mem_singleton_self _)

/-! ## Runs -/

theorem Attended.steps (h : r.Attended 0) (hs : r.Steps r') : r'.Attended 0 := by
  cases hs with
  | enters => exact h.enter
  | goes hstep => exact h.callerStep hstep
  | givesUp i => exact h.giveUp i
  | changes hc => exact h.change (Backlog.fills_perform hc)
  | closes => exact h.close
  | rings which => exact h.ring which

theorem Reaches.attended {b : Backlog} (h : Reaches (initial b) r) : r.Attended 0 := by
  induction h with
  | start => exact attended_initial b
  | step _ hs ih => exact ih.steps hs

/-- Callers that have no step left care for nothing. -/
theorem AtRest.attention_eq (h : r.AtRest) : attention r.callers = 0 := by
  refine attention_eq_zero fun c hc => ?_
  obtain ⟨i, hi⟩ := List.getElem?_of_mem hc
  have hstep := h.2 i
  unfold callerStep? at hstep
  rw [hi] at hstep
  cases c with
  | asleep | answered => rfl
  | arriving | looking | leaving | woken => cases hstep

theorem Reaches.nobody_asleep {b : Backlog} (h : Reaches (initial b) r) :
    (r.AtRest → .asleep ∈ r.callers → r.backlog.ready = [] ∧ r.backlog.closed = false) ∧
    (r.backlog.closed = true → .all ∉ r.owed → .asleep ∉ r.callers) := by
  have hattended := h.attended
  refine ⟨fun hrest hmem => ⟨?_, ?_⟩, fun hclosed howed hmem => ?_⟩
  · have henough := hattended.enough hmem
    rw [hrest.1, hrest.attention_eq] at henough
    exact List.eq_nil_of_length_eq_zero (Nat.le_zero.1 henough)
  · refine Bool.eq_false_iff.2 fun hclosed => ?_
    have howed := hattended.closing hclosed hmem
    rw [hrest.1] at howed
    exact absurd howed List.not_mem_nil
  · exact howed (hattended.closing hclosed hmem)

section Example

/-- A step by name. -/
inductive Act
  | enter
  | go (i : Nat)
  | add (item : WorkItem)
  | close
  | ring (which : Ring)

/-- Takes a step; a caller that has none stays where it is. -/
def act (r : WaitingRoom) : Act → WaitingRoom
  | .enter => r.enter
  | .go i => (r.callerStep? i).getD r
  | .add item => r.change fun b => (b.perform (.add item)).1
  | .close => r.close
  | .ring which => r.ring which

theorem Reaches.acts (h : Reaches first r) (acts : List Act) :
    Reaches first (acts.foldl act r) := by
  induction acts generalizing r with
  | nil => exact h
  | cons a acts ih =>
    refine ih ?_
    cases a with
    | enter => exact h.step .enters
    | add item => exact h.step (.changes (c := .add item) trivial)
    | close => exact h.step .closes
    | ring which => exact h.step (.rings which)
    | go i =>
      show Reaches first ((r.callerStep? i).getD r)
      cases hs : r.callerStep? i with
      | none => exact h
      | some r' => exact h.step (.goes hs)

/-- Nobody has come yet, and there is no work. -/
def empty : WaitingRoom := initial (.initial (.initial 0 0))

/-- Three callers sleep when two names are added. Before the first of them who is woken can look, a
fourth comes and takes the first name; the second who is woken finds nothing and sleeps again. -/
def crowded : WaitingRoom :=
  [.enter, .enter, .enter, .go 0, .go 1, .go 2, .go 0, .go 1, .go 2,
    .add ⟨.cluster "n1", .add⟩, .add ⟨.cluster "n2", .add⟩, .ring .one, .enter, .go 3, .go 3,
    .ring .one, .go 3, .go 0, .go 0, .go 0, .go 0, .go 1, .go 1, .go 1].foldl act empty

/-- The backlog is closed, and the ring for all has come. -/
def deserted : WaitingRoom := [.close, .ring .all].foldl act crowded

theorem nobody_asleep_of_crowded :
    (Reaches empty crowded ∧ crowded.AtRest ∧ crowded.callers.count .asleep = 2 ∧
      crowded.backlog.ready = []) ∧
    (Reaches empty deserted ∧ deserted.backlog.closed = true ∧ .all ∉ deserted.owed ∧
      .asleep ∉ deserted.callers) := by
  have hcrowded : Reaches empty crowded := Reaches.start.acts _
  have hdeserted : Reaches empty deserted := hcrowded.acts _
  have hrest : crowded.AtRest := atRest_iff.2 (Option.isNone_iff_eq_none.1 (by decide +kernel))
  have hcount : crowded.callers.count .asleep = 2 := by decide +kernel
  have hasleep : .asleep ∈ crowded.callers := List.count_pos_iff.1 (hcount ▸ Nat.two_pos)
  have hclosed : deserted.backlog.closed = true := by decide +kernel
  have howed : .all ∉ deserted.owed := by decide +kernel
  exact ⟨⟨hcrowded, hrest, hcount, (hcrowded.nobody_asleep.1 hrest hasleep).1⟩,
    hdeserted, hclosed, howed, hdeserted.nobody_asleep.2 hclosed howed⟩

end Example

end WaitingRoom

end ClusterSync

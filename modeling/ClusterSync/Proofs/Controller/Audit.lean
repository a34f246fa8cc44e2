import ClusterSync.Proofs.Controller.Attempts

/-!
# Audits

An audit goes through a run of a controller from its beginning and adds up how many items events
were said to lead to. A worker may break down at any time, and what it has stays held.

As long as no worker breaks down over an item, every name lives the life of `Standing`. Once one
does, its name has gone astray: it is held for good, and no worker has it.

**Theorem (`Audit.handedOut_perm`).** When nothing is held, the names that have been handed out are
those whose deliveries have ended, each as often.

**Theorem (`Audit.putOffs_eq_zero`).** When nothing is held, a name whose last delivery succeeded or
ended with its item given up has no failures counted.
-/

namespace ClusterSync

variable {σ : Type}

/-! ## What a record tells of deliveries -/

namespace Incident

/-- The name that is handed out. -/
def handedOut? : Incident → Option ObjectName
  | .handedOut item => some item.name
  | _ => none

/-- The name whose delivery has ended. -/
def concluded? : Incident → Option ObjectName
  | .succeeded item | .failed item .. => some item.name
  | _ => none

end Incident

namespace Record

/-- The names that have been handed out, the latest first. -/
def handedOut (past : Record) : List ObjectName := past.filterMap Incident.handedOut?

/-- The names whose deliveries have ended, the latest first. -/
def concluded (past : Record) : List ObjectName := past.filterMap Incident.concluded?

theorem handedOut_cons (i : Incident) (past : Record) :
    handedOut (i :: past) = i.handedOut?.toList ++ past.handedOut := by
  cases h : i.handedOut? <;> simp [handedOut, h]

theorem concluded_cons (i : Incident) (past : Record) :
    concluded (i :: past) = i.concluded?.toList ++ past.concluded := by
  cases h : i.concluded? <;> simp [concluded, h]

/-- A name is handed out as often as its deliveries begin, and it is concluded as often as they
end. -/
theorem count_eq_tally (n : ObjectName) (past : Record) :
    past.handedOut.count n = (past.tally n).begun ∧
      past.concluded.count n = (past.tally n).endings.length := by
  induction past with
  | nil => exact ⟨rfl, rfl⟩
  | cons i past ih =>
    rw [handedOut_cons, concluded_cons, List.count_append, List.count_append, ih.1, ih.2]
    by_cases hi : i.Concerns n
    · rw [tally_cons hi]
      cases i with
      | closed => simp [Incident.handedOut?, Incident.concluded?, Tally.note]
      | added item again =>
        cases again <;> simp [Incident.handedOut?, Incident.concluded?, Tally.note]
      | handedOut item | succeeded item | failed item | putOff item | forgot item
      | released item =>
        have hn : item.name = n := hi
        simp [Incident.handedOut?, Incident.concluded?, Tally.note, hn, Nat.add_comm]
    · rw [show tally n (i :: past) = tally n past from if_neg hi]
      cases i with
      | closed => exact absurd trivial hi
      | added item | handedOut item | succeeded item | failed item | putOff item | forgot item
      | released item =>
        have hn : item.name ≠ n := hi
        simp [Incident.handedOut?, Incident.concluded?, hn]

end Record

/-- The last delivery succeeded, or it ended with the item given up. -/
def Tally.IsSettled (t : Tally) : Prop := ∃ x, t.endings.head? = some x ∧ x.isRequeued = false

namespace Standing

variable {n : ObjectName} {most : Nat} {past : Record} {st : Standing}

theorem tally_some {i : Incident} (hi : i.Concerns n) :
    Record.tally n ((some i).toList ++ past) = (past.tally n).note i := Record.tally_cons hi

/-- Every delivery that has begun has ended, but for the one that a worker is at. -/
theorem Lives.begun_eq (h : Lives n most past st) :
    (past.tally n).begun = (past.tally n).endings.length + st.working := by
  induction h with
  | start => rfl
  | @goes past o st st' _ hg ih =>
    cases hg with
    | stays ho => rwa [Record.tally_of_not_concerns ho]
    | closes => exact ih
    | adds | fires =>
      rw [tally_some]
      · unfold Standing.add
        split <;> exact ih
      · exact rfl
    | readds hh =>
      simp only [working, hh] at ih
      rw [tally_some]
      · unfold Standing.add
        split <;> exact ih
      · exact rfl
    | takes _ hh =>
      simp only [working, hh] at ih
      rw [tally_some]
      · exact congrArg (· + 1) ih
      · exact rfl
    | @judges _ _ verdict hh =>
      simp only [working, hh] at ih
      rw [tally_some]
      · by_cases hv : verdict = .requeue
        · simp only [working, if_pos hv]
          exact ih
        · simp only [working, if_neg hv]
          exact ih
      · exact rfl
    | succeeds hh | counts _ hh | forgets hh | releases hh =>
      simp only [working, hh] at ih
      rw [tally_some]
      · exact ih
      · exact rfl
    | desists hh | delays hh =>
      simp only [working, hh] at ih
      exact ih

/-- No failure is counted any more, or a worker is about to see to that. -/
def Forgets (st : Standing) : Prop :=
  match st.hold with
  | some (_, .counting) | some (_, .returning _) => False
  | some (_, .forgetting) => True
  | some (_, .working) | some (_, .releasing) | none => st.putOffs = 0

/-- Once a delivery has succeeded or the item has been given up, earlier failures are forgotten. -/
theorem Lives.forgets (h : Lives n most past st) (hs : (past.tally n).IsSettled) : st.Forgets := by
  induction h with
  | start =>
    obtain ⟨x, hx, -⟩ := hs
    cases hx
  | @goes past o st st' _ hg ih =>
    cases hg with
    | stays ho =>
      rw [Record.tally_of_not_concerns ho] at hs
      exact ih hs
    | closes => exact ih hs
    | adds | fires =>
      rw [tally_some] at hs
      · have hforgets := ih hs
        unfold Standing.add
        split <;> exact hforgets
      · exact rfl
    | takes _ hh | releases hh =>
      rw [tally_some] at hs
      · have hforgets := ih hs
        simp only [Forgets, hh] at hforgets
        exact hforgets
      · exact rfl
    | judges hh =>
      rw [tally_some] at hs
      · obtain ⟨x, hx, hsettled⟩ := hs
        cases hx
        have hverdict : ¬ _ = Verdict.requeue := of_decide_eq_false hsettled
        simp only [Forgets, if_neg hverdict]
      · exact rfl
    -- What is counted or put off was judged worth another delivery when it failed.
    | counts _ hh | readds hh =>
      rw [tally_some] at hs
      · have hforgets := ih hs
        simp only [Forgets, hh] at hforgets
      · exact rfl
    | desists hh | delays hh =>
      have hforgets := ih hs
      simp only [Forgets, hh] at hforgets
    | succeeds | forgets => exact rfl

end Standing

/-! ## Names that go astray -/

namespace Backlog

variable {b b' : Backlog} {n m : ObjectName} {item : WorkItem}

/-- A name is held, and it is not to be handed out. -/
def Withholds (b : Backlog) (n : ObjectName) : Prop := n ∈ b.held ∧ n ∉ b.ready

theorem Withholds.add (h : b.Withholds n) (item : WorkItem) : (b.add item).Withholds n := by
  obtain ⟨hheld, hready⟩ := h
  rw [Withholds, held_add]
  refine ⟨hheld, ?_⟩
  rw [add_eq]
  dsimp only
  split
  · exact hready
  · rename_i hnew
    intro hmem
    rcases List.mem_append.1 hmem with hmem | hmem
    · exact hready hmem
    · rw [List.mem_singleton.1 hmem] at hheld
      exact hnew (.inr (.inr hheld))

theorem Withholds.fire (h : b.Withholds n) (i : Nat) : (b.fire i).Withholds n := by
  unfold Backlog.fire
  split
  · exact h
  · have hsame : ({ b with delayed := b.delayed.eraseIdx i } : Backlog).Withholds n := h
    exact hsame.add _

/-- Another name is handed out. -/
theorem Withholds.take (h : b.Withholds n) (ht : b.take? = some (item, b')) :
    item.name ≠ n ∧ b'.Withholds n := by
  obtain ⟨hheld, hready⟩ := h
  unfold take? at ht
  split at ht
  · cases ht
  · rename_i name rest hlist
    cases ht
    rw [hlist, List.mem_cons, not_or] at hready
    refine ⟨fun heq => hready.1 heq.symm, ?_, hready.2⟩
    rw [Std.ExtTreeSet.mem_insert]
    exact .inr hheld

theorem Withholds.release (h : b.Withholds n) (hm : m ≠ n) : (b.release m).Withholds n := by
  obtain ⟨hheld, hready⟩ := h
  refine ⟨mem_held_release.2 ⟨hm, hheld⟩, ?_⟩
  rw [ready_release]
  split
  · simp [hready, Ne.symm hm]
  · exact hready

end Backlog

namespace Shift

variable {s s' first : Shift σ} {backend : Backend σ} {n : ObjectName} {i : Nat} {w : Worker}
  {item : WorkItem} {m : Move} {o : Option Incident} {past : Record} {promised : Nat}

/-- A name is held, and no worker has it. -/
structure Astray (s : Shift σ) (n : ObjectName) : Prop where
  withheld : s.backlog.Withholds n
  nobody : ∀ w ∈ s.pipeline.workers, w.name? ≠ some n

theorem Astray.set (h : s.Astray n) (hset : s'.pipeline.workers = s.pipeline.workers.set i w)
    (hw : w.name? ≠ some n) (hb : s'.backlog.Withholds n) : s'.Astray n where
  withheld := hb
  nobody := by
    rw [hset]
    intro v hv
    rcases List.mem_or_eq_of_mem_set hv with hv | rfl
    · exact h.nobody v hv
    · exact hw

theorem Astray.works (h : s.Astray n) (hw : s.Works backend i o s') : s'.Astray n := by
  have hother {w : Worker} (hi : s.pipeline.workers[i]? = some w) : w.name? ≠ some n :=
    h.nobody w (List.mem_of_getElem? hi)
  cases hw with
  | takes hi ht =>
    obtain ⟨hne, hb⟩ := h.withheld.take ht
    exact h.set rfl (fun hname => hne (Option.some.inj hname)) hb
  | leaves hi => exact h.set rfl nofun h.withheld
  | looks hi | talks hi | succeeds hi | desists hi | delays hi | forgets hi =>
    have hname := hother hi
    exact h.set rfl hname h.withheld
  | judges | counts => exact ⟨h.withheld, h.nobody⟩
  | readds hi =>
    have hname := hother hi
    exact h.set rfl hname (h.withheld.add _)
  | releases hi =>
    have hname := hother hi
    refine h.set rfl nofun (h.withheld.release fun heq => hname ?_)
    exact congrArg some heq

/-- What is astray stays so. -/
theorem Astray.moves (h : s.Astray n) (hm : s.Moves backend m o s') : s'.Astray n := by
  cases hm with
  | starts | told | takesIn | abandons | waits => exact ⟨h.withheld, h.nobody⟩
  | hands | adds => exact ⟨h.withheld.add _, h.nobody⟩
  | works hw => exact h.works hw
  | fires => exact ⟨h.withheld.fire _, h.nobody⟩
  | responds hr =>
    cases hr with
    | starts =>
      refine ⟨h.withheld, fun w hw => ?_⟩
      rw [List.eq_of_mem_replicate hw]
      nofun
    | fails | drains | reports | stops => exact ⟨h.withheld, h.nobody⟩

/-! ## Runs in which workers may break down -/

/-- A worker breaks down. -/
def breakDown (s : Shift σ) (i : Nat) : Shift σ := s.setPipeline (s.pipeline.setWorker i .broken)

/-- The number of items that an event is said to lead to when it is taken in. -/
def returned (s : Shift σ) : Move → Nat
  | .takeIn event => ((s.pipeline.receive? event).map Prod.snd).getD 0
  | _ => 0

/-- The records and shifts that moves and breakdowns lead to, with the sum of the numbers of items
that events were said to lead to. -/
inductive Audit (backend : Backend σ) (first : Shift σ) : Record → Nat → Shift σ → Prop
  | start : Audit backend first [] 0 first
  | move {past : Record} {promised : Nat} {s s' : Shift σ} {m : Move} {o : Option Incident}
      (h : Audit backend first past promised s) (hm : s.move? backend m = some (o, s')) :
      Audit backend first (o.toList ++ past) (s.returned m + promised) s'
  | breakDown {past : Record} {promised : Nat} {s : Shift σ} {i : Nat} {w : Worker}
      (h : Audit backend first past promised s) (hw : s.pipeline.workers[i]? = some w)
      (hg : w.isGone = false) : Audit backend first past promised (s.breakDown i)

/-- Every run can be audited. -/
theorem Reaches.audit (h : Reaches backend first past s) :
    ∃ promised, Audit backend first past promised s := by
  induction h with
  | start => exact ⟨0, .start⟩
  | move _ hm ih =>
    obtain ⟨promised, haudit⟩ := ih
    exact ⟨_, haudit.move hm⟩

/-- What holds of a shift as long as no worker has broken down over an item. -/
structure Regular (s : Shift σ) (most : Nat) (past : Record) : Prop where
  onCourse : s.OnCourse
  inOrder : s.InOrder
  maxRetries : s.pipeline.maxRetries = most
  lives : ∀ n, ∃ st, s.Shows n st ∧ Standing.Lives n most past st

variable {most : Nat}

theorem Regular.moves (h : s.Regular most past) (hm : s.Moves backend m o s') :
    s'.Regular most (o.toList ++ past) where
  onCourse := h.onCourse.moves hm
  inOrder := h.inOrder.moves h.onCourse hm
  maxRetries := hm.maxRetries_eq.trans h.maxRetries
  lives n := by
    obtain ⟨st, ⟨hholds, hst⟩, hlives⟩ := h.lives n
    obtain ⟨hold', hholds', hgoes⟩ := goes_of_moves h.inOrder h.onCourse hholds hm
    rw [← hst, h.maxRetries] at hgoes
    exact ⟨_, ⟨hholds', rfl⟩, hlives.goes hgoes⟩

/-- Other workers stay as they were. -/
theorem getElem?_breakDown {j : Nat} {v : Worker} (hw : s.pipeline.workers[i]? = some w)
    (hj : s.pipeline.workers[j]? = some v) (hne : w.name? ≠ v.name?) :
    (s.breakDown i).pipeline.workers[j]? = some v := by
  have hij : i ≠ j := by
    rintro rfl
    cases hw.symm.trans hj
    exact hne rfl
  exact (List.getElem?_set_ne hij).trans hj

theorem OnCourse.breakDown (h : s.OnCourse) (hw : s.pipeline.workers[i]? = some w)
    (hg : w.isGone = false) : (s.breakDown i).OnCourse := by
  have hmem : w ∈ s.pipeline.workers := List.mem_of_getElem? hw
  have hne : s.pipeline.workers ≠ [] := List.ne_nil_of_mem hmem
  have hne' : (s.breakDown i).pipeline.workers ≠ [] := by
    change s.pipeline.workers.set i .broken ≠ []
    simpa using hne
  have hstate : (s.breakDown i).controller.state = s.controller.state := rfl
  unfold OnCourse at h ⊢
  rw [hstate]
  cases hs : s.controller.state with
  | initializing | syncing | failed =>
    rw [hs] at h
    exact absurd h.1 hne
  | running | draining =>
    rw [hs] at h
    exact ⟨hne', h.2⟩
  | stopped =>
    rw [hs] at h
    have hall := List.all_eq_true.1 h.2.2.2 w hmem
    rw [hg] at hall
    cases hall

/-- A worker that has nothing may break down. -/
theorem Regular.breakDown (h : s.Regular most past) (hw : s.pipeline.workers[i]? = some w)
    (hg : w.isGone = false) (hn : w.name? = none) : (s.breakDown i).Regular most past where
  onCourse := h.onCourse.breakDown hw hg
  inOrder := by
    refine ⟨h.inOrder.orderly.setWorker hw hn.symm, fun {j} hj => ?_⟩
    obtain ⟨item, e, hfailing⟩ := h.inOrder.failing hj
    exact ⟨item, e, getElem?_breakDown hw hfailing (by rw [hn]; nofun)⟩
  maxRetries := h.maxRetries
  lives n := by
    obtain ⟨st, ⟨hholds, hst⟩, hlives⟩ := h.lives n
    refine ⟨st, ⟨hholds.congr id fun j v hj hv => ⟨?_, rfl⟩, hst⟩, hlives⟩
    exact getElem?_breakDown hw hj (by rw [hn, hv]; nofun)

/-- The name of a worker that breaks down goes astray. -/
theorem InOrder.breakDown (h : s.InOrder) (hw : s.pipeline.workers[i]? = some w)
    (hn : w.name? = some n) : (s.breakDown i).Astray n := by
  have hheld : n ∈ s.backlog.held := h.orderly.held hw hn
  refine ⟨⟨hheld, fun hready => h.orderly.sound.not_held_of_ready n hready hheld⟩, ?_⟩
  intro v hv
  obtain ⟨j, hj⟩ := List.mem_iff_getElem?.1 hv
  rcases Pipeline.getElem?_setWorker hj with ⟨-, rfl⟩ | ⟨hij, hj⟩
  · nofun
  · intro hname
    exact hij (h.orderly.single hw hj hn hname)

theorem Astray.breakDown (h : s.Astray n) (i : Nat) : (s.breakDown i).Astray n :=
  h.set rfl nofun h.withheld

/-- Nobody has a name that is not held. -/
theorem Regular.hold_eq_none {st : Standing} (h : s.Regular most past) (hs : s.Shows n st)
    (hfree : n ∉ s.backlog.held) : st.hold = none := by
  cases hhold : st.hold with
  | none => rfl
  | some hold =>
    obtain ⟨hholds, -⟩ := hs
    rw [hhold] at hholds
    obtain ⟨i, w, hi, hitem, -⟩ := hholds
    have hname : w.name? = some n := by
      rw [Worker.name?, hitem]
      rfl
    exact absurd (h.inOrder.orderly.held hi hname) hfree

/-- Nothing is held if no worker has an item. -/
theorem InOrder.not_held (h : s.InOrder) (hidle : ∀ w ∈ s.pipeline.workers, w.item? = none)
    (n : ObjectName) : n ∉ s.backlog.held := by
  intro hheld
  obtain ⟨i, w, hi, hname⟩ := h.orderly.had hheld
  rw [Worker.name?, hidle w (List.mem_of_getElem? hi)] at hname
  cases hname

section Audited

variable {kind : Kind} {base max : Duration} {settings : ControllerSettings} {store : σ}

/-- Either no worker has broken down over an item, or there is a name that has gone astray. -/
theorem Audit.regular_or_astray
    (h : Audit backend (initial kind base max settings store) past promised s) :
    s.Regular settings.maxRetries past ∨ ∃ n, s.Astray n := by
  induction h with
  | start =>
    have hstart : Reaches backend (initial kind base max settings store) [] _ := .start
    exact .inl ⟨hstart.onCourse, hstart.inOrder, rfl, hstart.lives⟩
  | move _ hm ih =>
    rcases ih with hregular | ⟨n, hastray⟩
    · exact .inl (hregular.moves (moves_of_move? hm))
    · exact .inr ⟨n, hastray.moves (moves_of_move? hm)⟩
  | @breakDown _ _ s i w _ hw hg ih =>
    rcases ih with hregular | ⟨n, hastray⟩
    · cases hn : w.name? with
      | none => exact .inl (hregular.breakDown hw hg hn)
      | some n => exact .inr ⟨n, hregular.inOrder.breakDown hw hn⟩
    · exact .inr ⟨n, hastray.breakDown i⟩

/-- When nothing is held, no worker has broken down over an item. -/
theorem Audit.regular (h : Audit backend (initial kind base max settings store) past promised s)
    (hrest : ∀ n, n ∉ s.backlog.held) : s.Regular settings.maxRetries past := by
  rcases h.regular_or_astray with hregular | ⟨n, hastray⟩
  · exact hregular
  · exact absurd hastray.withheld.1 (hrest n)

/-- When nothing is held, what has been handed out is what has been concluded. -/
theorem Audit.handedOut_perm
    (h : Audit backend (initial kind base max settings store) past promised s)
    (hrest : ∀ n, n ∉ s.backlog.held) : past.handedOut.Perm past.concluded := by
  have hregular := h.regular hrest
  refine List.perm_iff_count.2 fun n => ?_
  obtain ⟨st, hshows, hlives⟩ := hregular.lives n
  have hhold := hregular.hold_eq_none hshows (hrest n)
  obtain ⟨hhandedOut, hconcluded⟩ := Record.count_eq_tally n past
  rw [hhandedOut, hconcluded, hlives.begun_eq]
  simp [Standing.working, hhold]

/-- When nothing is held, a name whose last delivery was not judged worth another has no failures
counted. -/
theorem Audit.putOffs_eq_zero
    (h : Audit backend (initial kind base max settings store) past promised s)
    (hrest : ∀ n, n ∉ s.backlog.held) (hs : (past.tally n).IsSettled) :
    s.backlog.putOffs n = 0 := by
  have hregular := h.regular hrest
  obtain ⟨st, hshows, hlives⟩ := hregular.lives n
  have hhold := hregular.hold_eq_none hshows (hrest n)
  have hforgets := hlives.forgets hs
  rw [Standing.Forgets, hhold] at hforgets
  have hputOffs : st.putOffs = s.backlog.putOffs n := congrArg Standing.putOffs hshows.2
  exact hputOffs ▸ hforgets

end Audited

end Shift
end ClusterSync

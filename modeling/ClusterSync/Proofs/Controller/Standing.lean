import ClusterSync.Proofs.Controller.Shift

/-!
# One name on duty

What a shift looks like from one name: the change that waits for it, what the worker that has it is
doing, the changes that are delayed, how often it has been put off, and whether the backlog is
closed. Seen like that, a controller with any number of workers is a small machine.

**Theorem (`Reaches.lives`).** Every run of a controller is, for every name, a run of that machine.
What has to be known of one name at a time is proved about the machine.
-/

namespace ClusterSync

variable {σ : Type}

/-- What the worker that has a name is doing. -/
inductive Hold
  /-- It is about to look the object up, or talks to the datastore. -/
  | working
  | counting
  | returning (delay : Duration)
  | forgetting
  | releasing
  deriving DecidableEq

/-- What a worker is doing, given how far it has come with a failure. -/
def Hold.of (w : Worker) : RetryStage → Hold
  | .unjudged =>
    match w with
    | .releasing _ => .releasing
    | .idle | .holding _ | .talking .. | .finished | .broken => .working
  | .counting => .counting
  | .returning delay => .returning delay
  | .forgetting => .forgetting

/-- How a name stands. -/
structure Standing where
  /-- The change that waits for the name. -/
  waiting : Option Change
  /-- The change that a worker has, and what it is doing. -/
  hold : Option (Change × Hold)
  /-- The changes that are to be added after a delay. -/
  delayed : List Change
  putOffs : Nat
  closed : Bool

/-- Whether an incident is about a name. -/
def Incident.Concerns (n : ObjectName) : Incident → Prop
  | .closed => True
  | .added item _ | .handedOut item | .succeeded item | .failed item .. | .putOff item
  | .forgot item | .released item => item.name = n

theorem Incident.none_concerns {n : ObjectName} :
    ∀ i ∈ (none : Option Incident), ¬ i.Concerns n :=
  nofun

namespace Standing

/-- Nothing has happened to the name yet. -/
def fresh : Standing := ⟨none, none, [], 0, false⟩

/-- The standing after a change has been added. -/
def add (st : Standing) (c : Change) : Standing :=
  if st.closed then st else { st with waiting := some c }

/-- What can happen to a name, where `most` is how often an item may be delivered. -/
inductive Goes (n : ObjectName) (most : Nat) (st : Standing) : Option Incident → Standing → Prop
  | stays {o : Option Incident} (ho : ∀ i ∈ o, ¬ i.Concerns n) : Goes n most st o st
  | closes : Goes n most st (some .closed) { st with closed := true }
  | adds (c : Change) : Goes n most st (some (.added ⟨n, c⟩ false)) (st.add c)
  | fires {before after : List Change} {c : Change} (hd : st.delayed = before ++ c :: after) :
      Goes n most st (some (.added ⟨n, c⟩ true)) ({ st with delayed := before ++ after }.add c)
  | takes {c : Change} (hw : st.waiting = some c) (hh : st.hold = none) :
      Goes n most st (some (.handedOut ⟨n, c⟩))
        { st with waiting := none, hold := some (c, .working) }
  | succeeds {c : Change} (hh : st.hold = some (c, .working)) :
      Goes n most st (some (.succeeded ⟨n, c⟩))
        { st with hold := some (c, .releasing), putOffs := 0 }
  | judges {c : Change} {e : DeliveryError} {verdict : Verdict}
      (hh : st.hold = some (c, .working))
      (hv : RetryPolicy.decide e (min (st.putOffs + 1) Backoff.maxCount) most = verdict) :
      Goes n most st (some (.failed ⟨n, c⟩ e verdict))
        { st with hold := some (c, if verdict = .requeue then .counting else .forgetting) }
  | counts {c : Change} (delay : Duration) (hh : st.hold = some (c, .counting))
      (hc : st.closed = false) :
      Goes n most st (some (.putOff ⟨n, c⟩))
        { st with
          hold := some (c, .returning delay)
          putOffs := min (st.putOffs + 1) Backoff.maxCount }
  | desists {c : Change} (hh : st.hold = some (c, .counting)) (hc : st.closed = true) :
      Goes n most st none { st with hold := some (c, .releasing) }
  | readds {c : Change} {delay : Duration} (hh : st.hold = some (c, .returning delay)) :
      Goes n most st (some (.added ⟨n, c⟩ true)) ({ st with hold := some (c, .releasing) }.add c)
  | delays {c : Change} {delay : Duration} (hh : st.hold = some (c, .returning delay)) :
      Goes n most st none
        { st with hold := some (c, .releasing), delayed := st.delayed ++ [c] }
  | forgets {c : Change} (hh : st.hold = some (c, .forgetting)) :
      Goes n most st (some (.forgot ⟨n, c⟩))
        { st with hold := some (c, .releasing), putOffs := 0 }
  | releases {c : Change} (hh : st.hold = some (c, .releasing)) :
      Goes n most st (some (.released ⟨n, c⟩)) { st with hold := none }

theorem Goes.idle {n : ObjectName} {most : Nat} {st : Standing} : st.Goes n most none st :=
  .stays Incident.none_concerns

/-- The records and standings that a name comes to. -/
inductive Lives (n : ObjectName) (most : Nat) : Record → Standing → Prop
  | start : Lives n most [] fresh
  | goes {past : Record} {o : Option Incident} {st st' : Standing} (h : Lives n most past st)
      (hg : st.Goes n most o st') : Lives n most (o.toList ++ past) st'

end Standing

/-! ## How the backlog stands to a name -/

namespace Backlog

variable {b : Backlog} {item : WorkItem} {n : ObjectName} {hold : Option (Change × Hold)}

/-- How a name stands, given what its worker is doing. -/
def standing (b : Backlog) (n : ObjectName) (hold : Option (Change × Hold)) : Standing where
  waiting := b.pending[n]?
  hold := hold
  delayed := (b.delayed.filter (·.item.name = n)).map (·.item.change)
  putOffs := b.putOffs n
  closed := b.closed

theorem standing_add (h : item.name = n) :
    (b.add item).standing n hold = (b.standing n hold).add item.change := by
  by_cases hc : b.closed = true
  · rw [add_of_closed hc, Standing.add, if_pos (show (b.standing n hold).closed = true from hc)]
  · have hopen : b.closed = false := by simpa using hc
    rw [Standing.add, if_neg (show ¬ (b.standing n hold).closed = true from hc)]
    simp only [standing, getElem?_pending_add hopen, delayed_add, putOffs_add, closed_add, if_pos h]

theorem standing_add_of_ne (h : item.name ≠ n) :
    (b.add item).standing n hold = b.standing n hold := by
  by_cases hc : b.closed = true
  · rw [add_of_closed hc]
  · have hopen : b.closed = false := by simpa using hc
    simp only [standing, getElem?_pending_add hopen, delayed_add, putOffs_add, closed_add, if_neg h]

theorem standing_take {b' : Backlog} (hs : b.Sound) (ht : b.take? = some (item, b')) :
    b'.standing n hold =
      { b.standing n hold with
        waiting := if item.name = n then none else b.pending[n]? } := by
  obtain ⟨hclosed, hbackoff, hdelayed⟩ := take?_keeps ht
  simp only [standing, getElem?_pending_take hs ht, hclosed, hdelayed, putOffs, hbackoff]

theorem standing_release {m : ObjectName} :
    (b.release m).standing n hold = b.standing n hold := by
  simp only [standing, pending_release, delayed_release, putOffs_release, closed_release]

theorem standing_forget {m : ObjectName} :
    (b.forget m).standing n hold =
      { b.standing n hold with putOffs := if m = n then 0 else b.putOffs n } := by
  simp only [standing, putOffs_forget]
  rfl

theorem standing_backoff {backoff : Backoff} {m : ObjectName} {delay : Duration}
    (h : b.backoff.next m = (delay, backoff)) :
    ({ b with backoff } : Backlog).standing n hold =
      { b.standing n hold with
        putOffs := if m = n then min (b.putOffs n + 1) Backoff.maxCount else b.putOffs n } := by
  have hcount := b.backoff.count_next m n
  rw [h] at hcount
  simp only [standing, putOffs, hcount]

theorem standing_delayed {due : Nat} :
    ({ b with delayed := b.delayed ++ [⟨due, item⟩] } : Backlog).standing n hold =
      { b.standing n hold with
        delayed := (b.standing n hold).delayed ++
          if item.name = n then [item.change] else [] } := by
  by_cases hn : item.name = n <;> simp [standing, putOffs, hn]

/-- The delayed work before and after the one whose delay is over. -/
theorem exists_fire {i : Nat} {d : Delayed} (hd : b.delayed[i]? = some d) :
    ∃ before after, b.delayed = before ++ d :: after ∧
      b.fire i = { b with delayed := before ++ after }.add d.item := by
  obtain ⟨hi, rfl⟩ := List.getElem?_eq_some_iff.1 hd
  refine ⟨b.delayed.take i, b.delayed.drop (i + 1), ?_, ?_⟩
  · rw [List.getElem_cons_drop, List.take_append_drop]
  · unfold fire
    rw [hd, List.eraseIdx_eq_take_drop_succ]

theorem standing_fire {i : Nat} {d : Delayed} (hd : b.delayed[i]? = some d) (hn : d.item.name = n)
    (hold : Option (Change × Hold)) :
    ∃ before after, (b.standing n hold).delayed = before ++ d.item.change :: after ∧
      (b.fire i).standing n hold =
        ({ b.standing n hold with delayed := before ++ after }).add d.item.change := by
  obtain ⟨before, after, hsplit, hfire⟩ := exists_fire hd
  refine ⟨(before.filter (·.item.name = n)).map (·.item.change),
    (after.filter (·.item.name = n)).map (·.item.change), ?_, ?_⟩
  · simp [standing, hsplit, hn]
  · rw [hfire, standing_add hn]
    simp [standing, putOffs]

theorem standing_fire_of_ne {i : Nat} {d : Delayed} (hd : b.delayed[i]? = some d)
    (hn : d.item.name ≠ n) : (b.fire i).standing n hold = b.standing n hold := by
  obtain ⟨before, after, hsplit, hfire⟩ := exists_fire hd
  rw [hfire, standing_add_of_ne hn]
  simp [standing, putOffs, hsplit, hn]

end Backlog

/-! ## How a shift stands to a name -/

namespace Shift

variable {s s' : Shift σ} {backend : Backend σ} {n : ObjectName} {hold : Option (Change × Hold)}
  {i : Nat} {w : Worker} {item : WorkItem} {o : Option Incident} {m : Move}

/-- What the worker that has a name is doing; none if no worker has it. -/
def Holds (s : Shift σ) (n : ObjectName) : Option (Change × Hold) → Prop
  | none => n ∉ s.backlog.held
  | some (c, hold) => ∃ i w, s.pipeline.workers[i]? = some w ∧ w.item? = some ⟨n, c⟩ ∧
      Hold.of w (s.stages i) = hold

/-- Other names do not count. -/
theorem Holds.congr (h : s.Holds n hold) (hheld : n ∈ s'.backlog.held → n ∈ s.backlog.held)
    (hworkers : ∀ j w, s.pipeline.workers[j]? = some w → w.name? = some n →
      s'.pipeline.workers[j]? = some w ∧ s'.stages j = s.stages j) : s'.Holds n hold := by
  cases hold with
  | none => exact fun hn => h (hheld hn)
  | some hold =>
    obtain ⟨j, w, hj, hitem, hhold⟩ := h
    have hname : w.name? = some n := by rw [Worker.name?, hitem]; rfl
    obtain ⟨hj', hstage⟩ := hworkers j w hj hname
    exact ⟨j, w, hj', hitem, hstage ▸ hhold⟩

/-- A worker that has a name is the one that holds it. -/
theorem InOrder.hold_eq (h : s.InOrder) (hh : s.Holds n hold)
    (hw : s.pipeline.workers[i]? = some w) (hitem : w.item? = some item) (hn : item.name = n) :
    hold = some (item.change, Hold.of w (s.stages i)) := by
  have hname : w.name? = some n := by rw [Worker.name?, hitem, ← hn]; rfl
  cases hold with
  | none => exact absurd (h.orderly.held hw hname) hh
  | some hold =>
    obtain ⟨c, hold⟩ := hold
    obtain ⟨j, v, hj, hitem', rfl⟩ := hh
    have hname' : v.name? = some n := by rw [Worker.name?, hitem']; rfl
    obtain rfl := h.orderly.single hw hj hname hname'
    cases hw.symm.trans hj
    cases hitem.symm.trans hitem'
    rfl

/-- An incident that concerns only the name of an item does not concern another name. -/
theorem not_concerns {x : Incident} (hx : x.Concerns n → item.name = n) (hn : item.name ≠ n) :
    ∀ y ∈ some x, ¬ y.Concerns n := by
  rintro _ ⟨⟩ hc
  exact hn (hx hc)

/-- What does not concern a name leaves it as it stands. -/
theorem stays (hh : s.Holds n hold) (hheld : n ∈ s'.backlog.held → n ∈ s.backlog.held)
    (hworkers : ∀ j w, s.pipeline.workers[j]? = some w → w.name? = some n →
      s'.pipeline.workers[j]? = some w ∧ s'.stages j = s.stages j)
    (ho : ∀ i ∈ o, ¬ i.Concerns n)
    (hb : s'.backlog.standing n hold = s.backlog.standing n hold) {most : Nat} :
    ∃ hold', s'.Holds n hold' ∧
      (s.backlog.standing n hold).Goes n most o (s'.backlog.standing n hold') :=
  ⟨hold, hh.congr hheld hworkers, hb ▸ .stays ho⟩

/-- A step of a worker that is about another name. -/
theorem Works.elsewhere (hs : s.InOrder) (hw : s.Works backend i o s')
    (hne : ∀ w, s.pipeline.workers[i]? = some w → w.name? ≠ some n)
    (ho : ∀ x ∈ o, ¬ x.Concerns n) :
    (n ∈ s'.backlog.held → n ∈ s.backlog.held) ∧
      s'.backlog.standing n hold = s.backlog.standing n hold := by
  have hother : ∀ {w : Worker} {item : WorkItem}, s.pipeline.workers[i]? = some w →
      w.item? = some item → item.name ≠ n := fun hi hitem hn =>
    hne _ hi (by rw [Worker.name?, hitem, ← hn]; rfl)
  cases hw with
  | @takes item backlog hw ht =>
    have hn : item.name ≠ n := ho _ rfl
    refine ⟨fun h => ((Backlog.mem_held_take hs.orderly.sound ht).1 h).resolve_left hn, ?_⟩
    change backlog.standing n hold = _
    rw [Backlog.standing_take hs.orderly.sound ht, if_neg hn]
    rfl
  | leaves | looks | talks | judges | desists => exact ⟨id, rfl⟩
  | succeeds hw | forgets hw =>
    refine ⟨id, Backlog.standing_forget.trans ?_⟩
    rw [if_neg (hother hw rfl)]
    rfl
  | counts hw _ _ hnext =>
    refine ⟨id, (Backlog.standing_backoff (b := s.backlog) hnext).trans ?_⟩
    rw [if_neg (hother hw rfl)]
    rfl
  | readds hw =>
    exact ⟨fun h => Backlog.held_add (b := s.backlog) ▸ h,
      Backlog.standing_add_of_ne (hother hw rfl)⟩
  | delays hw =>
    refine ⟨id, (Backlog.standing_delayed (b := s.backlog)).trans ?_⟩
    rw [if_neg (hother hw rfl), List.append_nil]
  | releases hw => exact ⟨fun h => (Backlog.mem_held_release.1 h).2, Backlog.standing_release⟩

/-- What a step about another name leaves as it stands. -/
theorem Works.stays (hs : s.InOrder) (hw : s.Works backend i o s') (hh : s.Holds n hold)
    (hne : ∀ w, s.pipeline.workers[i]? = some w → w.name? ≠ some n)
    (ho : ∀ x ∈ o, ¬ x.Concerns n) {most : Nat} :
    ∃ hold', s'.Holds n hold' ∧
      (s.backlog.standing n hold).Goes n most o (s'.backlog.standing n hold') := by
  obtain ⟨⟨_, w', hi, -, hset⟩, -, -, -, -, hothers⟩ := hw.keeps
  obtain ⟨hheld, hb⟩ := hw.elsewhere hs hne ho
  refine Shift.stays hh hheld (fun j v hj hv => ?_) ho hb
  have hij : i ≠ j := by
    rintro rfl
    exact hne v hj hv
  rw [hset, List.getElem?_set_ne hij]
  exact ⟨hj, hothers j hij⟩

/-- A worker has done with a failure of its name and has left a backlog behind. -/
theorem holds_mended {e : DeliveryError} {b : Backlog}
    (hw : s.pipeline.workers[i]? = some (.talking item (.done (.error e)))) :
    (s.mended i item b).Holds item.name (some (item.change, .releasing)) := by
  refine ⟨i, .releasing item, Pipeline.getElem?_setWorker_self hw, rfl, ?_⟩
  have hstage : (s.mended i item b).stages i = .unjudged := if_pos rfl
  rw [hstage]
  rfl

/-- A worker has come to another stage of a failure. -/
theorem holds_setStage {e : DeliveryError} {stage : RetryStage} (hp : s'.pipeline.workers[i]? =
    some (.talking item (.done (.error e)))) :
    (s'.setStage i stage).Holds item.name
      (some (item.change, Hold.of (.talking item (.done (.error e))) stage)) := by
  refine ⟨i, _, hp, rfl, ?_⟩
  rw [stages_setStage, if_pos rfl]

/-- The worker that has a name goes on without anything that shows. -/
theorem Holds.set {w' : Worker} (hh : s.Holds n hold) (hw : s.pipeline.workers[i]? = some w)
    (hset : s'.pipeline.workers = s.pipeline.workers.set i w') (hitem : w'.item? = w.item?)
    (hhold : Hold.of w' (s.stages i) = Hold.of w (s.stages i)) (hstages : s'.stages = s.stages)
    (hheld : n ∈ s'.backlog.held → n ∈ s.backlog.held) : s'.Holds n hold := by
  cases hold with
  | none => exact fun hn => hh (hheld hn)
  | some hold =>
    obtain ⟨c, hold⟩ := hold
    obtain ⟨j, v, hj, hitem', rfl⟩ := hh
    rw [Holds, hset, hstages]
    by_cases hij : i = j
    · subst hij
      cases hw.symm.trans hj
      exact ⟨i, w', List.getElem?_set_self (List.getElem?_eq_some_iff.1 hw).1,
        hitem.trans hitem', hhold⟩
    · exact ⟨j, v, (List.getElem?_set_ne hij).trans hj, hitem', rfl⟩

/-- The name is handed out. -/
theorem goes_of_takes {backlog : Backlog} (hs : s.InOrder) (hh : s.Holds item.name hold)
    (hw : s.pipeline.workers[i]? = some .idle) (ht : s.backlog.take? = some (item, backlog))
    (most : Nat) :
    (s.setPipeline ({ s.pipeline with backlog }.setWorker i (.holding item))).Holds item.name
        (some (item.change, .working)) ∧
      (s.backlog.standing item.name hold).Goes item.name most (some (.handedOut item))
        (backlog.standing item.name (some (item.change, .working))) := by
  obtain ⟨-, -, hp, hfree, -⟩ := Backlog.take?_eq_some hs.orderly.sound ht
  have hnone : hold = none := by
    cases hold with
    | none => rfl
    | some hold =>
      obtain ⟨j, v, hj, hitem, -⟩ := hh
      have hname : v.name? = some item.name := by rw [Worker.name?, hitem]; rfl
      exact absurd (hs.orderly.held hj hname) hfree
  subst hnone
  have hstage : s.stages i = .unjudged := hs.unjudged hw nofun
  have hb : backlog.standing item.name (some (item.change, .working)) =
      { s.backlog.standing item.name none with
        waiting := none, hold := some (item.change, .working) } := by
    rw [Backlog.standing_take hs.orderly.sound ht, if_pos rfl]
    rfl
  refine ⟨⟨i, _, Pipeline.getElem?_setWorker_self hw, rfl, ?_⟩, hb ▸ .takes hp rfl⟩
  change Hold.of _ (s.stages i) = _
  rw [hstage]
  rfl

/-- The delivery of the name has succeeded. -/
theorem goes_of_succeeds (hs : s.InOrder) (hh : s.Holds item.name hold)
    (hw : s.pipeline.workers[i]? = some (.talking item (.done (.ok ())))) (most : Nat) :
    (s.setPipeline ((s.pipeline.conclude s.now item (.ok ())).setWorker i
        (.releasing item))).Holds item.name (some (item.change, .releasing)) ∧
      (s.backlog.standing item.name hold).Goes item.name most (some (.succeeded item))
        ((s.backlog.forget item.name).standing item.name (some (item.change, .releasing))) := by
  have hstage : s.stages i = .unjudged := hs.unjudged hw nofun
  obtain rfl := hs.hold_eq hh hw rfl rfl
  refine ⟨⟨i, _, Pipeline.getElem?_setWorker_self hw, rfl, ?_⟩, ?_⟩
  · change Hold.of _ (s.stages i) = _
    rw [hstage]
    rfl
  · rw [Backlog.standing_forget, if_pos rfl, hstage]
    exact .succeeds rfl

/-- What a worker does about a failure of the name. -/
theorem goes_of_failed {e : DeliveryError} (hs : s.InOrder) (hh : s.Holds item.name hold)
    (hw : s.pipeline.workers[i]? = some (.talking item (.done (.error e))))
    (hworks : s.Works backend i o s') :
    ∃ hold', s'.Holds item.name hold' ∧
      (s.backlog.standing item.name hold).Goes item.name s.pipeline.maxRetries o
        (s'.backlog.standing item.name hold') := by
  obtain rfl := hs.hold_eq hh hw rfl rfl
  cases hworks with
  | @judges item' e' verdict hw' hstage hv =>
    cases hw.symm.trans hw'
    refine ⟨_, holds_setStage hw, ?_⟩
    have hverdict : Hold.of (.talking item (.done (.error e)))
        (if verdict = .requeue then .counting else .forgetting) =
          if verdict = .requeue then .counting else .forgetting := by
      split <;> rfl
    rw [hstage, hverdict]
    exact .judges rfl hv
  | @counts item' e' delay backoff hw' hstage hc hnext =>
    cases hw.symm.trans hw'
    refine ⟨_, holds_setStage hw, ?_⟩
    change Standing.Goes _ _ _ _ (({ s.backlog with backoff } : Backlog).standing _ _)
    rw [hstage, Backlog.standing_backoff hnext, if_pos rfl]
    exact .counts _ rfl hc
  | desists hw' hstage hc =>
    cases hw.symm.trans hw'
    refine ⟨_, holds_mended hw, ?_⟩
    rw [hstage]
    exact .desists rfl hc
  | @readds item' e' delay hw' hstage hd =>
    cases hw.symm.trans hw'
    refine ⟨_, holds_mended hw, ?_⟩
    have hhold : (s.backlog.standing item.name (some (item.change, .returning delay))).hold =
        some (item.change, .returning delay) := rfl
    change Standing.Goes _ _ _ _ ((s.backlog.add item).standing _ _)
    rw [hstage, Backlog.standing_add rfl]
    exact .readds hhold
  | delays hw' hstage hd =>
    cases hw.symm.trans hw'
    refine ⟨_, holds_mended hw, ?_⟩
    change Standing.Goes _ _ _ _ (Backlog.standing { s.backlog with delayed := _ } _ _)
    rw [hstage, Backlog.standing_delayed, if_pos rfl]
    exact .delays rfl
  | forgets hw' hstage =>
    cases hw.symm.trans hw'
    refine ⟨_, holds_mended hw, ?_⟩
    change Standing.Goes _ _ _ _ ((s.backlog.forget item.name).standing _ _)
    rw [hstage, Backlog.standing_forget, if_pos rfl]
    exact .forgets rfl
  | talks hw' hr =>
    cases hw.symm.trans hw'
    exact absurd rfl (hr _)
  | takes hw' | leaves hw' | looks hw' | succeeds hw' | releases hw' => cases hw.symm.trans hw'

/-- The worker that has the name releases it. -/
theorem goes_of_releases (hs : s.InOrder) (hh : s.Holds item.name hold)
    (hw : s.pipeline.workers[i]? = some (.releasing item)) (most : Nat) :
    item.name ∉ (s.backlog.release item.name).held ∧
      (s.backlog.standing item.name hold).Goes item.name most (some (.released item))
        ((s.backlog.release item.name).standing item.name none) := by
  have hstage : s.stages i = .unjudged := hs.unjudged hw nofun
  obtain rfl := hs.hold_eq hh hw rfl rfl
  refine ⟨fun hheld => (Backlog.mem_held_release.1 hheld).1 rfl, ?_⟩
  rw [hstage, Backlog.standing_release]
  exact .releases rfl

theorem goes_of_works (hs : s.InOrder) (hh : s.Holds n hold) (hw : s.Works backend i o s') :
    ∃ hold', s'.Holds n hold' ∧ (s.backlog.standing n hold).Goes n s.pipeline.maxRetries o
      (s'.backlog.standing n hold') := by
  have hother : ∀ {w : Worker} {item : WorkItem}, s.pipeline.workers[i]? = some w →
      w.item? = some item → item.name ≠ n →
      ∀ v, s.pipeline.workers[i]? = some v → v.name? ≠ some n := fun hi hitem hn v hv hname => by
    cases hi.symm.trans hv
    rw [Worker.name?, hitem] at hname
    exact hn (Option.some.inj hname)
  have hidle : s.pipeline.workers[i]? = some .idle →
      ∀ v, s.pipeline.workers[i]? = some v → v.name? ≠ some n := fun hi v hv hname => by
    cases hi.symm.trans hv
    cases hname
  have hworks := hw
  cases hw with
  | @takes item backlog hw ht =>
    by_cases hn : item.name = n
    · subst hn
      exact ⟨_, goes_of_takes hs hh hw ht _⟩
    · exact hworks.stays hs hh (hidle hw) (not_concerns id hn)
  | leaves hw => exact hworks.stays hs hh (hidle hw) Incident.none_concerns
  | looks hw =>
    have hstage : s.stages i = .unjudged := hs.unjudged hw nofun
    exact ⟨hold, hh.set hw rfl rfl (by rw [hstage]; rfl) rfl id, .idle⟩
  | talks hw hr =>
    have hstage : s.stages i = .unjudged := hs.unjudged hw fun item e heq => by
      cases heq
      exact hr _ rfl
    exact ⟨hold, hh.set hw rfl rfl (by rw [hstage]; rfl) rfl id, .idle⟩
  | @succeeds item hw =>
    by_cases hn : item.name = n
    · subst hn
      exact ⟨_, goes_of_succeeds hs hh hw _⟩
    · exact hworks.stays hs hh (hother hw rfl hn) (not_concerns id hn)
  | @judges item e verdict hw | @counts item e delay backoff hw | @readds item e delay hw
  | @forgets item e hw =>
    by_cases hn : item.name = n
    · subst hn
      exact goes_of_failed hs hh hw hworks
    · exact hworks.stays hs hh (hother hw rfl hn) (not_concerns id hn)
  | @desists item e hw | @delays item e delay hw =>
    by_cases hn : item.name = n
    · subst hn
      exact goes_of_failed hs hh hw hworks
    · exact hworks.stays hs hh (hother hw rfl hn) Incident.none_concerns
  | @releases item hw =>
    by_cases hn : item.name = n
    · subst hn
      exact ⟨none, goes_of_releases hs hh hw _⟩
    · exact hworks.stays hs hh (hother hw rfl hn) (not_concerns id hn)

/-- Somebody who is no worker changes the backlog, and workers go on as they were. -/
theorem goes_of_backlog (hh : s.Holds n hold)
    (hframe : s'.pipeline.workers = s.pipeline.workers ∧ s'.stages = s.stages)
    (hheld : s'.backlog.held = s.backlog.held) {most : Nat}
    (hg : (s.backlog.standing n hold).Goes n most o (s'.backlog.standing n hold)) :
    ∃ hold', s'.Holds n hold' ∧
      (s.backlog.standing n hold).Goes n most o (s'.backlog.standing n hold') := by
  refine ⟨hold, hh.congr (fun h => hheld ▸ h) fun j w hj _ => ?_, hg⟩
  rw [hframe.1, hframe.2]
  exact ⟨hj, rfl⟩

theorem goes_add (b : Backlog) (item : WorkItem) (hold : Option (Change × Hold)) (most : Nat) :
    (b.standing n hold).Goes n most (some (.added item false)) ((b.add item).standing n hold) := by
  by_cases hn : item.name = n
  · rw [Backlog.standing_add hn]
    subst hn
    exact .adds item.change
  · rw [Backlog.standing_add_of_ne hn]
    refine .stays ?_
    rintro _ ⟨⟩ hc
    exact hn hc

theorem goes_fire {b : Backlog} {d : Delayed} (hd : b.delayed[i]? = some d)
    (hold : Option (Change × Hold)) (most : Nat) :
    (b.standing n hold).Goes n most (some (.added d.item true)) ((b.fire i).standing n hold) := by
  by_cases hn : d.item.name = n
  · obtain ⟨before, after, hsplit, hfire⟩ := Backlog.standing_fire hd hn hold
    rw [hfire]
    subst hn
    exact .fires hsplit
  · rw [Backlog.standing_fire_of_ne hd hn]
    refine .stays ?_
    rintro _ ⟨⟩ hc
    exact hn hc

theorem goes_close {b : Backlog} (hopen : b.closed = false) (hold : Option (Change × Hold))
    (most : Nat) :
    (b.standing n hold).Goes n most
      (if b.close.closed = true ∧ ¬ b.closed = true then some .closed else none)
      (b.close.standing n hold) := by
  have htold : b.close.closed = true ∧ ¬ b.closed = true := ⟨rfl, by simp [hopen]⟩
  rw [if_pos htold]
  exact .closes

theorem goes_of_moves (hs : s.InOrder) (hc : s.OnCourse) (hh : s.Holds n hold)
    (hm : s.Moves backend m o s') :
    ∃ hold', s'.Holds n hold' ∧ (s.backlog.standing n hold).Goes n s.pipeline.maxRetries o
      (s'.backlog.standing n hold') := by
  cases hm with
  | starts | told | takesIn | abandons | waits =>
    exact goes_of_backlog hh ⟨rfl, rfl⟩ rfl .idle
  | hands | adds =>
    refine goes_of_backlog hh ?_ ?_ (goes_add _ _ _ _)
    · exact ⟨rfl, rfl⟩
    · exact Backlog.held_add
  | fires hd =>
    refine goes_of_backlog hh ?_ ?_ (goes_fire hd _ _)
    · exact ⟨rfl, rfl⟩
    · exact Backlog.held_fire
  | works hw => exact goes_of_works hs hh hw
  | responds hr =>
    cases hr with
    | starts hstate =>
      unfold OnCourse at hc
      rw [hstate] at hc
      obtain ⟨hnone, hopen, -⟩ := hc
      have htold : ¬ (s.backlog.closed = true ∧ ¬ s.backlog.closed = true) := fun h => h.2 h.1
      refine ⟨hold, hh.congr id fun j w hj _ => ?_, ?_⟩
      · rw [hnone] at hj
        simp at hj
      · change Standing.Goes _ _ _ (if s.backlog.closed = true ∧ ¬ s.backlog.closed = true
          then _ else _) _
        rw [if_neg htold]
        exact .idle
    | fails e hstate =>
      unfold OnCourse at hc
      rw [hstate] at hc
      refine goes_of_backlog hh ?_ ?_ (goes_close hc.2.1 hold _)
      · exact ⟨rfl, rfl⟩
      · rfl
    | drains hstate =>
      unfold OnCourse at hc
      rw [hstate] at hc
      refine goes_of_backlog hh ?_ ?_ (goes_close hc.2.1 hold _)
      · exact ⟨rfl, rfl⟩
      · rfl
    | reports | stops =>
      have htold : ¬ (s.backlog.closed = true ∧ ¬ s.backlog.closed = true) := fun h => h.2 h.1
      refine goes_of_backlog hh ⟨rfl, rfl⟩ rfl ?_
      change Standing.Goes _ _ _ (if s.backlog.closed = true ∧ ¬ s.backlog.closed = true
        then _ else _) _
      rw [if_neg htold]
      exact .idle

theorem Moves.maxRetries_eq (hm : s.Moves backend m o s') :
    s'.pipeline.maxRetries = s.pipeline.maxRetries := by
  cases hm with
  | works hw => exact hw.keeps.maxRetries
  | responds hr => cases hr <;> rfl
  | starts | told | takesIn | abandons | waits | hands | adds | fires => rfl

/-- How a name that a worker may have stands. -/
def Shows (s : Shift σ) (n : ObjectName) (st : Standing) : Prop :=
  s.Holds n st.hold ∧ st = s.backlog.standing n st.hold

theorem standing_initial (base max : Duration) :
    (Backlog.initial (.initial base max)).standing n none = .fresh := by
  simp [Backlog.standing, Backlog.initial, Backlog.putOffs, Backoff.count, Backoff.initial,
    Standing.fresh]

section Reached

variable {kind : Kind} {base max : Duration} {settings : ControllerSettings} {store : σ}
  {past : Record}

theorem Reaches.maxRetries_eq (h : Reaches backend (initial kind base max settings store) past s) :
    s.pipeline.maxRetries = settings.maxRetries := by
  induction h with
  | start => rfl
  | move _ hm ih => exact (moves_of_move? hm).maxRetries_eq.trans ih

theorem Reaches.lives (h : Reaches backend (initial kind base max settings store) past s)
    (n : ObjectName) : ∃ st, s.Shows n st ∧ Standing.Lives n settings.maxRetries past st := by
  induction h with
  | start =>
    have hfresh := standing_initial (n := n) base max
    exact ⟨.fresh, ⟨Std.ExtTreeSet.not_mem_empty, hfresh.symm⟩, .start⟩
  | @move past s s' m o hreach hm ih =>
    obtain ⟨st, ⟨hholds, hst⟩, hlives⟩ := ih
    obtain ⟨hold', hholds', hgoes⟩ :=
      goes_of_moves hreach.inOrder hreach.onCourse hholds (moves_of_move? hm)
    rw [← hst, hreach.maxRetries_eq] at hgoes
    exact ⟨_, ⟨hholds', rfl⟩, hlives.goes hgoes⟩

end Reached

end Shift
end ClusterSync

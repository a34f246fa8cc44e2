import ClusterSync.Proofs.Controller.Standing
import ClusterSync.Rehearsal.Store

/-!
# Controllers that stop

A controller that is told to stop closes its backlog and waits for its workers, and a worker leaves
when it finds a closed backlog with nothing to hand out. Then another worker may still have a name
for which a change waits. The change becomes ready when the name is released, and whoever releases
it looks into the backlog once more. Calls to the datastore come back here, with or without success.

An addition is accepted unless the backlog has been closed before. `Record.since?` looks for the
change that was accepted last for a name and `Errand.since` says what has become of it.

**Theorem (`Lives.explained`).** The change that was accepted last waits, or it has been handed out
once, and the worker that got it has it until its delivery has ended and the name is released.

**Theorem (`Reaches.leaving`).** Workers leave a closed backlog, and the last one leaves it with
nothing to hand out.

**Theorem (`Reaches.drained`).** When a controller has stopped, nothing waits and nothing is held,
and of what was accepted nothing is lost. What comes after the closing is never handed out.
-/

namespace ClusterSync

variable {σ : Type} {n : ObjectName} {c : Change} {item : WorkItem} {past later : Record}

/-! ## What is accepted -/

/-- Whether an incident is the end of a delivery. -/
def Incident.Ends (item : WorkItem) : Incident → Prop
  | .succeeded item' | .failed item' .. => item' = item
  | .added .. | .closed | .handedOut _ | .putOff _ | .forgot _ | .released _ => False

namespace Record

def isClosed (past : Record) : Bool := past.any (· matches .closed)

theorem isClosed_iff : isClosed past = true ↔ .closed ∈ past := by
  simp only [isClosed, List.any_eq_true]
  constructor
  · rintro ⟨i, hi, hclosed⟩
    cases i <;> first | exact hi | simp at hclosed
  · exact fun h => ⟨_, h, rfl⟩

/-- The change that was accepted last for a name, and what has happened since. -/
def since? (n : ObjectName) : Record → Option (Change × Record)
  | [] => none
  | .added item again :: past =>
    if item.name = n ∧ ¬ isClosed past then some (item.change, [])
    else (since? n past).map fun (c, later) => (c, .added item again :: later)
  | i :: past => (since? n past).map fun (c, later) => (c, i :: later)

/-- Nothing for a name was accepted in a part of a record that others follow. -/
def Refuses (n : ObjectName) (later : Record) : Prop :=
  ∀ newer older item again, later = newer ++ .added item again :: older → item.name = n →
    .closed ∈ older

theorem since?_cons {i : Incident} (h : ∀ item again, i = .added item again →
    item.name = n → isClosed past = true) :
    since? n (i :: past) = (since? n past).map fun (c, later) => (c, i :: later) := by
  cases i with
  | added item again => exact if_neg fun hi => hi.2 (h item again rfl hi.1)
  | closed | handedOut | succeeded | failed | putOff | forgot | released => rfl

theorem since?_added (hn : item.name = n) (hopen : isClosed past = false) {again : Bool} :
    since? n (.added item again :: past) = some (item.change, []) :=
  if_pos ⟨hn, by simp [hopen]⟩

theorem refuses_nil : Refuses n [] := by
  intro newer older item again heq
  simp at heq

theorem refuses_cons_iff {i : Incident} :
    Refuses n (i :: later) ↔
      (∀ item again, i = .added item again → item.name = n → .closed ∈ later) ∧
        Refuses n later := by
  constructor
  · intro h
    refine ⟨fun item again hi hn => h [] later item again (by rw [hi]; rfl) hn, ?_⟩
    intro newer older item again heq hn
    exact h (i :: newer) older item again (by rw [heq]; rfl) hn
  · rintro ⟨hi, h⟩ newer older item again heq hn
    cases newer with
    | nil =>
      obtain ⟨rfl, rfl⟩ := List.cons.inj heq
      exact hi item again rfl hn
    | cons j newer =>
      obtain ⟨rfl, rfl⟩ := List.cons.inj heq
      exact h newer older item again rfl hn

/-- An item is what was accepted last for its name, and this has happened since. -/
def AcceptsLast (past : Record) (item : WorkItem) (later : Record) : Prop :=
  ∃ again older, past = later ++ .added item again :: older ∧ .closed ∉ older ∧
    Refuses item.name later

theorem since?_eq_some_iff :
    since? n past = some (c, later) ↔ AcceptsLast past ⟨n, c⟩ later := by
  induction past generalizing later with
  | nil => simp [since?, AcceptsLast]
  | cons i past ih =>
    by_cases hi : ∃ item again, i = .added item again ∧ item.name = n ∧ isClosed past = false
    · obtain ⟨item, again, rfl, rfl, hopen⟩ := hi
      have hnot : .closed ∉ past := fun hmem => by simp [isClosed_iff.2 hmem] at hopen
      rw [since?_added rfl hopen, Option.some.injEq, Prod.mk.injEq]
      constructor
      · rintro ⟨rfl, rfl⟩
        exact ⟨again, past, rfl, hnot, refuses_nil⟩
      · rintro ⟨again', older, heq, -, hrefuses⟩
        cases later with
        | nil =>
          simp only [List.nil_append, List.cons.injEq, Incident.added.injEq] at heq
          exact ⟨congrArg WorkItem.change heq.1.1, rfl⟩
        | cons j later =>
          obtain ⟨rfl, rfl⟩ := List.cons.inj heq
          have hmem := (refuses_cons_iff.1 hrefuses).1 item again rfl rfl
          exact absurd (List.mem_append_left _ hmem) hnot
    · have hclosed : ∀ item again, i = .added item again → item.name = n → isClosed past = true :=
        fun item again hadd hn => by
          simpa using fun hopen => hi ⟨item, again, hadd, hn, hopen⟩
      rw [since?_cons hclosed, Option.map_eq_some_iff]
      constructor
      · rintro ⟨⟨c', later'⟩, hsince, heq⟩
        cases heq
        obtain ⟨again, older, rfl, hopen, hrefuses⟩ := ih.1 hsince
        refine ⟨again, older, rfl, hopen, refuses_cons_iff.2 ⟨?_, hrefuses⟩⟩
        intro item again' hadd hn
        have hmem := isClosed_iff.1 (hclosed item again' hadd hn)
        simpa [hopen] using hmem
      · rintro ⟨again, older, heq, hopen, hrefuses⟩
        cases later with
        | nil =>
          obtain ⟨rfl, rfl⟩ := List.cons.inj heq
          exact absurd (isClosed_iff.1 (hclosed _ again rfl rfl)) hopen
        | cons j later =>
          obtain ⟨rfl, rfl⟩ := List.cons.inj heq
          exact ⟨(c, later), ih.2 ⟨again, older, rfl, hopen, (refuses_cons_iff.1 hrefuses).2⟩, rfl⟩

/-- What was accepted for a name at all was accepted last, or something else was. -/
theorem exists_acceptsLast {newer older : Record} {again : Bool}
    (hp : past = newer ++ .added item again :: older) (hopen : .closed ∉ older) :
    ∃ c later, AcceptsLast past ⟨item.name, c⟩ later := by
  simp only [← since?_eq_some_iff]
  induction newer generalizing past with
  | nil =>
    have hnot : isClosed older = false := Bool.eq_false_iff.2 (mt isClosed_iff.1 hopen)
    exact ⟨item.change, [], hp ▸ since?_added rfl hnot⟩
  | cons i newer ih =>
    obtain ⟨c, later, hsince⟩ := ih rfl
    subst hp
    by_cases hi : ∃ item' again', i = .added item' again' ∧ item'.name = item.name ∧
        isClosed (newer ++ .added item again :: older) = false
    · obtain ⟨item', again', rfl, hn, hnot⟩ := hi
      exact ⟨item'.change, [], since?_added hn hnot⟩
    · refine ⟨c, i :: later, (since?_cons fun item' again' heq hn => ?_).trans ?_⟩
      · simpa using fun hnot => hi ⟨item', again', heq, hn, hnot⟩
      · exact Option.map_eq_some_iff.2 ⟨_, hsince, rfl⟩

/-- A name was not handed out in a part of a record. -/
def Withholds (n : ObjectName) (part : Record) : Prop :=
  ∀ item, .handedOut item ∈ part → item.name ≠ n

theorem Withholds.cons {i : Incident} {part : Record} (h : Withholds n part)
    (hi : ∀ item, i = .handedOut item → item.name ≠ n) : Withholds n (i :: part) := by
  intro item hmem
  rcases List.mem_cons.1 hmem with heq | hmem
  · exact hi item heq.symm
  · exact h item hmem

/-- An item was handed out once, its delivery ended, and its name was released after that. -/
def Delivers (part : Record) (item : WorkItem) : Prop :=
  ∃ after during waited, part = after ++ .released item :: (during ++ .handedOut item :: waited) ∧
    Withholds item.name (after ++ (during ++ waited)) ∧ ∃ i ∈ during, i.Ends item

end Record

/-! ## What becomes of it -/

/-- What has become of an item since it was accepted. -/
inductive Errand
  | waiting
  | underWay
  /-- Its delivery has ended. -/
  | ended
  /-- Its name has been released after that. -/
  | done
  /-- The name has been handed out otherwise. -/
  | astray
  deriving DecidableEq

namespace Errand

/-- What an incident makes of an errand. -/
def next (item : WorkItem) (e : Errand) : Incident → Errand
  | .handedOut item' =>
    if item'.name ≠ item.name then e
    else if e = .waiting ∧ item' = item then .underWay
    else .astray
  | .succeeded item' | .failed item' .. => if e = .underWay ∧ item' = item then .ended else e
  | .released item' => if e = .ended ∧ item' = item then .done else e
  | .added .. | .closed | .putOff _ | .forgot _ => e

/-- What has become of an item, given what has happened since it was accepted. -/
def since (item : WorkItem) : Record → Errand
  | [] => .waiting
  | i :: later => (since item later).next item i

/-- Where an errand stands, as the record tells it. -/
def Told (item : WorkItem) (later : Record) : Errand → Prop
  | .waiting => Record.Withholds item.name later
  | .underWay => ∃ during waited, later = during ++ .handedOut item :: waited ∧
      Record.Withholds item.name (during ++ waited)
  | .ended => ∃ during waited, later = during ++ .handedOut item :: waited ∧
      Record.Withholds item.name (during ++ waited) ∧ ∃ i ∈ during, i.Ends item
  | .done => Record.Delivers later item
  | .astray => True

/-- What does not concern an errand is told with the rest. -/
theorem Told.cons {e : Errand} {i : Incident} (h : Told item later e)
    (hi : ∀ item', i = .handedOut item' → item'.name ≠ item.name) :
    Told item (i :: later) e := by
  cases e with
  | waiting => exact Record.Withholds.cons h hi
  | underWay =>
    obtain ⟨during, waited, rfl, hwithholds⟩ := h
    exact ⟨i :: during, waited, rfl, hwithholds.cons hi⟩
  | ended =>
    obtain ⟨during, waited, rfl, hwithholds, j, hj, hends⟩ := h
    exact ⟨i :: during, waited, rfl, hwithholds.cons hi, j, List.mem_cons_of_mem _ hj, hends⟩
  | done =>
    obtain ⟨after, during, waited, rfl, hwithholds, hends⟩ := h
    exact ⟨i :: after, during, waited, rfl, hwithholds.cons hi, hends⟩
  | astray => trivial

theorem Told.ends {i : Incident} (h : Told item later .underWay) (hi : i.Ends item) :
    Told item (i :: later) .ended := by
  obtain ⟨during, waited, rfl, hwithholds⟩ := h
  refine ⟨i :: during, waited, rfl, hwithholds.cons fun item' heq => ?_, i, List.mem_cons_self, hi⟩
  cases heq
  exact hi.elim

theorem told (item : WorkItem) (later : Record) : Told item later (since item later) := by
  induction later with
  | nil => exact fun _ h => absurd h List.not_mem_nil
  | cons i later ih =>
    rw [since]
    generalize since item later = e at ih
    cases i with
    | handedOut item' =>
      rw [next]
      split
      · rename_i hn
        exact ih.cons fun _ heq => Incident.handedOut.inj heq ▸ hn
      · split
        · rename_i hfirst
          obtain ⟨rfl, rfl⟩ := hfirst
          exact ⟨[], later, rfl, ih⟩
        · trivial
    | succeeded item' | failed item' =>
      rw [next]
      split
      · rename_i hends
        obtain ⟨rfl, hitem⟩ := hends
        exact ih.ends hitem
      · exact ih.cons nofun
    | released item' =>
      rw [next]
      split
      · rename_i hdone
        obtain ⟨rfl, rfl⟩ := hdone
        obtain ⟨during, waited, rfl, hwithholds, hends⟩ := ih
        exact ⟨[], during, waited, rfl, hwithholds, hends⟩
      · exact ih.cons nofun
    | added | closed | putOff | forgot => exact ih.cons nofun

/-- What an errand says about how its name stands. -/
def Fits (c : Change) (st : Standing) : Errand → Prop
  | .waiting => st.waiting = some c
  | .underWay => st.waiting = none ∧ st.hold = some (c, .working)
  | .ended => st.waiting = none ∧ ∃ hold, hold ≠ .working ∧ st.hold = some (c, hold)
  | .done => st.waiting = none ∧ st.hold = none
  | .astray => False

variable {e : Errand} {st st' : Standing}

theorem next_of_not_concerns {i : Incident} (hi : ¬ i.Concerns n) : e.next ⟨n, c⟩ i = e := by
  cases i with
  | handedOut item =>
    have hn : item.name ≠ n := hi
    exact if_pos hn
  | succeeded item | failed item | released item =>
    have hn : item.name ≠ n := hi
    exact if_neg fun heq => hn (congrArg WorkItem.name heq.2)
  | added | closed | putOff | forgot => rfl

/-- Other things do not count. -/
theorem Fits.congr (h : e.Fits c st) (hw : st'.waiting = st.waiting) (hh : st'.hold = st.hold) :
    e.Fits c st' := by
  cases e with
  | waiting => exact hw.trans h
  | underWay => exact ⟨hw.trans h.1, hh.trans h.2⟩
  | ended =>
    obtain ⟨hnone, hold, hne, hhold⟩ := h
    exact ⟨hw.trans hnone, hold, hne, hh.trans hhold⟩
  | done => exact ⟨hw.trans h.1, hh.trans h.2⟩
  | astray => exact h

/-- A worker whose delivery has ended goes on. -/
theorem Fits.goOn {c' : Change} {hold hold' : Hold} (h : e.Fits c st)
    (hw : st'.waiting = st.waiting) (hh : st.hold = some (c', hold)) (hhold : hold ≠ .working)
    (hh' : st'.hold = some (c', hold')) (hhold' : hold' ≠ .working) : e.Fits c st' := by
  cases e with
  | waiting => exact hw.trans h
  | underWay =>
    cases hh.symm.trans h.2
    exact absurd rfl hhold
  | ended =>
    obtain ⟨hnone, _, -, hold⟩ := h
    cases hh.symm.trans hold
    exact ⟨hw.trans hnone, hold', hhold', hh'⟩
  | done => cases hh.symm.trans h.2
  | astray => exact h

/-- The name is handed out. -/
theorem Fits.taken {c' : Change} (h : e.Fits c st) (hw : st.waiting = some c')
    (hw' : st'.waiting = none) (hh' : st'.hold = some (c', .working)) :
    (e.next ⟨n, c⟩ (.handedOut ⟨n, c'⟩)).Fits c st' := by
  cases e with
  | waiting =>
    cases hw.symm.trans h
    rw [next, if_neg fun hne => hne rfl, if_pos ⟨rfl, rfl⟩]
    exact ⟨hw', hh'⟩
  | underWay | ended | done => cases hw.symm.trans h.1
  | astray => exact h.elim

/-- A delivery ends. -/
theorem Fits.end {c' : Change} {hold : Hold} {i : Incident} (h : e.Fits c st)
    (hw : st'.waiting = st.waiting) (hh : st.hold = some (c', .working))
    (hh' : st'.hold = some (c', hold)) (hhold : hold ≠ .working)
    (hi : e.next ⟨n, c⟩ i = if e = .underWay ∧ c' = c then .ended else e) :
    (e.next ⟨n, c⟩ i).Fits c st' := by
  rw [hi]
  cases e with
  | waiting => exact hw.trans h
  | underWay =>
    cases hh.symm.trans h.2
    rw [if_pos ⟨rfl, rfl⟩]
    exact ⟨hw.trans h.1, hold, hhold, hh'⟩
  | ended =>
    obtain ⟨-, _, hne, hhold⟩ := h
    cases hh.symm.trans hhold
    exact absurd rfl hne
  | done => cases hh.symm.trans h.2
  | astray => exact h.elim

/-- The name is released. -/
theorem Fits.released {c' : Change} (h : e.Fits c st) (hw : st'.waiting = st.waiting)
    (hh : st.hold = some (c', .releasing)) (hh' : st'.hold = none) :
    (e.next ⟨n, c⟩ (.released ⟨n, c'⟩)).Fits c st' := by
  rw [next]
  cases e with
  | waiting => exact hw.trans h
  | underWay => cases hh.symm.trans h.2
  | ended =>
    obtain ⟨hnone, hold, -, hhold⟩ := h
    cases hh.symm.trans hhold
    rw [if_pos ⟨rfl, rfl⟩]
    exact ⟨hw.trans hnone, hh'⟩
  | done => cases hh.symm.trans h.2
  | astray => exact h.elim

end Errand

namespace Standing

variable {most : Nat} {st st' : Standing} {o : Option Incident}

theorem isClosed_of_goes (h : st.closed = Record.isClosed past) (hg : st.Goes n most o st') :
    st'.closed = Record.isClosed (o.toList ++ past) := by
  have hadd : ∀ (st : Standing) c, (st.add c).closed = st.closed := by
    intro st c
    unfold Standing.add
    split <;> rfl
  cases hg with
  | stays ho =>
    cases o with
    | none => exact h
    | some i =>
      cases i with
      | closed => exact absurd trivial (ho _ rfl)
      | added | handedOut | succeeded | failed | putOff | forgot | released => exact h
  | closes => rfl
  | adds | fires | readds => exact (hadd _ _).trans h
  | takes | succeeds | judges | counts | desists | delays | forgets | releases => exact h

theorem Lives.closed_eq (h : Lives n most past st) : st.closed = Record.isClosed past := by
  induction h with
  | start => rfl
  | goes _ hg ih => exact isClosed_of_goes ih hg

/-- How a name stands is told by what was accepted last for it and what has become of that. -/
def Explained (n : ObjectName) (past : Record) (st : Standing) : Prop :=
  match Record.since? n past with
  | none => st.waiting = none ∧ st.hold = none
  | some (c, later) => (Errand.since ⟨n, c⟩ later).Fits c st

/-- What happens apart from additions that are accepted. -/
theorem Explained.cons {i : Incident} (h : Explained n past st)
    (hi : ∀ item again, i = .added item again → item.name = n → Record.isClosed past = true)
    (hnone : st.waiting = none ∧ st.hold = none → st'.waiting = none ∧ st'.hold = none)
    (hsome : ∀ c (e : Errand), e.Fits c st → (e.next ⟨n, c⟩ i).Fits c st') :
    Explained n (i :: past) st' := by
  unfold Explained at h ⊢
  rw [Record.since?_cons hi]
  cases hs : Record.since? n past with
  | none =>
    rw [hs] at h
    exact hnone h
  | some since =>
    rw [hs] at h
    exact hsome _ _ h

/-- An addition is accepted or not. -/
theorem Explained.added {again : Bool} (h : Explained n past st)
    (hc : st'.closed = Record.isClosed past) (hnone : st.waiting = none ∧ st.hold = none →
      st'.waiting = none ∧ st'.hold = none)
    (hsome : ∀ c' (e : Errand), e.Fits c' st → e.Fits c' st') :
    Explained n (.added ⟨n, c⟩ again :: past) (st'.add c) := by
  unfold Standing.add
  split
  · rename_i hclosed
    exact h.cons (fun _ _ _ _ => hc ▸ hclosed) hnone hsome
  · rename_i hopen
    have hadded : Record.since? n (.added ⟨n, c⟩ again :: past) = some (c, []) :=
      Record.since?_added rfl (by simpa [hc] using hopen)
    unfold Explained
    rw [hadded]
    exact rfl

/-- Nothing is told of what happens. -/
theorem Explained.quiet (h : Explained n past st)
    (hnone : st.waiting = none ∧ st.hold = none → st'.waiting = none ∧ st'.hold = none)
    (hsome : ∀ c (e : Errand), e.Fits c st → e.Fits c st') : Explained n past st' := by
  unfold Explained at h ⊢
  cases hs : Record.since? n past with
  | none =>
    rw [hs] at h
    exact hnone h
  | some since =>
    rw [hs] at h
    exact hsome _ _ h

theorem Explained.goes (h : Explained n past st) (hc : st.closed = Record.isClosed past)
    (hg : st.Goes n most o st') : Explained n (o.toList ++ past) st' := by
  have hkeep : ∀ {st' : Standing}, st'.waiting = st.waiting → st'.hold = st.hold →
      (st.waiting = none ∧ st.hold = none → st'.waiting = none ∧ st'.hold = none) :=
    fun hw hh hnone => ⟨hw.trans hnone.1, hh.trans hnone.2⟩
  have hbusy : ∀ {held : Change × Hold} {st' : Standing}, st.hold = some held →
      st.waiting = none ∧ st.hold = none → st'.waiting = none ∧ st'.hold = none :=
    fun hh hnone => by cases hh.symm.trans hnone.2
  cases hg with
  | stays ho =>
    cases o with
    | none => exact h
    | some i =>
      have hi : ¬ i.Concerns n := ho i rfl
      refine h.cons (fun item again heq hn => ?_) id fun c e he => ?_
      · subst heq
        exact absurd hn hi
      · exact (Errand.next_of_not_concerns hi).symm ▸ he
  | closes => exact h.cons nofun (hkeep rfl rfl) fun c e he => he.congr rfl rfl
  | adds => exact h.added hc id fun _ _ he => he
  | fires => exact h.added hc (hkeep rfl rfl) fun _ _ he => he.congr rfl rfl
  | readds hh => exact h.added hc (hbusy hh) fun _ _ he => he.goOn rfl hh nofun rfl nofun
  | takes hw =>
    exact h.cons nofun (fun hnone => by cases hw.symm.trans hnone.1) fun _ _ he =>
      he.taken hw rfl rfl
  | succeeds hh =>
    refine h.cons nofun (hbusy hh) fun c' e he => he.end rfl hh rfl nofun ?_
    simp [Errand.next]
  | judges hh =>
    refine h.cons nofun (hbusy hh) fun c' e he => he.end rfl hh rfl ?_ ?_
    · split <;> nofun
    · simp [Errand.next]
  | counts delay hh => exact h.cons nofun (hbusy hh) fun _ _ he => he.goOn rfl hh nofun rfl nofun
  | forgets hh => exact h.cons nofun (hbusy hh) fun _ _ he => he.goOn rfl hh nofun rfl nofun
  | desists hh | delays hh =>
    exact h.quiet (hbusy hh) fun _ _ he => he.goOn rfl hh nofun rfl nofun
  | releases hh => exact h.cons nofun (hbusy hh) fun _ _ he => he.released rfl hh rfl

theorem Lives.explained (h : Lives n most past st) : Explained n past st := by
  induction h with
  | start => exact ⟨rfl, rfl⟩
  | goes hlives hg ih => exact ih.goes hlives.closed_eq hg

/-- What is handed out is what was accepted last, and it has not been handed out before. -/
theorem Lives.handedOut (h : Lives n most past st) {newer older : Record}
    (hp : past = newer ++ .handedOut item :: older) (hn : item.name = n) :
    ∃ waited, Record.since? n older = some (item.change, waited) ∧
      Record.Withholds n waited := by
  induction h generalizing newer with
  | start => simp at hp
  | @goes past o st st' hlives hg ih =>
    cases o with
    | none => exact ih hp
    | some i =>
      cases newer with
      | cons j newer => exact ih (List.cons.inj hp).2
      | nil =>
        obtain ⟨rfl, rfl⟩ := List.cons.inj hp
        cases hg with
        | stays ho => exact absurd hn (ho _ rfl)
        | @takes c hw hh =>
          have hexplained := hlives.explained
          unfold Explained at hexplained
          cases hs : Record.since? n past with
          | none =>
            rw [hs] at hexplained
            cases hw.symm.trans hexplained.1
          | some since =>
            rw [hs] at hexplained
            have hfits : (Errand.since ⟨n, since.1⟩ since.2).Fits since.1 st := hexplained
            have htold := Errand.told ⟨n, since.1⟩ since.2
            generalize Errand.since ⟨n, since.1⟩ since.2 = e at hfits htold
            cases e with
            | waiting =>
              cases hw.symm.trans hfits
              exact ⟨since.2, hs, htold⟩
            | underWay | ended | done => cases hw.symm.trans hfits.1
            | astray => exact hfits.elim

end Standing

namespace Shift

variable {s s' : Shift σ} {backend : Backend σ} {i : Nat} {o : Option Incident} {m : Move}

/-! ## Workers that leave -/

/-- Workers leave a closed backlog, and the last one leaves it with nothing to hand out. -/
structure Leaving (s : Shift σ) : Prop where
  gone : ∀ w ∈ s.pipeline.workers, w.isGone = true → w = .finished ∧ s.backlog.closed = true
  empty : s.pipeline.workers ≠ [] → s.pipeline.workers.all Worker.isGone = true →
    s.backlog.ready = []

/-- A worker that is gone after its step has found nothing. -/
theorem Works.gone (h : s.Works backend i o s') : ∃ w, i < s.pipeline.workers.length ∧
    s'.pipeline.workers = s.pipeline.workers.set i w ∧ s'.backlog.closed = s.backlog.closed ∧
    (w.isGone = true → w = .finished ∧ s.backlog.closed = true ∧ s'.backlog.ready = []) := by
  have hkeeps := h.keeps
  obtain ⟨⟨w, w', hi, hgone, hset⟩, -, -, hclosed, -, -⟩ := h.keeps
  have hlt : i < s.pipeline.workers.length := (List.getElem?_eq_some_iff.1 hi).1
  refine ⟨w', hlt, hset, hclosed, fun hw' => ?_⟩
  have hself : s'.pipeline.workers[i]? = some w' := by
    rw [hset]
    exact List.getElem?_set_self hlt
  cases h with
  | leaves hw ht hc =>
    cases hself.symm.trans (Pipeline.getElem?_setWorker_self hw)
    exact ⟨rfl, hc, Backlog.take?_eq_none_iff.1 ht⟩
  | takes hw | looks hw | talks hw | succeeds hw | releases hw =>
    cases hself.symm.trans (Pipeline.getElem?_setWorker_self hw)
    cases hw'
  | judges hw | counts hw =>
    cases hself.symm.trans hw
    cases hw'
  | desists hw | readds hw | delays hw | forgets hw =>
    cases hself.symm.trans (Pipeline.getElem?_setWorker_self hw)
    cases hw'

theorem Leaving.works (h : s.Leaving) (hw : s.Works backend i o s') : s'.Leaving := by
  obtain ⟨w', hi, hset, hclosed, hgone⟩ := hw.gone
  refine ⟨fun w hmem hwg => ?_, fun _ hall => ?_⟩
  · rw [hclosed]
    rcases List.mem_or_eq_of_mem_set (hset ▸ hmem) with hmem | rfl
    · exact h.gone w hmem hwg
    · exact ⟨(hgone hwg).1, (hgone hwg).2.1⟩
  · rw [hset] at hall
    have hmem : w' ∈ s.pipeline.workers.set i w' := List.mem_set hi w'
    exact (hgone (List.all_eq_true.1 hall w' hmem)).2.2

/-- Others may add something, which counts only as long as the backlog is open. -/
theorem Leaving.congr (h : s.Leaving) (hw : s'.pipeline.workers = s.pipeline.workers)
    (hc : s.backlog.closed = true → s'.backlog.closed = true ∧ s'.backlog.ready = s.backlog.ready) :
    s'.Leaving := by
  have hgone : ∀ w ∈ s'.pipeline.workers, w.isGone = true →
      w = .finished ∧ s.backlog.closed = true := fun w hmem => h.gone w (hw ▸ hmem)
  refine ⟨fun w hmem hwg => ?_, fun hne hall => ?_⟩
  · obtain ⟨rfl, hclosed⟩ := hgone w hmem hwg
    exact ⟨rfl, (hc hclosed).1⟩
  · obtain ⟨w, hmem⟩ := List.exists_mem_of_ne_nil _ hne
    have hclosed := (hgone w hmem (List.all_eq_true.1 hall w hmem)).2
    rw [(hc hclosed).2]
    exact h.empty (hw ▸ hne) (hw ▸ hall)

theorem Leaving.moves (h : s.Leaving) (hm : s.Moves backend m o s') : s'.Leaving := by
  cases hm with
  | starts | told | takesIn | abandons | waits => exact h.congr rfl fun hc => ⟨hc, rfl⟩
  | works hw => exact h.works hw
  | hands | adds =>
    refine h.congr rfl fun hc => ⟨Backlog.closed_add.trans hc, ?_⟩
    exact congrArg Backlog.ready (Backlog.add_of_closed hc)
  | @fires i d hd hdue =>
    refine h.congr rfl fun hc => ⟨Backlog.closed_fire.trans hc, ?_⟩
    obtain ⟨before, after, -, hfire⟩ := Backlog.exists_fire hd
    have hclosed : ({ s.backlog with delayed := before ++ after } : Backlog).closed = true := hc
    change (s.backlog.fire i).ready = _
    rw [hfire, Backlog.add_of_closed hclosed]
  | responds hr =>
    cases hr with
    | starts =>
      have hidle : ∀ w ∈ List.replicate s.controller.workerCount Worker.idle, w.isGone = false :=
        fun w hw => by rw [List.eq_of_mem_replicate hw]; rfl
      refine ⟨fun w hw hwg => ?_, fun hne hall => ?_⟩
      · cases (hidle w hw).symm.trans hwg
      · obtain ⟨w, hw⟩ := List.exists_mem_of_ne_nil _ hne
        cases (hidle w hw).symm.trans (List.all_eq_true.1 hall w hw)
    | fails | drains => exact h.congr rfl fun _ => ⟨rfl, rfl⟩
    | reports | stops => exact h.congr rfl fun hc => ⟨hc, rfl⟩

section Reached

variable {kind : Kind} {base max : Duration} {settings : ControllerSettings} {store : σ}

theorem Reaches.leaving (h : Reaches backend (initial kind base max settings store) past s) :
    s.Leaving := by
  induction h with
  | start => exact ⟨fun _ hw => absurd hw List.not_mem_nil, fun hne => absurd rfl hne⟩
  | move _ hm ih => exact ih.moves (moves_of_move? hm)

/-- The workers of a controller that has stopped have left nothing. -/
theorem Reaches.nothing_left (h : Reaches backend (initial kind base max settings store) past s)
    (hs : s.controller.state = .stopped) :
    s.backlog.ready = [] ∧ ∀ n, n ∉ s.backlog.pending ∧ n ∉ s.backlog.held := by
  have hcourse := h.onCourse
  unfold OnCourse at hcourse
  rw [hs] at hcourse
  obtain ⟨hne, -, -, hall⟩ := hcourse
  have hready := h.leaving.empty hne hall
  have hheld : ∀ n, n ∉ s.backlog.held := fun n hn => by
    obtain ⟨i, w, hi, hname⟩ := h.inOrder.orderly.had hn
    have hmem := List.mem_of_getElem? hi
    obtain ⟨rfl, -⟩ := h.leaving.gone w hmem (List.all_eq_true.1 hall w hmem)
    cases hname
  refine ⟨hready, fun n => ⟨fun hn => ?_, hheld n⟩⟩
  rcases h.inOrder.orderly.sound.ready_or_held n hn with hr | hh
  · have hmem : n ∈ s.backlog.ready := hr
    rw [hready] at hmem
    exact absurd hmem List.not_mem_nil
  · exact hheld n hh

theorem Reaches.shows_nothing
    (h : Reaches backend (initial kind base max settings store) past s)
    (hs : s.controller.state = .stopped) {st : Standing} (hst : s.Shows n st) :
    st.waiting = none ∧ st.hold = none := by
  obtain ⟨hholds, hstanding⟩ := hst
  obtain ⟨-, hnothing⟩ := h.nothing_left hs
  constructor
  · rw [hstanding]
    exact Std.ExtTreeMap.getElem?_eq_none (hnothing n).1
  · cases hhold : st.hold with
    | none => rfl
    | some hold =>
      rw [hhold] at hholds
      obtain ⟨i, w, hi, hitem, -⟩ := hholds
      have hname : w.name? = some n := by rw [Worker.name?, hitem]; rfl
      exact absurd (h.inOrder.orderly.held hi hname) (hnothing n).2

/-- What is handed out was accepted. When a controller has stopped, what was accepted last for a
name has been delivered. -/
theorem Reaches.drained (h : Reaches backend (initial kind base max settings store) past s) :
    (∀ newer item older, past = newer ++ .handedOut item :: older →
      ∃ waited, Record.AcceptsLast older item waited ∧ Record.Withholds item.name waited) ∧
    (s.controller.state = .stopped →
      s.controller.result = some (.ok ()) ∧
      (s.backlog.ready = [] ∧ ∀ n, n ∉ s.backlog.pending ∧ n ∉ s.backlog.held) ∧
      ∀ newer item again older, past = newer ++ .added item again :: older → .closed ∉ older →
        ∃ c later, Record.AcceptsLast past ⟨item.name, c⟩ later ∧
          Record.Delivers later ⟨item.name, c⟩) := by
  refine ⟨fun newer item older hp => ?_, fun hs => ⟨?_, h.nothing_left hs, ?_⟩⟩
  · obtain ⟨st, -, hlives⟩ := h.lives item.name
    obtain ⟨waited, hsince, hwithholds⟩ := hlives.handedOut hp rfl
    exact ⟨waited, Record.since?_eq_some_iff.1 hsince, hwithholds⟩
  · have hcourse := h.onCourse
    unfold OnCourse at hcourse
    rw [hs] at hcourse
    exact hcourse.2.2.1
  · intro newer item again older hp hopen
    obtain ⟨c, later, hlast⟩ := Record.exists_acceptsLast hp hopen
    obtain ⟨st, hshows, hlives⟩ := h.lives item.name
    obtain ⟨hwaiting, hhold⟩ := h.shows_nothing hs hshows
    refine ⟨c, later, hlast, ?_⟩
    have hexplained := hlives.explained
    unfold Standing.Explained at hexplained
    rw [Record.since?_eq_some_iff.2 hlast] at hexplained
    have hfits : (Errand.since ⟨item.name, c⟩ later).Fits c st := hexplained
    have htold := Errand.told ⟨item.name, c⟩ later
    generalize Errand.since ⟨item.name, c⟩ later = e at hfits htold
    -- Nothing waits for the name and no worker has it, so the errand is done.
    cases e with
    | waiting => cases hwaiting.symm.trans hfits
    | underWay => cases hhold.symm.trans hfits.2
    | ended =>
      obtain ⟨-, _, -, hended⟩ := hfits
      cases hhold.symm.trans hended
    | done => exact htold
    | astray => exact hfits.elim

end Reached

section Example

open Rehearsal

/-- A node that is changed while it is being created, by a controller with two workers. -/
def busyNode : WatchedObject :=
  .node { metadata := { name := some "n1", resourceVersion := some "1" } }

def busySettings : ControllerSettings := ⟨2, 5, .ofSecs 60⟩

def busyStart : Shift FaultyStore := initial .node ⟨5000000⟩ ⟨1000000000⟩ busySettings .initial

/-- The second worker leaves before the first one has released the node, and something is added
when it is too late. -/
def busyMoves : List Move :=
  [.start, .takeIn .listBegins, .takeIn .listEnds, .respond .cache, .takeIn (.applied busyNode),
    .hand, .work 0, .work 0, .add ⟨.cluster "n1", .update⟩, .tellToStop, .respond .stopRequest,
    .work 1, .add ⟨.cluster "n1", .delete⟩] ++ List.replicate 20 (.work 0) ++ [.respond .workers]

theorem busy_stopped :
    (play FaultyStore.backend [] busyStart busyMoves).2.controller.state = .stopped := by
  decide +kernel

theorem drained_of_busy :
    ∃ past s, Reaches FaultyStore.backend busyStart past s ∧ s.controller.state = .stopped ∧
      (∀ newer item older, past = newer ++ .handedOut item :: older →
        ∃ waited, Record.AcceptsLast older item waited ∧ Record.Withholds item.name waited) ∧
      s.controller.result = some (.ok ()) ∧
      (s.backlog.ready = [] ∧ ∀ n, n ∉ s.backlog.pending ∧ n ∉ s.backlog.held) ∧
      ∀ newer item again older, past = newer ++ .added item again :: older → .closed ∉ older →
        ∃ c later, Record.AcceptsLast past ⟨item.name, c⟩ later ∧
          Record.Delivers later ⟨item.name, c⟩ := by
  have hr : Reaches FaultyStore.backend busyStart _ _ := Reaches.start.play busyMoves
  obtain ⟨haccepted, hstopped⟩ := Reaches.drained hr
  exact ⟨_, _, hr, busy_stopped, haccepted, hstopped busy_stopped⟩

end Example

end Shift

end ClusterSync

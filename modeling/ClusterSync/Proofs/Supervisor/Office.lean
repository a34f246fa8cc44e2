import ClusterSync.Proofs.Controller.Topic
import ClusterSync.Supervisor.Basic

/-!
# A supervisor and everybody it works with

An office is a supervisor with the datastore that its members share. It opens with the members that
its settings enable. Any of its parts may take the next step: the supervisor itself, the dialogue
that sets or clears the flag, a member's controller, its watch, each of its workers and timers, and
others who write the datastore. A member's part is the controller on duty that it would be if it
were alone with the datastore.

**Theorem (`reaches_observe`).** Taking an event in at one go is one order of these steps.

**Theorem (`Reaches.shift`).** What holds of every member's controller in the beginning, wherever
the datastore and the clock stand, and what its moves keep, holds of it throughout.

**Theorem (`Reaches.eq_of_kind`).** Two members of one kind are the same.
-/

namespace ClusterSync

variable {σ : Type}

/-! ## Kinds -/

theorem nodup_eraseDups {α : Type} [BEq α] [LawfulBEq α] : (l : List α) → l.eraseDups.Nodup
  | [] => List.nodup_nil
  | a :: rest => by
    rw [List.eraseDups_cons, List.nodup_cons]
    exact ⟨by simp, nodup_eraseDups _⟩
  termination_by l => l.length
  decreasing_by exact Nat.lt_succ_of_le (List.length_filter_le _ _)

theorem Kind.nodup_ofList (text : String) : (Kind.ofList text).Nodup := nodup_eraseDups _

/-! ## Offices -/

/-- The controller on duty at another instant, with another datastore. -/
def Shift.moveTo (s : Shift σ) (store : σ) (now : Nat) : Shift σ := { s with store, now }

/-- What may come from outside: news of the objects of a kind, and transactions of others. -/
structure Outside where
  news : Kind → WatchEvent → Prop
  writes : Transaction → Prop

/-- A supervisor at work. -/
structure Office (σ : Type) where
  supervisor : Supervisor
  store : σ
  now : Nat
  /-- The items that follow from the last event of each member's watch and are still to be added. -/
  owed : Nat → List WorkItem
  /-- How far each worker of each member has come with a failure. -/
  stages : Nat → Nat → RetryStage

/-- What may happen to the controller of a member. -/
def Outside.Allows (w : Outside) (s : Shift σ) : Shift.Move → Prop
  | .takeIn event => w.news s.pipeline.kind event
  | .tellToStop | .respond _ | .abandon | .hand | .work _ | .fire _ => True
  | .start | .add _ | .wait _ => False

/-- What holds of a controller wherever the datastore and the clock stand, and what the moves that
may happen to it keep, is kept throughout. -/
structure Outside.Preserves (w : Outside) (backend : Backend σ) (P : Shift σ → Prop) : Prop where
  place : ∀ {s : Shift σ} (store : σ) (now : Nat), P s → P (s.moveTo store now)
  move : ∀ {s s' : Shift σ} {m : Shift.Move} {r : Option Incident}, P s → w.Allows s m →
    s.Moves backend m r s' → P s'

/-- The dialogue about the flag that a supervisor is in. -/
def Stage.dialogue? : Stage → Option (Dialogue Unit)
  | .announcing rest | .retracting rest => some rest
  | .waiting _ | .holding | .draining | .finished | .refused _ => none

namespace Office

/-- The supervisor has just started its members. -/
def opening (settings : Settings) (now : Nat) (store : σ) : Office σ :=
  ⟨.start settings now, store, now, fun _ => [], fun _ _ => .unjudged⟩

variable (o : Office σ)

/-- A member's controller on duty. -/
def shift? (i : Nat) : Option (Shift σ) :=
  o.supervisor.members[i]?.map fun m => ⟨m.controller, o.store, o.now, o.owed i, o.stages i⟩

/-- The office after a move of a member's controller. -/
def putBack (i : Nat) (s : Shift σ) : Office σ where
  supervisor := o.supervisor.setController i s.controller
  store := s.store
  now := s.now
  owed := fun j => if j = i then s.owed else o.owed j
  stages := fun j => if j = i then s.stages else o.stages j

/-- The office after a member's watch has gone. -/
def loseWatch (i : Nat) (m : Member) (watch : WatchState) : Office σ :=
  { o with supervisor := { o.supervisor with
    members := o.supervisor.members.set i (m.loseWatch watch) } }

/-- The kinds of the members. -/
def kinds : List Kind := o.supervisor.members.map (·.controller.pipeline.kind)

variable {o o' first : Office σ} {w : Outside} {backend : Backend σ} {i j : Nat} {s s' : Shift σ}

/-- The moves that a member's controller makes by itself: it responds, its workers go on, delays
end, and what an event has brought is added. -/
def IsInner : Shift.Move → Prop
  | .respond _ | .work _ | .fire _ | .hand => True
  | .start | .tellToStop | .takeIn _ | .add _ | .abandon | .wait _ => False

/-- What may happen in an office. A watch takes an event in when it has added all that followed
from the one before; it breaks down at an object that cannot be cached. -/
inductive Steps (backend : Backend σ) (w : Outside) (o : Office σ) : Office σ → Prop
  | responds {stimulus : Supervisor.Stimulus} {supervisor : Supervisor}
      (h : o.supervisor.respond? stimulus = some supervisor) :
      Steps backend w o { o with supervisor }
  | speaks {supervisor : Supervisor} {store : σ}
      (h : o.supervisor.speak? backend o.store = some (supervisor, store)) :
      Steps backend w o { o with supervisor, store }
  | signal : Steps backend w o { o with supervisor := { o.supervisor with signalled := true } }
  | serves {i : Nat} {s s' : Shift σ} {m : Shift.Move} {r : Option Incident} (hm : IsInner m)
      (hs : o.shift? i = some s) (h : s.move? backend m = some (r, s')) :
      Steps backend w o (o.putBack i s')
  | hears {i : Nat} {m : Member} {s s' : Shift σ} {event : WatchEvent} {r : Option Incident}
      (hm : o.supervisor.members[i]? = some m) (hr : m.watch = .running)
      (hn : w.news m.controller.pipeline.kind event) (hs : o.shift? i = some s)
      (h : s.move? backend (.takeIn event) = some (r, s')) :
      Steps backend w o (o.putBack i s')
  | chokes {i : Nat} {m : Member} {event : WatchEvent}
      (hm : o.supervisor.members[i]? = some m) (hr : m.watch = .running)
      (hn : w.news m.controller.pipeline.kind event) (ho : o.owed i = [])
      (h : m.controller.pipeline.cache.accept? event = none) :
      Steps backend w o (o.loseWatch i m .broken)
  | leaves {i : Nat} {supervisor : Supervisor} (ho : o.owed i = [])
      (h : o.supervisor.endWatch? i = some supervisor) : Steps backend w o { o with supervisor }
  | commits {x : Transaction} (hx : w.writes x) :
      Steps backend w o { o with store := (backend.commit x o.store).2 }
  | waits (time : Nat) : Steps backend w o { o with now := o.now + time }

/-- The offices that steps lead to. -/
inductive Reaches (backend : Backend σ) (w : Outside) (first : Office σ) : Office σ → Prop
  | start : Reaches backend w first first
  | step {o o' : Office σ} (h : Reaches backend w first o) (hs : o.Steps backend w o') :
      Reaches backend w first o'

/-- What may become of the datastore in a step that a member has no hand in. -/
inductive Drifts (backend : Backend σ) (w : Outside) (o : Office σ) (j : Nat) : σ → Prop
  | rests : Drifts backend w o j o.store
  | speaks {supervisor : Supervisor} {store : σ}
      (h : o.supervisor.speak? backend o.store = some (supervisor, store)) :
      Drifts backend w o j store
  | works {i : Nat} {s t : Shift σ} {m : Shift.Move} {r : Option Incident} (hij : i ≠ j)
      (hs : o.shift? i = some s) (h : s.move? backend m = some (r, t)) :
      Drifts backend w o j t.store
  | commits {x : Transaction} (hx : w.writes x) : Drifts backend w o j (backend.commit x o.store).2

/-- What a step does to the controller of a member: it makes a move that may happen to it, or it
stays where it is while the datastore drifts and time passes. -/
inductive Carries (backend : Backend σ) (w : Outside) (o : Office σ) (j : Nat) (s : Shift σ) :
    Shift σ → Prop
  | stays {store : σ} (hd : o.Drifts backend w j store) (now : Nat) :
      Carries backend w o j s (s.moveTo store now)
  | moves {m : Shift.Move} {r : Option Incident} {t : Shift σ} (hm : w.Allows s m)
      (ht : s.move? backend m = some (r, t)) : Carries backend w o j s t

/-! ## What a step does to the members -/

theorem shift?_eq_some {m : Member} (hm : o.supervisor.members[i]? = some m) :
    o.shift? i = some ⟨m.controller, o.store, o.now, o.owed i, o.stages i⟩ := by
  unfold shift?
  rw [hm, Option.map_some]

theorem exists_member (h : o.shift? i = some s) : ∃ m, o.supervisor.members[i]? = some m ∧
    s = ⟨m.controller, o.store, o.now, o.owed i, o.stages i⟩ := by
  obtain ⟨m, hm, rfl⟩ := Option.map_eq_some_iff.1 h
  exact ⟨m, hm, rfl⟩

theorem store_eq (h : o.shift? i = some s) : s.store = o.store := by
  obtain ⟨m, -, rfl⟩ := exists_member h
  rfl

theorem members_setController {supervisor : Supervisor} {c : Controller} {m : Member}
    (hm : supervisor.members[i]? = some m) :
    (supervisor.setController i c).members =
      supervisor.members.set i { m with controller := c } := by
  unfold Supervisor.setController
  rw [hm]

theorem stage_setController {supervisor : Supervisor} {c : Controller} :
    (supervisor.setController i c).stage = supervisor.stage := by
  unfold Supervisor.setController
  split <;> rfl

theorem members_concludeRollCall {supervisor : Supervisor} {allRunning : Bool} :
    (supervisor.concludeRollCall allRunning).members = supervisor.members := by
  unfold Supervisor.concludeRollCall
  cases allRunning <;> rfl

/-- A watch that has ended is lost to its member. -/
theorem exists_member_of_endWatch? {supervisor supervisor' : Supervisor}
    (h : supervisor.endWatch? i = some supervisor') :
    ∃ m, supervisor.members[i]? = some m ∧
      supervisor' = { supervisor with
        members := supervisor.members.set i (m.loseWatch .ended) } := by
  obtain ⟨m, hm, h⟩ := Option.bind_eq_some_iff.1 h
  obtain ⟨-, -, h⟩ := Option.bind_eq_some_iff.1 h
  cases h
  exact ⟨m, hm, rfl⟩

/-- A response leaves the members alone. -/
theorem members_respond? {supervisor supervisor' : Supervisor} {stimulus : Supervisor.Stimulus}
    (h : supervisor.respond? stimulus = some supervisor') :
    supervisor'.members = supervisor.members := by
  unfold Supervisor.respond? at h
  dsimp only at h
  split at h
  · split at h
    · cases h
      exact members_concludeRollCall
    · obtain ⟨⟨roll, events⟩, -, rfl⟩ := Option.map_eq_some_iff.1 h
      rfl
  · split at h
    · cases h
      rfl
    · cases h
  · split at h
    · cases h
      rfl
    · cases h
  · split at h
    · cases h
      rfl
    · cases h
  · cases h

/-- Speaking leaves the members alone or tells all of them to stop. -/
theorem members_speak? {supervisor supervisor' : Supervisor} {store store' : σ}
    (h : supervisor.speak? backend store = some (supervisor', store')) :
    supervisor'.members = supervisor.members ∨
      supervisor'.members = supervisor.members.map Member.requestStop ∧ store' = store := by
  unfold Supervisor.speak? at h
  split at h
  · cases h
    exact .inl rfl
  · cases h
    exact .inl rfl
  · cases h
    exact .inr ⟨rfl, rfl⟩
  · cases h
    exact .inl rfl
  · cases h

theorem shift?_putBack {m : Member} (hm : o.supervisor.members[i]? = some m) (j : Nat) :
    (o.putBack i s').shift? j =
      if j = i then some s' else (o.shift? j).map (·.moveTo s'.store s'.now) := by
  have hmembers : (o.putBack i s').supervisor.members =
      o.supervisor.members.set i { m with controller := s'.controller } :=
    members_setController hm
  unfold shift?
  rw [hmembers]
  by_cases hij : j = i
  · subst hij
    have hi : j < o.supervisor.members.length := (List.getElem?_eq_some_iff.1 hm).1
    rw [List.getElem?_set_self hi, if_pos rfl]
    simp [putBack]
  · rw [List.getElem?_set_ne (Ne.symm hij), if_neg hij, Option.map_map]
    simp only [putBack, if_neg hij]
    rfl

theorem shift?_loseWatch {m : Member} {watch : WatchState}
    (hm : o.supervisor.members[i]? = some m) (j : Nat) :
    (o.loseWatch i m watch).shift? j = (o.shift? j).map fun s =>
      if j = i then s.setPipeline { s.pipeline with cache := s.pipeline.cache.abandon } else s := by
  have hmembers : (o.loseWatch i m watch).supervisor.members =
      o.supervisor.members.set i (m.loseWatch watch) := rfl
  unfold shift?
  rw [hmembers, Option.map_map]
  by_cases hij : j = i
  · subst hij
    have hi : j < o.supervisor.members.length := (List.getElem?_eq_some_iff.1 hm).1
    rw [List.getElem?_set_self hi, hm]
    simp only [Option.map_some, Function.comp_apply, if_pos]
    rfl
  · rw [List.getElem?_set_ne (Ne.symm hij)]
    simp only [Function.comp_def, if_neg hij]
    rfl

/-- A controller that has just been told to stop. -/
theorem shift?_requestStop {supervisor : Supervisor} {store : σ}
    (h : supervisor.members = o.supervisor.members.map Member.requestStop) (j : Nat) :
    ({ o with supervisor, store } : Office σ).shift? j = (o.shift? j).map fun s =>
      ({ s with controller := { s.controller with stopRequested := true } } : Shift σ).moveTo store
        o.now := by
  unfold shift?
  dsimp only
  rw [h, List.getElem?_map, Option.map_map, Option.map_map]
  rfl

theorem exists_shift_of_members {supervisor : Supervisor} {store : σ} {now : Nat}
    (hmembers : supervisor.members = o.supervisor.members) (hd : o.Drifts backend w j store)
    (hs' : ({ o with supervisor, store, now } : Office σ).shift? j = some s') :
    ∃ s, o.shift? j = some s ∧ o.Carries backend w j s s' := by
  obtain ⟨m, hm, rfl⟩ := exists_member hs'
  have hm : supervisor.members[j]? = some m := hm
  rw [hmembers] at hm
  exact ⟨_, shift?_eq_some hm, .stays hd now⟩

theorem exists_shift_of_putBack {m : Shift.Move} {r : Option Incident} {t : Shift σ}
    (hs : o.shift? i = some s) (hm : w.Allows s m) (ht : s.move? backend m = some (r, t))
    (hs' : (o.putBack i t).shift? j = some s') :
    ∃ s, o.shift? j = some s ∧ o.Carries backend w j s s' := by
  obtain ⟨member, hmember, -⟩ := exists_member hs
  rw [shift?_putBack hmember] at hs'
  split at hs'
  · rename_i hij
    rw [hij]
    cases hs'
    exact ⟨s, hs, .moves hm ht⟩
  · rename_i hij
    obtain ⟨u, hu, rfl⟩ := Option.map_eq_some_iff.1 hs'
    exact ⟨u, hu, .stays (.works (Ne.symm hij) hs ht) t.now⟩

theorem exists_shift_of_loseWatch {m : Member} {watch : WatchState}
    (hm : o.supervisor.members[i]? = some m)
    (hs' : (o.loseWatch i m watch).shift? j = some s') :
    ∃ s, o.shift? j = some s ∧ o.Carries backend w j s s' := by
  rw [shift?_loseWatch hm] at hs'
  obtain ⟨s, hs, rfl⟩ := Option.map_eq_some_iff.1 hs'
  by_cases hij : j = i
  · rw [if_pos hij]
    exact ⟨s, hs, .moves (m := .abandon) trivial rfl⟩
  · rw [if_neg hij]
    obtain ⟨member, -, rfl⟩ := exists_member hs
    exact ⟨_, hs, .stays .rests o.now⟩

/-- A step makes at most one move of each member's controller. -/
theorem Steps.exists_shift (h : o.Steps backend w o') (hs' : o'.shift? j = some s') :
    ∃ s, o.shift? j = some s ∧ o.Carries backend w j s s' := by
  cases h with
  | responds h => exact exists_shift_of_members (members_respond? h) .rests hs'
  | signal => exact exists_shift_of_members rfl .rests hs'
  | commits hx => exact exists_shift_of_members rfl (.commits hx) hs'
  | waits => exact exists_shift_of_members rfl .rests hs'
  | @speaks supervisor store h =>
    rcases members_speak? h with hmembers | ⟨hmembers, rfl⟩
    · exact exists_shift_of_members hmembers (.speaks h) hs'
    · rw [shift?_requestStop hmembers] at hs'
      obtain ⟨s, hs, rfl⟩ := Option.map_eq_some_iff.1 hs'
      obtain ⟨m, -, rfl⟩ := exists_member hs
      exact ⟨_, hs, .moves (m := .tellToStop) trivial rfl⟩
  | @serves i s t m r hm hs h =>
    have hallowed : w.Allows s m := by
      cases m with
      | respond | work | fire | hand => trivial
      | start | tellToStop | takeIn | add | abandon | wait => exact hm.elim
    exact exists_shift_of_putBack hs hallowed h hs'
  | hears hm hr hn hs h =>
    obtain ⟨member, hmember, rfl⟩ := exists_member hs
    cases hm.symm.trans hmember
    exact exists_shift_of_putBack (m := .takeIn _) hs hn h hs'
  | chokes hm => exact exists_shift_of_loseWatch hm hs'
  | leaves ho h =>
    obtain ⟨m, hm, rfl⟩ := exists_member_of_endWatch? h
    exact exists_shift_of_loseWatch hm hs'

/-! ## Runs -/

theorem Reaches.shift {P : Shift σ → Prop} (hp : w.Preserves backend P)
    (h : Reaches backend w first o) (hf : ∀ i s, first.shift? i = some s → P s) :
    ∀ i s, o.shift? i = some s → P s := by
  induction h with
  | start => exact hf
  | step _ hs ih =>
    intro i s' hs'
    obtain ⟨s, hbefore, hcarries⟩ := hs.exists_shift hs'
    have hs := ih i s hbefore
    cases hcarries with
    | stays _ now => exact hp.place _ now hs
    | moves hm ht => exact hp.move hs hm (Shift.moves_of_move? ht)

/-- A step by name; others do not write. -/
inductive Act
  | respond (stimulus : Supervisor.Stimulus)
  | speak
  | signal
  /-- A member's controller makes a move by itself. -/
  | serve (i : Nat) (m : Shift.Move)
  /-- An event reaches the watch of a member, which is of a kind. -/
  | hear (i : Nat) (kind : Kind) (event : WatchEvent)
  | wait (time : Nat)

/-- A step by which nothing comes from outside that may not. -/
def Act.May (w : Outside) : Act → Prop
  | .hear _ kind event => w.news kind event
  | .respond _ | .speak | .signal | .serve .. | .wait _ => True

instance [∀ kind event, Decidable (w.news kind event)] : DecidablePred (Act.May w)
  | .hear _ kind event => inferInstanceAs (Decidable (w.news kind event))
  | .respond _ | .speak | .signal | .serve .. | .wait _ => isTrue trivial

instance : DecidablePred IsInner
  | .respond _ | .work _ | .fire _ | .hand => isTrue trivial
  | .start | .tellToStop | .takeIn _ | .add _ | .abandon | .wait _ => isFalse id

/-- Takes a step; none if it cannot be taken now. -/
def act? (backend : Backend σ) (o : Office σ) : Act → Option (Office σ)
  | .respond stimulus =>
    (o.supervisor.respond? stimulus).map fun supervisor => { o with supervisor }
  | .speak =>
    (o.supervisor.speak? backend o.store).map fun (supervisor, store) =>
      { o with supervisor, store }
  | .signal => some { o with supervisor := { o.supervisor with signalled := true } }
  | .serve i m =>
    if IsInner m then
      (o.shift? i).bind fun s => (s.move? backend m).map fun (_, t) => o.putBack i t
    else none
  | .hear i kind event =>
    (o.supervisor.members[i]?).bind fun m =>
      if m.watch = .running ∧ m.controller.pipeline.kind = kind then
        (o.shift? i).bind fun s => (s.move? backend (.takeIn event)).map fun (_, t) => o.putBack i t
      else none
  | .wait time => some { o with now := o.now + time }

theorem steps_of_act? {act : Act} (h : o.act? backend act = some o') (hn : act.May w) :
    o.Steps backend w o' := by
  cases act with
  | respond stimulus =>
    obtain ⟨supervisor, hr, rfl⟩ := Option.map_eq_some_iff.1 h
    exact .responds hr
  | speak =>
    obtain ⟨⟨supervisor, store⟩, hs, rfl⟩ := Option.map_eq_some_iff.1 h
    exact .speaks hs
  | signal =>
    cases h
    exact .signal
  | serve i m =>
    rw [act?] at h
    split at h
    · rename_i hm
      obtain ⟨s, hs, h⟩ := Option.bind_eq_some_iff.1 h
      obtain ⟨⟨r, t⟩, ht, rfl⟩ := Option.map_eq_some_iff.1 h
      exact .serves hm hs ht
    · cases h
  | hear i kind event =>
    obtain ⟨m, hm, hheard⟩ := Option.bind_eq_some_iff.1 h
    split at hheard
    · rename_i hwatch
      obtain ⟨s, hs, hmoved⟩ := Option.bind_eq_some_iff.1 hheard
      obtain ⟨⟨r, t⟩, ht, rfl⟩ := Option.map_eq_some_iff.1 hmoved
      exact .hears hm hwatch.1 (hwatch.2 ▸ hn) hs ht
    · cases hheard
  | wait time =>
    cases h
    exact .waits time

/-- Steps that are taken one after the other. -/
theorem Reaches.acts {acts : List Act} (h : Reaches backend w first o)
    (ha : acts.foldlM (act? backend) o = some o') (hn : ∀ act ∈ acts, act.May w) :
    Reaches backend w first o' := by
  induction acts generalizing o with
  | nil =>
    cases ha
    exact h
  | cons act acts ih =>
    obtain ⟨next, hnext, hrest⟩ := Option.bind_eq_some_iff.1 ha
    have hstep : o.Steps backend w next := steps_of_act? hnext (hn act List.mem_cons_self)
    exact ih (h.step hstep) hrest fun act hmem => hn act (List.mem_cons_of_mem _ hmem)

/-! ## The kinds of the members -/

/-- A member has been replaced by one of the same kind. -/
theorem kinds_of_set {supervisor : Supervisor} {store : σ} {now : Nat}
    {owed : Nat → List WorkItem} {stages : Nat → Nat → RetryStage} {m : Member} (m' : Member)
    (hm : o.supervisor.members[i]? = some m)
    (hk : m'.controller.pipeline.kind = m.controller.pipeline.kind)
    (hs : supervisor.members = o.supervisor.members.set i m') :
    (⟨supervisor, store, now, owed, stages⟩ : Office σ).kinds = o.kinds := by
  unfold kinds
  dsimp only
  obtain ⟨hi, rfl⟩ := List.getElem?_eq_some_iff.1 hm
  rw [hs, List.map_set, hk]
  have hlength : i < (o.supervisor.members.map (·.controller.pipeline.kind)).length := by
    simpa using hi
  have hget : (o.supervisor.members.map (·.controller.pipeline.kind))[i] =
      (o.supervisor.members[i]).controller.pipeline.kind := List.getElem_map _
  rw [← hget, List.set_getElem_self hlength]

theorem Steps.kinds_eq (h : o.Steps backend w o') : o'.kinds = o.kinds := by
  cases h with
  | responds h =>
    unfold kinds
    rw [members_respond? h]
  | signal | commits | waits => rfl
  | speaks h =>
    unfold kinds
    rcases members_speak? h with hmembers | ⟨hmembers, -⟩
    · rw [hmembers]
    · rw [hmembers, List.map_map]
      rfl
  | serves _ hs h =>
    obtain ⟨m, hm, rfl⟩ := exists_member hs
    exact kinds_of_set _ hm (Shift.moves_of_move? h).kind (members_setController hm)
  | hears _ _ _ hs h =>
    obtain ⟨m, hm, rfl⟩ := exists_member hs
    exact kinds_of_set _ hm (Shift.moves_of_move? h).kind (members_setController hm)
  | @chokes i m event hm => exact kinds_of_set (m.loseWatch .broken) hm rfl rfl
  | leaves ho h =>
    obtain ⟨m, hm, rfl⟩ := exists_member_of_endWatch? h
    exact kinds_of_set (m.loseWatch .ended) hm rfl rfl

theorem Reaches.kinds_eq (h : Reaches backend w first o) : o.kinds = first.kinds := by
  induction h with
  | start => rfl
  | step _ hs ih => exact hs.kinds_eq.trans ih

theorem kinds_opening (settings : Settings) (now : Nat) (store : σ) :
    (opening settings now store).kinds = Kind.ofList settings.controllers := by
  show ((Kind.ofList settings.controllers).map _).map _ = _
  rw [List.map_map]
  exact List.map_id _

/-- Two members of one kind are the same. -/
theorem Reaches.eq_of_kind {settings : Settings} {now : Nat} {store : σ}
    (h : Reaches backend w (opening settings now store) o) (hs : o.shift? i = some s)
    (hs' : o.shift? j = some s') (hk : s.pipeline.kind = s'.pipeline.kind) : i = j := by
  have hkinds : o.kinds = Kind.ofList settings.controllers :=
    h.kinds_eq.trans (kinds_opening settings now store)
  have hget : ∀ {i : Nat} {s : Shift σ}, o.shift? i = some s →
      o.kinds[i]? = some s.pipeline.kind := by
    intro i s hs
    obtain ⟨m, hm, rfl⟩ := exists_member hs
    unfold kinds
    rw [List.getElem?_map, hm]
    rfl
  have hlt : i < o.kinds.length := (List.getElem?_eq_some_iff.1 (hget hs)).1
  have hnodup : o.kinds.Nodup := hkinds ▸ Kind.nodup_ofList _
  exact (List.getElem?_inj hlt hnodup).1 ((hget hs).trans (hk ▸ (hget hs').symm))

/-! ## In the beginning -/

/-- A member's controller on duty when the supervisor has just started it. -/
theorem exists_kind_of_opening {settings : Settings} {now : Nat} {store : σ}
    (h : (opening settings now store).shift? i = some s) :
    ∃ kind, s = ⟨(Supervisor.member settings now kind).controller, store, now, [],
      fun _ => .unjudged⟩ := by
  obtain ⟨m, hm, rfl⟩ := exists_member h
  have hmem : m ∈ (Kind.ofList settings.controllers).map (Supervisor.member settings now) :=
    List.mem_of_getElem? hm
  obtain ⟨kind, -, rfl⟩ := List.mem_map.1 hmem
  exact ⟨kind, rfl⟩

/-! ## The dialogue about the flag -/

/-- Speaking takes a step of the dialogue, which then goes on with what is left or is over. -/
theorem exists_step_of_speak? {supervisor supervisor' : Supervisor} {store store' : σ}
    (h : supervisor.speak? backend store = some (supervisor', store')) :
    ∃ rest, supervisor.stage.dialogue? = some rest ∧
      (rest.step backend supervisor.journal store).2 = (supervisor'.journal, store') ∧
      ∀ rest', supervisor'.stage.dialogue? = some rest' →
        rest' = (rest.step backend supervisor.journal store).1 := by
  unfold Supervisor.speak? at h
  split at h
  · rename_i hs
    cases h
    exact ⟨.done (), by rw [hs]; rfl, rfl, nofun⟩
  · rename_i rest hne hs
    cases h
    refine ⟨rest, by rw [hs]; rfl, rfl, fun rest' heq => ?_⟩
    exact (Option.some.inj heq).symm
  · rename_i hs
    cases h
    exact ⟨.done (), by rw [hs]; rfl, rfl, nofun⟩
  · rename_i rest hne hs
    cases h
    refine ⟨rest, by rw [hs]; rfl, rfl, fun rest' heq => ?_⟩
    exact (Option.some.inj heq).symm
  · cases h

/-- On a table every office leaves a table that transactions lead to. -/
theorem Steps.reached {o o' : Office Table} (h : o.Steps Table.backend w o')
    (hr : o.store.Reached) : o'.store.Reached := by
  cases h with
  | responds | signal | chokes | leaves | waits => exact hr
  | commits => exact hr.commit _
  | serves _ hs hm => exact (Shift.moves_of_move? hm).reached (store_eq hs ▸ hr)
  | hears _ _ _ hs hm => exact (Shift.moves_of_move? hm).reached (store_eq hs ▸ hr)
  | speaks h =>
    obtain ⟨rest, -, hstore, -⟩ := exists_step_of_speak? h
    have hstep := Dialogue.reached_step hr rest o.supervisor.journal
    rw [hstore] at hstep
    exact hstep

theorem Reaches.reached {first o : Office Table} (h : Reaches Table.backend w first o)
    (hf : first.store.Reached) : o.store.Reached := by
  induction h with
  | start => exact hf
  | step _ hs ih => exact hs.reached ih

/-! ## Taking an event in at one go -/

/-- A controller that goes on with the same result is put back without a report. -/
theorem setController_of_result {supervisor : Supervisor} {c : Controller} {m : Member}
    (hm : supervisor.members[i]? = some m) (hr : c.result = m.controller.result) :
    supervisor.setController i c = { supervisor with
      members := supervisor.members.set i { m with controller := c } } := by
  unfold Supervisor.setController
  rw [hm]
  dsimp only
  rw [hr]
  cases m.controller.result <;> rfl

theorem putBack_self (hs : o.shift? i = some s) : o.putBack i s = o := by
  obtain ⟨m, hm, rfl⟩ := exists_member hs
  obtain ⟨supervisor, store, now, owed, stages⟩ := o
  have hm : supervisor.members[i]? = some m := hm
  have hsame : supervisor.members.set i m = supervisor.members := by
    obtain ⟨hi, rfl⟩ := List.getElem?_eq_some_iff.1 hm
    exact List.set_getElem_self hi
  unfold putBack
  dsimp only
  rw [setController_of_result hm rfl, hsame, Office.mk.injEq]
  refine ⟨rfl, rfl, rfl, ?_, ?_⟩
  · funext j
    by_cases hj : j = i <;> simp [hj]
  · funext j
    by_cases hj : j = i <;> simp [hj]

theorem putBack_putBack {t : Shift σ} (hs : o.shift? i = some s)
    (hr : s'.controller.result = s.controller.result)
    (hr' : t.controller.result = s'.controller.result) :
    (o.putBack i s').putBack i t = o.putBack i t := by
  obtain ⟨m, hm, rfl⟩ := exists_member hs
  have hi := (List.getElem?_eq_some_iff.1 hm).1
  have hget : (o.supervisor.members.set i { m with controller := s'.controller })[i]? =
      some { m with controller := s'.controller } := List.getElem?_set_self hi
  unfold putBack
  dsimp only
  rw [setController_of_result hm hr, setController_of_result hm (hr'.trans hr),
    setController_of_result hget hr', List.set_set, Office.mk.injEq]
  refine ⟨rfl, rfl, rfl, ?_, ?_⟩
  · funext j
    by_cases hj : j = i <;> simp [hj]
  · funext j
    by_cases hj : j = i <;> simp [hj]

/-- The controller on duty after all that is owed has been added. -/
def handAll (s : Shift σ) : Shift σ :=
  { s.setPipeline (s.owed.foldl Pipeline.enqueue s.pipeline) with owed := [] }

theorem Reaches.hands (h : Reaches backend w first o) (hs : o.shift? i = some s) :
    Reaches backend w first (o.putBack i (handAll s)) := by
  obtain ⟨c, store, now, owed, stages⟩ := s
  induction owed generalizing o c with
  | nil =>
    have hself := putBack_self hs
    rwa [← hself] at h
  | cons item owed ih =>
    obtain ⟨m, hm, -⟩ := exists_member hs
    let next : Shift σ := ⟨{ c with pipeline := c.pipeline.enqueue item }, store, now, owed, stages⟩
    have hstep : o.Steps backend w (o.putBack i next) := .serves (m := .hand) trivial hs rfl
    have hnext : (o.putBack i next).shift? i = some next := by
      rw [shift?_putBack hm, if_pos rfl]
    have hrest := ih (h.step hstep) _ hnext
    have hback : (o.putBack i next).putBack i (handAll next) = o.putBack i (handAll next) :=
      putBack_putBack hs rfl rfl
    rwa [hback] at hrest

theorem reaches_observe {m : Member} {event : WatchEvent} (h : Reaches backend w first o)
    (hm : o.supervisor.members[i]? = some m) (hr : m.watch = .running)
    (hw : m.controller.pipeline.cache.writable = true)
    (hn : w.news m.controller.pipeline.kind event) (ho : o.owed i = []) :
    Reaches backend w first { o with supervisor := o.supervisor.observe i event } := by
  have hs := shift?_eq_some hm
  unfold Supervisor.observe
  rw [hm]
  dsimp only
  rw [if_pos hr]
  unfold Pipeline.receive?
  cases hc : m.controller.pipeline.cache.accept? event with
  | none => exact h.step (.chokes hm hr hn ho hc)
  | some cache =>
    let taken : Shift σ := Shift.takenIn ⟨m.controller, o.store, o.now, o.owed i, o.stages i⟩
      event cache
    have hmove : Shift.move? ⟨m.controller, o.store, o.now, o.owed i, o.stages i⟩ backend
        (.takeIn event) = some (none, taken) := by
      have hfree : o.owed i = [] ∧ m.controller.pipeline.cache.writable = true := ⟨ho, hw⟩
      show (if o.owed i = [] ∧ m.controller.pipeline.cache.writable = true then _ else _) = _
      rw [if_pos hfree]
      show (m.controller.pipeline.cache.accept? event).map _ = _
      rw [hc, Option.map_some]
    have htaken : (o.putBack i taken).shift? i = some taken := by
      rw [shift?_putBack hm, if_pos rfl]
    have hall := (h.step (.hears hm hr hn hs hmove)).hands htaken
    have hback : (o.putBack i taken).putBack i (handAll taken) = o.putBack i (handAll taken) :=
      putBack_putBack hs rfl rfl
    rw [hback] at hall
    refine cast (congrArg _ ?_) hall
    unfold putBack
    dsimp only
    rw [setController_of_result (c := (handAll taken).controller) hm rfl, Office.mk.injEq]
    refine ⟨rfl, rfl, rfl, ?_, ?_⟩
    · funext j
      by_cases hj : j = i <;> simp [hj, ho, handAll]
    · funext j
      by_cases hj : j = i <;> simp [hj, handAll, taken, Shift.takenIn, Shift.setPipeline]

end Office

end ClusterSync

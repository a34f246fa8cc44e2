import ClusterSync.Proofs.Controller.Topic
import ClusterSync.Proofs.Supervisor.Office

/-!
# What the flag in the datastore tells

A supervisor sets the flag once all of its controllers run, and clears it before it tells them to
stop. It does neither when it starts, so until one of the two the flag is as somebody has left it.

**Theorem (`Reaches.flag`).** As long as nobody else writes the flag: whenever it says that the
program is ready, each controller has come to run and none has failed, or the flag is still the one
that was found. Once the controllers have been told to stop it does not say so.

**Theorem (`flag_left_behind`).** A flag that has been left behind keeps on saying so after a
controller has failed.
-/

namespace ClusterSync

open Text

variable {σ : Type}

/-! ## The states of controllers -/

/-- The state that may come after a state. -/
inductive ControllerState.Precedes : ControllerState → ControllerState → Prop
  | syncs : Precedes .initializing .syncing
  | runs : Precedes .syncing .running
  | fails : Precedes .syncing .failed
  | drains : Precedes .running .draining
  | stops : Precedes .draining .stopped

/-- A move enters at most one state. -/
theorem Shift.Moves.states {s s' : Shift σ} {backend : Backend σ} {m : Shift.Move}
    {r : Option Incident} (h : s.Moves backend m r s') :
    s'.controller.states = s.controller.states ∨
      ∃ next, s.controller.state.Precedes next ∧
        s'.controller.states = next :: s.controller.states := by
  cases h with
  | told | takesIn | hands | adds | abandons | fires | waits => exact .inl rfl
  | works h => exact .inl h.keeps.states
  | starts hs => exact .inr ⟨.syncing, hs ▸ .syncs, rfl⟩
  | responds hr =>
    cases hr with
    | starts hs => exact .inr ⟨.running, hs ▸ .runs, rfl⟩
    | fails e hs => exact .inr ⟨.failed, hs ▸ .fails, rfl⟩
    | drains hs => exact .inr ⟨.draining, hs ▸ .drains, rfl⟩
    | reports => exact .inl rfl
    | stops hs => exact .inr ⟨.stopped, hs ▸ .stops, rfl⟩

namespace Controller

variable {c c' : Controller} {next : ControllerState}

/-- The controller has come to run, and has at most been told to stop since then. -/
structure Ran (c : Controller) : Prop where
  ran : .running ∈ c.states
  unfailed : .failed ∉ c.states
  since : c.state = .running ∨ c.state = .draining ∨ c.state = .stopped

/-- A failure is the end. -/
def EndsInFailure (c : Controller) : Prop := .failed ∈ c.states → c.state = .failed

theorem state_congr (h : c'.states = c.states) : c'.state = c.state := by
  unfold state
  rw [h]

theorem state_of_cons (h : c'.states = next :: c.states) : c'.state = next := by
  unfold state
  rw [h]
  rfl

theorem EndsInFailure.congr (h : c.EndsInFailure) (heq : c'.states = c.states) :
    c'.EndsInFailure := by
  intro hf
  rw [state_congr heq]
  exact h (heq ▸ hf)

theorem Ran.congr (h : c.Ran) (heq : c'.states = c.states) : c'.Ran :=
  ⟨heq ▸ h.ran, heq ▸ h.unfailed, (state_congr heq).symm ▸ h.since⟩

theorem EndsInFailure.ran (h : c.EndsInFailure) (hs : c.state = .running) : c.Ran := by
  refine ⟨?_, fun hf => ?_, .inl hs⟩
  · unfold state at hs
    cases hstates : c.states with
    | nil =>
      rw [hstates] at hs
      cases hs
    | cons first states =>
      rw [hstates] at hs
      exact hs ▸ List.mem_cons_self
  · rw [h hf] at hs
    cases hs

theorem EndsInFailure.goOn (h : c.EndsInFailure) (hp : c.state.Precedes next)
    (heq : c'.states = next :: c.states) : c'.EndsInFailure := by
  intro hf
  rw [state_of_cons heq]
  rw [heq] at hf
  rcases List.mem_cons.1 hf with hnext | hold
  · exact hnext.symm
  · rw [h hold] at hp
    cases hp

theorem Ran.goOn (h : c.Ran) (hp : c.state.Precedes next)
    (heq : c'.states = next :: c.states) : c'.Ran := by
  have hlater : next = .draining ∨ next = .stopped := by
    rcases h.since with hs | hs | hs <;> rw [hs] at hp <;> cases hp
    · exact .inl rfl
    · exact .inr rfl
  refine ⟨?_, fun hf => ?_, ?_⟩
  · rw [heq]
    exact List.mem_cons_of_mem _ h.ran
  · rw [heq] at hf
    rcases List.mem_cons.1 hf with hnext | hold
    · rcases hlater with hd | hs
      · rw [hd] at hnext
        cases hnext
      · rw [hs] at hnext
        cases hnext
    · exact h.unfailed hold
  · rw [state_of_cons heq]
    exact .inr hlater

end Controller

namespace Shift

variable {s s' : Shift σ} {backend : Backend σ} {w : Outside} {m : Move} {r : Option Incident}

theorem Moves.ran (h : s.Moves backend m r s') (hr : s.controller.Ran) : s'.controller.Ran := by
  rcases h.states with heq | ⟨next, hp, heq⟩
  · exact hr.congr heq
  · exact hr.goOn hp heq

/-- Deliveries are about objects. -/
def AboutObjects (_ : WorkItem) (path : String) : Prop := ∃ kind : Kind, kind.Owns path

/-- A controller that ends if it fails, and whose deliveries leave the flag alone. -/
structure Straight (s : Shift σ) : Prop where
  ends : s.controller.EndsInFailure
  topic : s.OnTopic AboutObjects

theorem preserves_straight (w : Outside) : w.Preserves backend Straight where
  place _ _ h := ⟨h.ends, h.topic⟩
  move {s s' m r} h _ hs := by
    refine ⟨?_, hs.onTopic h.topic fun item _ => ?_⟩
    · rcases hs.states with heq | ⟨next, hp, heq⟩
      · exact h.ends.congr heq
      · exact h.ends.goOn hp heq
    · refine Pipeline.keepsTo_delivery_of_keys (fun path hpath => ?_) fun o _ path hpath => ?_
      · exact ⟨s.pipeline.kind, item.name, hpath⟩
      · exact ⟨o.kind, o.owns_path_key hpath⟩

end Shift

/-! ## Answers to the roll call -/

theorem RollCall.next?_eq_some {r r' : RollCall} {showings : List Showing} {events : List LogEvent}
    (h : r.next? showings = some (r', events)) :
    ∃ s, showings[r.answered]? = some s ∧ r'.answered = r.answered + 1 ∧
      (r'.allRunning = true → r.allRunning = true ∧ s.state = .running) := by
  obtain ⟨s, hs, h⟩ := Option.bind_eq_some_iff.1 h
  obtain ⟨⟨running, answers⟩, hanswer, h⟩ := Option.bind_eq_some_iff.1 h
  cases h
  refine ⟨s, hs, rfl, fun hall => ?_⟩
  obtain ⟨hr, hrunning⟩ := Bool.and_eq_true_iff.1 hall
  subst hrunning
  refine ⟨hr, ?_⟩
  unfold answer? at hanswer
  split at hanswer
  · assumption
  · split at hanswer
    · cases hanswer
    · split at hanswer <;> cases hanswer

theorem RollCall.outcome?_eq_some {r : RollCall} {showings : List Showing} {allRunning : Bool}
    (h : r.outcome? showings = some allRunning) :
    showings.length ≤ r.answered ∧ r.allRunning = allRunning := by
  unfold outcome? at h
  split at h
  · exact ⟨by assumption, Option.some.inj h⟩
  · cases h

/-! ## What the flag says -/

/-- The flag says that the program is ready. -/
def SaysReady (found : Option Entry) : Prop :=
  ∃ e, found = some e ∧ Value.decode .ready e.value = .ok (.flag true)

/-- The flag has been cleared. -/
def IsCleared (found : Option Entry) : Prop :=
  ∃ e, found = some e ∧ e.value = Value.flagBytes false

theorem saysReady_iff {found : Option Entry} :
    SaysReady found ↔ found.map (·.value) = some (Value.flagBytes true) := by
  constructor
  · rintro ⟨e, rfl, hdecode⟩
    have hvalue : decide (e.value = Value.flagBytes true) = true :=
      Value.flag.inj (Except.ok.inj hdecode)
    rw [Option.map_some, of_decide_eq_true hvalue]
  · intro h
    obtain ⟨e, rfl, hvalue⟩ := Option.map_eq_some_iff.1 h
    refine ⟨e, rfl, ?_⟩
    rw [hvalue]
    rfl

instance (found : Option Entry) : Decidable (SaysReady found) :=
  decidable_of_iff _ saysReady_iff.symm

theorem IsCleared.not_saysReady {found : Option Entry} (h : IsCleared found) :
    ¬ SaysReady found := by
  obtain ⟨e, rfl, hvalue⟩ := h
  intro hs
  have hready : some e.value = some (Value.flagBytes true) := saysReady_iff.1 hs
  rw [hvalue] at hready
  exact absurd (Option.some.inj hready) (by decide)

namespace Office

variable {o o' : Office Table} {w : Outside} {i : Nat} {settings : Settings} {now : Nat}
  {t : Table} {left : Option Entry}

/-- What is kept as the flag. -/
def flag? (o : Office Table) : Option Entry := o.store.entries[Key.readyPath]?

/-- The controller of a member has come to run. -/
def HasRun (o : Office Table) (i : Nat) : Prop := ∀ s, o.shift? i = some s → s.controller.Ran

theorem Steps.hasRun (h : o.Steps Table.backend w o') (hr : o.HasRun i) : o'.HasRun i := by
  intro s' hs'
  obtain ⟨s, hs, hcarries⟩ := h.exists_shift hs'
  cases hcarries with
  | stays => exact hr s hs
  | moves _ hm => exact (Shift.moves_of_move? hm).ran (hr s hs)

/-- What the stage of a supervisor says of its members and of the flag, which was `left` in the
beginning. -/
def Honest (o : Office Table) (left : Option Entry) : Prop :=
  match o.supervisor.stage with
  | .waiting roll =>
    o.flag? = left ∧ (roll.allRunning = true → ∀ i < roll.answered, o.HasRun i)
  | .announcing _ => ∀ i, o.HasRun i
  | .holding => (∀ i, o.HasRun i) ∨ o.flag? = left
  | .retracting rest =>
    (rest.Secures Key.readyPath (fun _ => IsCleared) o.flag? ∧
      rest.PutsOnly (Value.flagBytes false)) ∧
    ((∀ i, o.HasRun i) ∨ o.flag? = left ∨ IsCleared o.flag?)
  | .draining | .finished => IsCleared o.flag?
  | .refused _ => o.flag? = left

/-- What the flag says is true, or somebody else has said it. -/
theorem Honest.hasRun (h : o.Honest left) (hs : SaysReady o.flag?) :
    (∀ i, o.HasRun i) ∨ o.flag? = left := by
  unfold Honest at h
  split at h
  · exact .inr h.1
  · exact .inl h
  · exact h
  · rcases h.2 with hran | hleft | hcleared
    · exact .inl hran
    · exact .inr hleft
    · exact absurd hs hcleared.not_saysReady
  · exact absurd hs h.not_saysReady
  · exact absurd hs h.not_saysReady
  · exact .inr h

theorem Honest.not_saysReady (h : o.Honest left) (hs : o.supervisor.hasStopped = true) :
    ¬ SaysReady o.flag? := by
  unfold Supervisor.hasStopped at hs
  unfold Honest at h
  split at hs
  · rename_i hstage
    rw [hstage] at h
    exact h.not_saysReady
  · rename_i hstage
    rw [hstage] at h
    exact h.not_saysReady
  · cases hs

/-- Only the stage and the flag count, and members that have come to run. -/
theorem Honest.congr (h : o.Honest left) (hstage : o'.supervisor.stage = o.supervisor.stage)
    (hflag : o'.flag? = o.flag?) (hran : ∀ i, o.HasRun i → o'.HasRun i) : o'.Honest left := by
  unfold Honest at h ⊢
  rw [hstage, hflag]
  split <;> rename_i hs <;> rw [hs] at h
  · exact ⟨h.1, fun hall i hi => hran i (h.2 hall i hi)⟩
  · exact fun i => hran i (h i)
  · exact h.imp_left fun hall i => hran i (hall i)
  · exact ⟨h.1, h.2.imp_left fun hall i => hran i (hall i)⟩
  · exact h
  · exact h
  · exact h

/-! ## Steps of the supervisor -/

theorem Honest.retracts {supervisor : Supervisor} (h : (∀ i, o.HasRun i) ∨ o.flag? = left)
    (hran : ∀ i, o.HasRun i →
      ({ o with supervisor := supervisor.retract } : Office Table).HasRun i) :
    ({ o with supervisor := supervisor.retract } : Office Table).Honest left := by
  refine ⟨⟨ReadyFlag.secures_publish false _, ReadyFlag.putsOnly_publish false⟩, ?_⟩
  exact h.imp (fun hall i => hran i (hall i)) .inl

theorem Honest.responds {stimulus : Supervisor.Stimulus} {supervisor : Supervisor}
    (h : o.Honest left) (hstraight : ∀ i s, o.shift? i = some s → s.Straight)
    (hr : o.supervisor.respond? stimulus = some supervisor) :
    ({ o with supervisor } : Office Table).Honest left := by
  have hran : ∀ i, o.HasRun i → ({ o with supervisor } : Office Table).HasRun i := fun i hi =>
    (Steps.responds (w := ⟨fun _ _ => True, fun _ => True⟩) hr).hasRun hi
  unfold Honest at h
  unfold Supervisor.respond? at hr
  dsimp only at hr
  split at hr
  · rename_i roll hstage
    rw [hstage] at h
    obtain ⟨hflag, hanswered⟩ := h
    split at hr
    · rename_i allRunning hout
      obtain ⟨hlength, hall⟩ := RollCall.outcome?_eq_some hout
      cases hr
      cases allRunning with
      | false => exact .inr hflag
      | true =>
        intro i
        refine hran i fun s hs => ?_
        obtain ⟨m, hm, -⟩ := exists_member hs
        have hi : i < o.supervisor.members.length := (List.getElem?_eq_some_iff.1 hm).1
        rw [List.length_map] at hlength
        exact hanswered hall i (Nat.lt_of_lt_of_le hi hlength) s hs
    · obtain ⟨⟨roll', events⟩, hnext, heq⟩ := Option.map_eq_some_iff.1 hr
      obtain ⟨showing, hshowing, hcount, hrunning⟩ := RollCall.next?_eq_some hnext
      cases heq
      refine ⟨hflag, fun hall i hi => hran i ?_⟩
      obtain ⟨hbefore, hstate⟩ := hrunning hall
      rw [hcount] at hi
      rcases Nat.lt_succ_iff_lt_or_eq.1 hi with hi | rfl
      · exact hanswered hbefore i hi
      · intro s hs
        obtain ⟨m, hm, hcontroller⟩ := exists_member hs
        rw [List.getElem?_map, hm] at hshowing
        cases hshowing
        have hends := (hstraight _ s hs).ends
        rw [hcontroller] at hends ⊢
        exact hends.ran hstate
  · rename_i roll hstage
    rw [hstage] at h
    split at hr
    · cases hr
      exact .retracts (.inr h.1) hran
    · cases hr
  · rename_i hstage
    rw [hstage] at h
    split at hr
    · cases hr
      exact .retracts h hran
    · cases hr
  · rename_i hstage
    rw [hstage] at h
    split at hr
    · cases hr
      exact h
    · cases hr
  · cases hr

theorem Honest.speaks {supervisor : Supervisor} {store : Table} (h : o.Honest left)
    (hreached : o.store.Reached)
    (hs : o.supervisor.speak? Table.backend o.store = some (supervisor, store)) :
    ({ o with supervisor, store } : Office Table).Honest left := by
  have hran : ∀ i, o.HasRun i → ({ o with supervisor, store } : Office Table).HasRun i :=
    fun i hi => (Steps.speaks (w := ⟨fun _ _ => True, fun _ => True⟩) hs).hasRun hi
  unfold Honest at h
  unfold Supervisor.speak? at hs
  split at hs
  · rename_i hstage
    rw [hstage] at h
    cases hs
    exact .inl fun i => hran i (h i)
  · rename_i hstage
    rw [hstage] at h
    cases hs
    exact fun i => hran i (h i)
  · rename_i hstage
    rw [hstage] at h
    cases hs
    exact h.1.1
  · rename_i rest _ hstage
    rw [hstage] at h
    cases hs
    obtain ⟨⟨hsecures, hputs⟩, hflag⟩ := h
    obtain ⟨hnext, -, -⟩ := hsecures.step hreached.valid o.supervisor.journal
    obtain ⟨hputs', hfound⟩ := hputs.step o.supervisor.journal o.store Key.readyPath
    refine ⟨⟨hnext, hputs'⟩, ?_⟩
    rcases hflag with hall | hleft | hcleared
    · exact .inl fun i => hran i (hall i)
    · exact .inr (hfound.imp_left fun hsame => hsame.trans hleft)
    · refine .inr (.inr (hfound.elim (fun hsame => ?_) id))
      exact hcleared.imp fun e he => ⟨hsame.trans he.1, he.2⟩
  · cases hs

/-! ## Runs -/

/-- Controllers leave the flag alone. -/
theorem flag?_moves {s s' : Shift Table} {m : Shift.Move} {r : Option Incident}
    (hs : o.shift? i = some s) (hstraight : s.Straight)
    (hm : s.move? Table.backend m = some (r, s')) : (o.putBack i s').flag? = o.flag? := by
  have hsame := (Shift.moves_of_move? hm).getElem?_store hstraight.topic
    fun _ _ _ _ ⟨_, howns⟩ => howns.ne_readyPath rfl
  rw [store_eq hs] at hsame
  exact hsame

theorem Honest.steps (h : o.Honest left) (hs : o.Steps Table.backend w o')
    (hx : ∀ x, w.writes x → x.Spares (· = Key.readyPath)) (hreached : o.store.Reached)
    (hstraight : ∀ i s, o.shift? i = some s → s.Straight) : o'.Honest left := by
  have hran : ∀ i, o.HasRun i → o'.HasRun i := fun i => hs.hasRun
  cases hs with
  | responds hr => exact h.responds hstraight hr
  | speaks hs => exact h.speaks hreached hs
  | signal | chokes | waits => exact h.congr rfl rfl hran
  | serves _ hs hm =>
    exact h.congr stage_setController (flag?_moves hs (hstraight _ _ hs) hm) hran
  | hears _ _ _ hs hm =>
    exact h.congr stage_setController (flag?_moves hs (hstraight _ _ hs) hm) hran
  | commits hw => exact h.congr rfl (Table.getElem?_commit_of_spares (hx _ hw) rfl) hran
  | leaves _ hl =>
    obtain ⟨m, -, rfl⟩ := exists_member_of_endWatch? hl
    exact h.congr rfl rfl hran

theorem honest_opening : (opening settings now t).Honest t.entries[Key.readyPath]? := by
  have hstage : (opening settings now t).supervisor.stage =
      if Kind.ofList settings.controllers = [] then
        .refused (Supervisor.noControllers settings.controllers)
      else .waiting .initial := rfl
  unfold Honest
  rw [hstage]
  by_cases hk : Kind.ofList settings.controllers = []
  · rw [if_pos hk]
    rfl
  · rw [if_neg hk]
    exact ⟨rfl, fun _ i hi => absurd hi (Nat.not_lt_zero i)⟩

theorem straight_opening :
    ∀ i s, (opening settings now t).shift? i = some s → s.Straight := by
  intro i s hs
  obtain ⟨kind, rfl⟩ := exists_kind_of_opening hs
  refine ⟨fun hf => ?_, Shift.onTopic_of_workers_eq_nil rfl⟩
  have hnone : ControllerState.failed ∉ [ControllerState.syncing, .initializing] := by decide
  exact absurd hf hnone

theorem Reaches.honest (hx : ∀ x, w.writes x → x.Spares (· = Key.readyPath)) (ht : t.Reached)
    (h : Reaches Table.backend w (opening settings now t) o) :
    o.Honest t.entries[Key.readyPath]? := by
  induction h with
  | start => exact honest_opening
  | step hreach hs ih =>
    exact ih.steps hs hx (hreach.reached ht)
      (hreach.shift (Shift.preserves_straight w) straight_opening)

theorem Reaches.flag (hx : ∀ x, w.writes x → x.Spares (· = Key.readyPath)) (ht : t.Reached)
    (h : Reaches Table.backend w (opening settings now t) o) :
    (SaysReady o.flag? →
      (∀ m ∈ o.supervisor.members,
        .running ∈ m.controller.states ∧ .failed ∉ m.controller.states) ∨
      o.flag? = t.entries[Key.readyPath]?) ∧
    (o.supervisor.hasStopped = true → ¬ SaysReady o.flag?) := by
  have hhonest := h.honest hx ht
  refine ⟨fun hs => (hhonest.hasRun hs).imp_left fun hall m hm => ?_, hhonest.not_saysReady⟩
  obtain ⟨i, hi⟩ := List.getElem?_of_mem hm
  have hran := hall i _ (shift?_eq_some hi)
  exact ⟨hran.ran, hran.unfailed⟩

section Example

/-- Nodes only, with a second for the cache. -/
def hasty : Settings := { Settings.default with controllers := "node", syncTimeoutSecs := 1 }

/-- Nobody else writes. -/
def alone : Outside := ⟨fun _ _ => True, fun _ => False⟩

instance (kind : Kind) (event : WatchEvent) : Decidable (alone.news kind event) := isTrue trivial

/-- A program that was ready has left the flag as it was. -/
def abandoned : Table :=
  (Table.initial.commit (Pair.putIf (.absent Key.readyPath) Key.readyPath
    (Value.flagBytes true) none)).2

/-- The controller fails because no list is complete in time. -/
def failingActs : List Act :=
  [.wait 1000000000, .serve 0 (.respond .deadline), .respond .rollCall, .respond .rollCall]

/-- The controller comes to run, and the flag is written. -/
def readyActs : List Act :=
  [.hear 0 .node .listBegins, .hear 0 .node .listEnds, .serve 0 (.respond .cache),
    .respond .rollCall, .respond .rollCall, .speak, .speak, .speak, .speak]

/-- The flag is cleared on a signal. -/
def closingActs : List Act := [.signal, .respond .signal, .speak, .speak, .speak, .speak]

/-- The offices after some steps, on a table with a flag that has been left behind. -/
def after? (acts : List Act) : Option (Office Table) :=
  acts.foldlM (act? Table.backend) (opening hasty 0 abandoned)

/-- What the flag says, and the states of the members. -/
def shows (o : Office Table) : Bool × List (List ControllerState) :=
  (decide (SaysReady o.flag?), o.supervisor.members.map (·.controller.states))

theorem shows_failed :
    (after? failingActs).map shows = some (true, [[.failed, .syncing, .initializing]]) := by
  decide +kernel

theorem flag_left_behind : ∃ t o, t.Reached ∧ Reaches Table.backend alone (opening hasty 0 t) o ∧
    SaysReady o.flag? ∧ ∃ m ∈ o.supervisor.members,
      .failed ∈ m.controller.states ∧ .running ∉ m.controller.states := by
  obtain ⟨o, ho, hshows⟩ := Option.map_eq_some_iff.1 shows_failed
  obtain ⟨hready, hstates⟩ := Prod.mk.inj hshows
  obtain ⟨m, hm, hfailed⟩ := List.map_eq_singleton_iff.1 hstates
  refine ⟨abandoned, o, .commit _ .initial, Reaches.start.acts ho (by decide),
    of_decide_eq_true hready, m, ?_, ?_⟩
  · rw [hm]
    exact List.mem_singleton_self m
  · rw [hfailed]
    decide

theorem shows_ready : (after? readyActs).map (fun o =>
    (decide (SaysReady o.flag?), o.flag?.map Entry.revision)) = some (true, some 2) := by
  decide +kernel

theorem shows_closing : (after? (readyActs ++ closingActs)).map (fun o =>
    o.supervisor.hasStopped) = some true := by
  decide +kernel

theorem flag_of_hasty : ∃ o o', Reaches Table.backend alone (opening hasty 0 abandoned) o ∧
    Reaches Table.backend alone (opening hasty 0 abandoned) o' ∧ SaysReady o.flag? ∧
    (∀ m ∈ o.supervisor.members,
      .running ∈ m.controller.states ∧ .failed ∉ m.controller.states) ∧
    ¬ SaysReady o'.flag? := by
  obtain ⟨o, ho, hshows⟩ := Option.map_eq_some_iff.1 shows_ready
  obtain ⟨o', ho', hstopped⟩ := Option.map_eq_some_iff.1 shows_closing
  obtain ⟨hready, hrevision⟩ := Prod.mk.inj hshows
  have hreaches : Reaches Table.backend alone (opening hasty 0 abandoned) o :=
    Reaches.start.acts ho (by decide)
  have hreaches' : Reaches Table.backend alone (opening hasty 0 abandoned) o' :=
    Reaches.start.acts ho' (by decide)
  have habandoned : abandoned.Reached := .commit _ .initial
  have hspares : ∀ x, alone.writes x → x.Spares (· = Key.readyPath) := fun _ hx => hx.elim
  have hwritten : o.flag? ≠ abandoned.entries[Key.readyPath]? := by
    intro heq
    rw [heq] at hrevision
    exact absurd hrevision (by decide +kernel)
  have hsays : SaysReady o.flag? := of_decide_eq_true hready
  have hran := ((hreaches.flag hspares habandoned).1 hsays).resolve_right hwritten
  exact ⟨o, o', hreaches, hreaches', hsays, hran, (hreaches'.flag hspares habandoned).2 hstopped⟩

end Example

end Office

end ClusterSync

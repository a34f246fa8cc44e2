import ClusterSync.Proofs.Datastore.Clientele
import ClusterSync.Proofs.Supervisor.Flag

/-!
# What a supervisor does

Here a supervisor is followed whatever happens to its members: controllers settle in any order, fail
or are gone without a word, the datastore answers whatever it likes, and the signal may come at any
moment. What the supervisor does by itself is kept as a list of deeds, the latest first.

**Theorem (`Runs.sound`).** As long as it is ready, its controllers run, and they have been told to
stop if and only if it has come so far.

**Theorem (`Runs.recounts`).** The stage where it stands tells what it has done.
-/

namespace ClusterSync

variable {σ : Type}

/-! ## What happens to members -/

namespace Member

variable {m m' : Member}

/-- What may become of a member while its supervisor looks on. Its controller may enter the next
state, and it drains only after it has been told to stop. It may be gone at any moment, also without
a word; from then on it enters no state. -/
structure Becomes (m m' : Member) : Prop where
  states : m'.controller.states = m.controller.states ∨
    m.controller.result = none ∧ ∃ next, m.controller.state.Precedes next ∧
      m'.controller.states = next :: m.controller.states ∧
      (next = .draining → m.controller.stopRequested = true)
  told : m'.controller.stopRequested = m.controller.stopRequested
  ended : m.controller.result.isSome = true → m'.controller.result.isSome = true
  watch : m.watch ≠ .running → m'.watch ≠ .running

/-- The controller has failed, or it is gone before it was settled how its start went. -/
def FailsToStart (m : Member) : Prop :=
  .failed ∈ m.controller.states ∨
    m.controller.result.isSome = true ∧ m.controller.state.isSettled = false

theorem Becomes.endsInFailure (h : m.Becomes m') (he : m.controller.EndsInFailure) :
    m'.controller.EndsInFailure := by
  rcases h.states with heq | ⟨-, next, hp, heq, -⟩
  · exact he.congr heq
  · exact he.goOn hp heq

theorem Becomes.ran (h : m.Becomes m') (hr : m.controller.Ran) : m'.controller.Ran := by
  rcases h.states with heq | ⟨-, next, hp, heq, -⟩
  · exact hr.congr heq
  · exact hr.goOn hp heq

/-- A controller goes on running until it is told to stop. -/
theorem Becomes.running (h : m.Becomes m') (hs : m.controller.state = .running)
    (ht : m.controller.stopRequested = false) : m'.controller.state = .running := by
  rcases h.states with heq | ⟨-, next, hp, -, hdrains⟩
  · exact (Controller.state_congr heq).trans hs
  · rw [hs] at hp
    cases hp
    rw [hdrains rfl] at ht
    cases ht

theorem Becomes.isGone (h : m.Becomes m') (hg : m.isGone = true) : m'.isGone = true := by
  unfold Member.isGone at hg ⊢
  rw [Bool.and_eq_true, decide_eq_true_iff] at hg ⊢
  exact ⟨h.ended hg.1, h.watch hg.2⟩

theorem Becomes.failsToStart (h : m.Becomes m') (hf : m.FailsToStart) : m'.FailsToStart := by
  rcases h.states with heq | ⟨hnone, next, hp, heq, -⟩
  · refine hf.imp (fun hmem => heq ▸ hmem) fun hsilent => ⟨h.ended hsilent.1, ?_⟩
    rw [Controller.state_congr heq]
    exact hsilent.2
  · rcases hf with hmem | ⟨hgone, -⟩
    · exact .inl (heq ▸ List.mem_cons_of_mem _ hmem)
    · rw [hnone] at hgone
      cases hgone

theorem not_failsToStart_of_ran (h : m.controller.Ran) : ¬ m.FailsToStart := by
  rintro (hmem | ⟨-, hunsettled⟩)
  · exact h.unfailed hmem
  · rcases h.since with hs | hs | hs <;> rw [hs] at hunsettled <;> cases hunsettled

/-- What holds of all members, holds of them after one has been replaced. -/
theorem forall_mem_set {P : Member → Prop} {members : List Member} {i : Nat}
    (h : ∀ m ∈ members, P m) (hm : members[i]? = some m) (hp : P m → P m') :
    ∀ x ∈ members.set i m', P x := by
  intro x hx
  rcases List.mem_or_eq_of_mem_set hx with hx | rfl
  · exact h x hx
  · exact hp (h m (List.mem_of_getElem? hm))

end Member

/-! ## Deeds -/

/-- What a supervisor does by itself. -/
inductive Deed (σ : Type)
  /-- It hears what a controller shows in answer to the roll call. -/
  | heard (i : Nat) (showing : Showing)
  /-- It ends the roll call, and from then on it is ready or it is not. -/
  | concluded (ready : Bool)
  /-- It goes on with writing a value of the flag, perhaps by an exchange with the datastore. -/
  | spoke (ready : Bool) (exchange? : Option (Exchange σ))
  /-- It takes its readiness back. -/
  | retracted
  /-- It tells its members to stop. -/
  | toldToStop
  | finished

namespace Deed

/-- The place of a deed in the course of things. -/
def place : Deed σ → Nat
  | .heard .. => 0
  | .concluded _ => 1
  | .spoke true _ => 2
  | .retracted => 3
  | .spoke false _ => 4
  | .toldToStop => 5
  | .finished => 6

/-- Whether there may be several deeds of the sort. -/
def recurs : Deed σ → Bool
  | .heard .. | .spoke .. => true
  | .concluded _ | .retracted | .toldToStop | .finished => false

/-- A deed comes before another in the course of things; those that recur may follow each other. -/
def MayPrecede (earlier later : Deed σ) : Prop :=
  earlier.place < later.place ∨ earlier.place = later.place ∧ later.recurs = true

/-- Deeds, the latest first, that follow each other as they may and do not go beyond a place. -/
structure InOrder (deeds : List (Deed σ)) (latest : Nat) : Prop where
  pairwise : deeds.Pairwise fun later earlier => earlier.MayPrecede later
  place_le : ∀ deed ∈ deeds, deed.place ≤ latest

/-- The exchange about a value of the flag that a deed is, if it is one. -/
def exchangeAbout? (ready : Bool) : Deed σ → Option (Exchange σ)
  | .spoke value exchange? => if value = ready then exchange? else none
  | .heard .. | .concluded _ | .retracted | .toldToStop | .finished => none

/-- The exchanges about a value of the flag, in their order. -/
def exchangesAbout (ready : Bool) (deeds : List (Deed σ)) : List (Exchange σ) :=
  (deeds.filterMap (exchangeAbout? ready)).reverse

variable {deed : Deed σ} {deeds : List (Deed σ)} {ready : Bool}

theorem InOrder.cons {latest next : Nat} (h : InOrder deeds latest)
    (hd : latest < deed.place ∨ latest = deed.place ∧ deed.recurs = true)
    (hn : deed.place ≤ next) : InOrder (deed :: deeds) next := by
  have hle : latest ≤ deed.place := hd.elim Nat.le_of_lt fun hsame => Nat.le_of_eq hsame.1
  refine ⟨List.pairwise_cons.2 ⟨fun earlier hmem => ?_, h.pairwise⟩, fun other hmem => ?_⟩
  · have hplace : earlier.place ≤ latest := h.place_le earlier hmem
    rcases hd with hlt | ⟨hsame, hrecurs⟩
    · exact .inl (Nat.lt_of_le_of_lt hplace hlt)
    · exact (Nat.lt_or_eq_of_le (hsame ▸ hplace)).imp_right fun heq => ⟨heq, hrecurs⟩
  · rcases List.mem_cons.1 hmem with rfl | hmem
    · exact hn
    · exact Nat.le_trans (h.place_le other hmem) (Nat.le_trans hle hn)

theorem exchangesAbout_cons :
    exchangesAbout ready (deed :: deeds) =
      exchangesAbout ready deeds ++ (deed.exchangeAbout? ready).toList := by
  unfold exchangesAbout
  rw [List.filterMap_cons]
  cases deed.exchangeAbout? ready with
  | none => simp
  | some exchange => simp

theorem exchangesAbout_false_eq_nil (h : ∀ deed ∈ deeds, deed.place ≤ 2) :
    exchangesAbout false deeds = [] := by
  unfold exchangesAbout
  rw [List.reverse_eq_nil_iff, List.filterMap_eq_nil_iff]
  intro deed hmem
  have hplace := h deed hmem
  cases deed with
  | spoke value exchange? =>
    cases value with
    | false => simp [place] at hplace
    | true => rfl
  | heard | concluded | retracted | toldToStop | finished => rfl

end Deed

/-- The place of the latest deed when a supervisor stands at a stage. -/
def Stage.place : Stage → Nat
  | .waiting _ | .refused _ => 0
  | .announcing _ | .holding => 2
  | .retracting _ => 4
  | .draining => 5
  | .finished => 6

namespace Supervisor

variable {s s' first : Supervisor} {backend : Backend σ} {deed : Deed σ} {deeds : List (Deed σ)}
  {m m' : Member} {i n : Nat} {journal : Journal}

/-- What a supervisor does when it responds. -/
def response (s : Supervisor) : Stimulus → Deed σ
  | .rollCall =>
    match s.stage with
    | .waiting roll =>
      match s.members[roll.answered]? with
      | some m => .heard roll.answered m.showing
      | none => .concluded roll.allRunning
    | _ => .concluded false
  | .signal => .retracted
  | .members => .finished

/-- What a supervisor does when it goes on with a dialogue. -/
def utterance (s : Supervisor) (store : σ) : Deed σ :=
  match s.stage with
  | .retracting (.done ()) => .toldToStop
  | .retracting rest => .spoke false (rest.exchange? store)
  | .announcing rest => .spoke true (rest.exchange? store)
  | _ => .spoke false none

/-- The supervisors that a supervisor comes to, and what it has done by then. -/
inductive Runs (backend : Backend σ) (first : Supervisor) : Supervisor → List (Deed σ) → Prop
  | start : Runs backend first first []
  | responds {s s' : Supervisor} {deeds : List (Deed σ)} {stimulus : Stimulus}
      (h : Runs backend first s deeds) (hr : s.respond? stimulus = some s') :
      Runs backend first s' (s.response stimulus :: deeds)
  | speaks {s s' : Supervisor} {deeds : List (Deed σ)} {store store' : σ}
      (h : Runs backend first s deeds) (hs : s.speak? backend store = some (s', store')) :
      Runs backend first s' (s.utterance store :: deeds)
  | signal {s : Supervisor} {deeds : List (Deed σ)} (h : Runs backend first s deeds) :
      Runs backend first { s with signalled := true } deeds
  | lives {s : Supervisor} {deeds : List (Deed σ)} {i : Nat} {m m' : Member} (journal : Journal)
      (h : Runs backend first s deeds) (hm : s.members[i]? = some m) (hb : m.Becomes m') :
      Runs backend first { s with members := s.members.set i m', journal } deeds

theorem Runs.trans {later : List (Deed σ)} (h : Runs backend first s deeds)
    (h' : Runs backend s s' later) : Runs backend first s' (later ++ deeds) := by
  induction h' with
  | start => exact h
  | responds _ hr ih => exact ih.responds hr
  | speaks _ hs ih => exact ih.speaks hs
  | signal _ ih => exact ih.signal
  | lives journal _ hm hb ih => exact ih.lives journal hm hb

/-! ## The steps of a supervisor -/

/-- The steps of a supervisor, one for each deed. -/
inductive Does (backend : Backend σ) (s : Supervisor) : Deed σ → Supervisor → Prop
  | hears {roll roll' : RollCall} {m : Member} (events : List LogEvent)
      (hs : s.stage = .waiting roll) (hm : s.members[roll.answered]? = some m)
      (hn : roll'.answered = roll.answered + 1)
      (hr : roll'.allRunning = true → roll.allRunning = true ∧ m.controller.state = .running) :
      Does backend s (.heard roll.answered m.showing)
        { s.reportAll events with stage := .waiting roll' }
  | reports {roll : RollCall} (hs : s.stage = .waiting roll)
      (hn : s.members.length ≤ roll.answered) (hr : roll.allRunning = true) :
      Does backend s (.concluded true)
        { s with ready := true, stage := .announcing (ReadyFlag.publish true) }
  | declines {roll : RollCall} (events : List LogEvent) (hs : s.stage = .waiting roll) :
      Does backend s (.concluded false) { s.reportAll events with stage := .holding }
  | announces {rest : Dialogue Unit} (store : σ) (journal : Journal)
      (hs : s.stage = .announcing rest) (hr : rest ≠ .done ()) :
      Does backend s (.spoke true (rest.exchange? store))
        { s with stage := .announcing (rest.step backend s.journal store).1, journal }
  | settles (hs : s.stage = .announcing (.done ())) :
      Does backend s (.spoke true none) { s with stage := .holding }
  | retracts (hs : (∃ roll, s.stage = .waiting roll) ∨ s.stage = .holding)
      (hr : s.signalled = true) : Does backend s .retracted s.retract
  | clears {rest : Dialogue Unit} (store : σ) (journal : Journal)
      (hs : s.stage = .retracting rest) (hr : rest ≠ .done ()) :
      Does backend s (.spoke false (rest.exchange? store))
        { s with stage := .retracting (rest.step backend s.journal store).1, journal }
  | tells (hs : s.stage = .retracting (.done ())) :
      Does backend s .toldToStop
        { s with stage := .draining, members := s.members.map Member.requestStop }
  | finishes (events : List LogEvent) (hs : s.stage = .draining)
      (hg : s.members.all Member.isGone = true) :
      Does backend s .finished { s.reportAll events with stage := .finished }

theorem does_of_respond? {stimulus : Stimulus} (h : s.respond? stimulus = some s') :
    s.Does backend (s.response stimulus) s' := by
  unfold respond? at h
  unfold response
  dsimp only at h
  split at h
  · rename_i roll hs
    dsimp only
    rw [hs]
    dsimp only
    split at h
    · rename_i allRunning hout
      obtain ⟨hlength, rfl⟩ := RollCall.outcome?_eq_some hout
      rw [List.length_map] at hlength
      rw [List.getElem?_eq_none hlength]
      cases h
      cases hr : roll.allRunning with
      | true => exact .reports hs hlength hr
      | false => exact .declines _ hs
    · obtain ⟨⟨roll', events⟩, hnext, rfl⟩ := Option.map_eq_some_iff.1 h
      obtain ⟨showing, hshowing, hn, hr⟩ := RollCall.next?_eq_some hnext
      rw [List.getElem?_map] at hshowing
      obtain ⟨m, hm, rfl⟩ := Option.map_eq_some_iff.1 hshowing
      rw [hm]
      exact .hears events hs hm hn hr
  · rename_i roll hs
    split at h
    · rename_i hsignal
      cases h
      exact .retracts (.inl ⟨roll, hs⟩) hsignal
    · cases h
  · rename_i hs
    split at h
    · rename_i hsignal
      cases h
      exact .retracts (.inr hs) hsignal
    · cases h
  · rename_i hs
    split at h
    · rename_i hgone
      cases h
      exact .finishes _ hs hgone
    · cases h
  · cases h

theorem does_of_speak? {store store' : σ} (h : s.speak? backend store = some (s', store')) :
    s.Does backend (s.utterance store) s' := by
  unfold speak? at h
  unfold utterance
  split at h
  · rename_i hs
    rw [hs]
    cases h
    exact .settles hs
  · rename_i rest hne hs
    rw [hs]
    cases h
    exact .announces store _ hs hne
  · rename_i hs
    rw [hs]
    cases h
    exact .tells hs
  · rename_i rest hne hs
    rw [hs]
    cases h
    cases rest with
    | done => exact absurd rfl hne
    | commit | read | log | count => exact .clears store _ hs hne
  · cases h

/-! ## What a stage says of the members -/

/-- What holds of the members of a supervisor, whatever it has done. -/
structure Sound (s : Supervisor) : Prop where
  ends : ∀ m ∈ s.members, m.controller.EndsInFailure
  told : ∀ m ∈ s.members, m.controller.stopRequested = s.hasStopped
  running : s.ready = true → ∀ m ∈ s.members, m.controller.state = .running
  stage : match s.stage with
    | .waiting roll => s.ready = false ∧ (roll.allRunning = true → ∀ i < roll.answered, ∀ m,
        s.members[i]? = some m → m.controller.state = .running)
    | .announcing _ | .holding => True
    | .retracting _ | .draining => s.ready = false ∧ s.signalled = true
    | .finished =>
      s.ready = false ∧ s.signalled = true ∧ ∀ m ∈ s.members, m.isGone = true
    | .refused _ => s.ready = false ∧ s.members = []

/-- A supervisor waits for the members that it has started, or it has started none. -/
theorem start_cases (settings : Settings) (now : Nat) :
    (start settings now).stage = .waiting .initial ∨ ∃ reason,
      (start settings now).stage = .refused reason ∧ (start settings now).members = [] := by
  have hstage : (start settings now).stage =
      if Kind.ofList settings.controllers = [] then .refused (noControllers settings.controllers)
      else .waiting .initial := rfl
  by_cases hk : Kind.ofList settings.controllers = []
  · refine .inr ⟨_, hstage.trans (if_pos hk), ?_⟩
    show (Kind.ofList settings.controllers).map _ = []
    rw [hk]
    rfl
  · exact .inl (hstage.trans (if_neg hk))

theorem sound_start {settings : Settings} {now : Nat} : (start settings now).Sound := by
  have hmembers : ∀ m ∈ (start settings now).members,
      ∃ kind, m = member settings now kind := by
    intro m hm
    obtain ⟨kind, -, rfl⟩ := List.mem_map.1 hm
    exact ⟨kind, rfl⟩
  refine ⟨fun m hm => ?_, fun m hm => ?_, nofun, ?_⟩
  · obtain ⟨kind, rfl⟩ := hmembers m hm
    intro hf
    have hnone : ControllerState.failed ∉ [ControllerState.syncing, .initializing] := by decide
    exact absurd hf hnone
  · obtain ⟨kind, rfl⟩ := hmembers m hm
    unfold hasStopped
    rcases start_cases settings now with hs | ⟨reason, hs, -⟩ <;> rw [hs] <;> rfl
  · rcases start_cases settings now with hs | ⟨reason, hs, hnone⟩ <;> rw [hs]
    · exact ⟨rfl, fun _ i hi => absurd hi (Nat.not_lt_zero i)⟩
    · exact ⟨rfl, hnone⟩

theorem Sound.not_hasStopped (h : s.Sound) (hr : s.ready = true) : s.hasStopped = false := by
  have hstage := h.stage
  unfold hasStopped
  split <;> rename_i hs
  · rw [hs] at hstage
    rw [hstage.1] at hr
    cases hr
  · rw [hs] at hstage
    rw [hstage.1] at hr
    cases hr
  · rfl

theorem Sound.does (h : s.Sound) (hd : s.Does backend deed s') : s'.Sound := by
  obtain ⟨hends, htold, hrunning, hstage⟩ := h
  unfold hasStopped at htold
  cases hd with
  | hears events hs hm hn hr =>
    rw [hs] at htold hstage
    refine ⟨hends, htold, hrunning, hstage.1, fun hall i hi m' hm' => ?_⟩
    obtain ⟨hbefore, hstate⟩ := hr hall
    rw [hn] at hi
    rcases Nat.lt_succ_iff_lt_or_eq.1 hi with hi | rfl
    · exact hstage.2 hbefore i hi m' hm'
    · cases hm.symm.trans hm'
      exact hstate
  | reports hs hn hr =>
    rw [hs] at htold hstage
    refine ⟨hends, htold, fun _ m hm => ?_, trivial⟩
    obtain ⟨i, hi, hget⟩ := List.mem_iff_getElem.1 hm
    exact hstage.2 hr i (Nat.lt_of_lt_of_le hi hn) m (List.getElem?_eq_some_iff.2 ⟨hi, hget⟩)
  | declines events hs =>
    rw [hs] at htold
    exact ⟨hends, htold, hrunning, trivial⟩
  | announces store journal hs hr =>
    rw [hs] at htold
    exact ⟨hends, htold, hrunning, trivial⟩
  | settles hs =>
    rw [hs] at htold
    exact ⟨hends, htold, hrunning, trivial⟩
  | retracts hs hr =>
    rcases hs with ⟨roll, hs⟩ | hs <;> rw [hs] at htold <;> exact ⟨hends, htold, nofun, rfl, hr⟩
  | clears store journal hs hr =>
    rw [hs] at htold hstage
    exact ⟨hends, htold, hrunning, hstage⟩
  | tells hs =>
    rw [hs] at hstage
    refine ⟨fun m hm => ?_, fun m hm => ?_, fun hready => ?_, hstage⟩
    · obtain ⟨before, hbefore, rfl⟩ := List.mem_map.1 hm
      exact hends before hbefore
    · obtain ⟨before, -, rfl⟩ := List.mem_map.1 hm
      rfl
    · exact absurd (hstage.1.symm.trans hready) nofun
  | finishes events hs hg =>
    rw [hs] at htold hstage
    exact ⟨hends, htold, hrunning, hstage.1, hstage.2, List.all_eq_true.1 hg⟩

theorem Sound.lives (h : s.Sound) (hm : s.members[i]? = some m) (hb : m.Becomes m') :
    ({ s with members := s.members.set i m', journal } : Supervisor).Sound := by
  have hmem : m ∈ s.members := List.mem_of_getElem? hm
  refine ⟨Member.forall_mem_set h.ends hm hb.endsInFailure,
    Member.forall_mem_set h.told hm hb.told.trans, fun hr => ?_, ?_⟩
  · have htold : m.controller.stopRequested = false := (h.told m hmem).trans (h.not_hasStopped hr)
    exact Member.forall_mem_set (h.running hr) hm fun hs => hb.running hs htold
  · have hstage := h.stage
    have htold := h.told m hmem
    unfold hasStopped at htold
    dsimp only
    split <;> rename_i hs <;> rw [hs] at hstage htold
    · refine ⟨hstage.1, fun hall j hj x hx => ?_⟩
      by_cases hij : i = j
      · subst hij
        rw [List.getElem?_set_self (List.getElem?_eq_some_iff.1 hm).1] at hx
        cases hx
        exact hb.running (hstage.2 hall i hj m hm) htold
      · rw [List.getElem?_set_ne hij] at hx
        exact hstage.2 hall j hj x hx
    · trivial
    · trivial
    · exact hstage
    · exact hstage
    · exact ⟨hstage.1, hstage.2.1, Member.forall_mem_set hstage.2.2 hm hb.isGone⟩
    · rw [hstage.2] at hmem
      cases hmem

theorem Sound.signal (h : s.Sound) : ({ s with signalled := true } : Supervisor).Sound := by
  refine ⟨h.ends, h.told, h.running, ?_⟩
  have hstage := h.stage
  dsimp only
  split <;> rename_i hs <;> rw [hs] at hstage
  · exact hstage
  · trivial
  · trivial
  · exact ⟨hstage.1, rfl⟩
  · exact ⟨hstage.1, rfl⟩
  · exact ⟨hstage.1, rfl, hstage.2.2⟩
  · exact hstage

theorem Runs.sound (h : Runs backend first s deeds) (hf : first.Sound) : s.Sound := by
  induction h with
  | start => exact hf
  | responds _ hr ih =>
    have hd : Does backend _ _ _ := does_of_respond? hr
    exact ih.does hd
  | speaks _ hs ih => exact ih.does (does_of_speak? hs)
  | signal _ ih => exact ih.signal
  | lives journal _ hm hb ih => exact ih.lives hm hb

/-! ## What a supervisor has done -/

/-- The flag has been cleared as far as the datastore lets one, and the members have been told to
stop. -/
structure Withdrawn (backend : Backend σ) (deeds : List (Deed σ)) : Prop where
  retracted : .retracted ∈ deeds
  cleared : (ReadyFlag.publish false).ComesTo backend (Deed.exchangesAbout false deeds) ()
  told : .toldToStop ∈ deeds

theorem Withdrawn.finishes (h : Withdrawn backend deeds) :
    Withdrawn backend (.finished :: deeds) where
  retracted := List.mem_cons_of_mem _ h.retracted
  cleared := by
    rw [Deed.exchangesAbout_cons]
    exact (List.append_nil _).symm ▸ h.cleared
  told := List.mem_cons_of_mem _ h.told

/-- What a supervisor of `n` members has done when it stands at a stage. -/
def Recalls (backend : Backend σ) (n : Nat) (deeds : List (Deed σ)) : Stage → Prop
  | .waiting roll =>
    deeds.length = roll.answered ∧ roll.answered ≤ n ∧ (roll.allRunning = true →
      ∀ i < roll.answered, ∃ gone, .heard i ⟨.running, gone⟩ ∈ deeds)
  | .announcing rest => ∃ k, rest.EndsWithin k ∧ deeds.length + k ≤ n + 5
  | .holding => deeds.length ≤ n + 6
  | .retracting rest =>
    .retracted ∈ deeds ∧
      (∀ exchanges, rest.ComesTo backend exchanges () → (ReadyFlag.publish false).ComesTo backend
        (Deed.exchangesAbout false deeds ++ exchanges) ()) ∧
      ∃ k, rest.EndsWithin k ∧ deeds.length + k ≤ n + 11
  | .draining => Withdrawn backend deeds
  | .finished => Withdrawn backend deeds ∧ .finished ∈ deeds
  | .refused _ => deeds = []

/-- How the deeds of a supervisor of `n` members fit to it. -/
structure Recounts (backend : Backend σ) (n : Nat) (s : Supervisor) (deeds : List (Deed σ)) :
    Prop where
  count : s.members.length = n
  inOrder : Deed.InOrder deeds s.stage.place
  ready : s.ready = true ↔ .concluded true ∈ deeds ∧ s.stage.place ≤ 2
  heard : .concluded true ∈ deeds → ∀ i < n, ∃ gone, .heard i ⟨.running, gone⟩ ∈ deeds
  ran : .concluded true ∈ deeds → ∀ m ∈ s.members, m.controller.Ran
  stage : Recalls backend n deeds s.stage

theorem recounts_start {settings : Settings} {now : Nat} :
    (start settings now).Recounts backend (Kind.ofList settings.controllers).length [] := by
  refine ⟨List.length_map _, ⟨.nil, nofun⟩, ?_, nofun, nofun, ?_⟩
  · exact ⟨nofun, fun hready => absurd hready.1 List.not_mem_nil⟩
  · rcases start_cases settings now with hs | ⟨reason, hs, -⟩ <;> rw [hs]
    · exact ⟨rfl, Nat.zero_le _, fun _ i hi => absurd hi (Nat.not_lt_zero i)⟩
    · rfl

/-- A deed other than to report ready leaves it at that whether the supervisor has done so. -/
theorem Recounts.goesOn (h : s.Recounts backend n deeds) (hne : deed ≠ .concluded true)
    (hcount : s'.members.length = s.members.length)
    (horder : s.stage.place < deed.place ∨ s.stage.place = deed.place ∧ deed.recurs = true)
    (hplace : deed.place ≤ s'.stage.place)
    (hready : s'.ready = true ↔ .concluded true ∈ deeds ∧ s'.stage.place ≤ 2)
    (hran : (∀ m ∈ s.members, m.controller.Ran) → ∀ m ∈ s'.members, m.controller.Ran)
    (hstage : Recalls backend n (deed :: deeds) s'.stage) :
    s'.Recounts backend n (deed :: deeds) := by
  have hmem : .concluded true ∈ deed :: deeds ↔ .concluded true ∈ deeds :=
    ⟨List.mem_of_ne_of_mem (Ne.symm hne), List.mem_cons_of_mem _⟩
  refine ⟨hcount.trans h.count, h.inOrder.cons horder hplace, ?_, ?_, ?_, hstage⟩
  · rw [hmem]
    exact hready
  · intro hconcluded i hi
    exact (h.heard (hmem.1 hconcluded) i hi).imp fun _ => List.mem_cons_of_mem _
  · exact fun hconcluded => hran (h.ran (hmem.1 hconcluded))

/-- A dialogue that is not over takes one of the steps that are left to it. -/
theorem exists_endsWithin_step {rest : Dialogue Unit} {k : Nat} (h : rest.EndsWithin k)
    (hr : rest ≠ .done ()) (journal : Journal) (store : σ) :
    ∃ j, (rest.step backend journal store).1.EndsWithin j ∧ k = j + 1 := by
  cases k with
  | zero =>
    obtain ⟨result, hdone⟩ := h.exists_eq_done
    exact absurd hdone hr
  | succ j => exact ⟨j, h.step backend journal store, rfl⟩

theorem Recounts.hears {roll roll' : RollCall} {events : List LogEvent}
    (h : s.Recounts backend n deeds) (hs : s.stage = .waiting roll)
    (hm : s.members[roll.answered]? = some m) (hn : roll'.answered = roll.answered + 1)
    (hr : roll'.allRunning = true → roll.allRunning = true ∧ m.controller.state = .running) :
    ({ s.reportAll events with stage := .waiting roll' } : Supervisor).Recounts backend n
      (.heard roll.answered m.showing :: deeds) := by
  have hstage := h.stage
  have hready := h.ready
  rw [hs] at hstage hready
  obtain ⟨hlength, -, hall⟩ := hstage
  have hlt : roll.answered < n := h.count ▸ (List.getElem?_eq_some_iff.1 hm).1
  refine h.goesOn nofun rfl (.inr ⟨congrArg Stage.place hs, rfl⟩) (Nat.le_refl 0) hready id ?_
  refine ⟨?_, hn ▸ hlt, fun hrunning i hi => ?_⟩
  · rw [List.length_cons, hlength, hn]
  · obtain ⟨hbefore, hstate⟩ := hr hrunning
    rw [hn] at hi
    rcases Nat.lt_succ_iff_lt_or_eq.1 hi with hi | rfl
    · exact (hall hbefore i hi).imp fun _ => List.mem_cons_of_mem _
    · refine ⟨m.controller.result.isSome, ?_⟩
      rw [← hstate]
      exact List.mem_cons_self

/-- Once every controller has answered that it runs, all of them run. -/
theorem Recounts.reports {roll : RollCall} (h : s.Recounts backend n deeds) (hsound : s.Sound)
    (hs : s.stage = .waiting roll) (hn : s.members.length ≤ roll.answered)
    (hr : roll.allRunning = true) :
    ({ s with ready := true, stage := .announcing (ReadyFlag.publish true) } : Supervisor).Recounts
      backend n (.concluded true :: deeds) := by
  have hstage := h.stage
  have horder := h.inOrder
  rw [hs] at hstage horder
  obtain ⟨hlength, hle, hall⟩ := hstage
  have hanswered : roll.answered = n := Nat.le_antisymm hle (h.count ▸ hn)
  refine ⟨h.count, horder.cons (.inl Nat.zero_lt_one) (Nat.le_succ 1), ?_, ?_, ?_, ?_⟩
  · exact ⟨fun _ => ⟨List.mem_cons_self, Nat.le_refl 2⟩, fun _ => rfl⟩
  · intro _ i hi
    exact (hall hr i (hanswered ▸ hi)).imp fun _ => List.mem_cons_of_mem _
  · intro _ m hm
    have hd : s.Does backend _ _ := .reports hs hn hr
    exact (hsound.ends m hm).ran ((hsound.does hd).running rfl m hm)
  · refine ⟨4, ReadyFlag.endsWithin_publish true, ?_⟩
    rw [List.length_cons]
    omega

theorem Recounts.retracts (h : s.Recounts backend n deeds)
    (hs : (∃ roll, s.stage = .waiting roll) ∨ s.stage = .holding) :
    s.retract.Recounts backend n (.retracted :: deeds) := by
  have hplace : s.stage.place ≤ 2 := by
    rcases hs with ⟨roll, hs⟩ | hs <;> rw [hs]
    · exact Nat.zero_le 2
    · exact Nat.le_refl 2
  have hlength : deeds.length ≤ n + 6 := by
    have hstage := h.stage
    rcases hs with ⟨roll, hs⟩ | hs <;> rw [hs] at hstage
    · rw [hstage.1]
      exact Nat.le_trans hstage.2.1 (Nat.le_add_right n 6)
    · exact hstage
  have hnone : Deed.exchangesAbout false deeds = [] :=
    Deed.exchangesAbout_false_eq_nil fun deed hmem =>
      Nat.le_trans (h.inOrder.place_le deed hmem) hplace
  refine h.goesOn nofun rfl (.inl (Nat.lt_succ_of_le hplace)) (Nat.le_succ 3) ?_ id ?_
  · exact ⟨nofun, fun hconcluded => absurd hconcluded.2 (show ¬ 4 ≤ 2 by decide)⟩
  · refine ⟨List.mem_cons_self, fun exchanges hcomes => ?_, 4, ?_, ?_⟩
    · rw [Deed.exchangesAbout_cons, hnone]
      exact hcomes
    · exact ReadyFlag.endsWithin_publish false
    · rw [List.length_cons]
      omega

/-- What the dialogue about the flag has come to is kept from step to step. -/
theorem Recounts.clears {rest : Dialogue Unit} (h : s.Recounts backend n deeds) (store : σ)
    (hs : s.stage = .retracting rest) (hr : rest ≠ .done ()) :
    ({ s with stage := .retracting (rest.step backend s.journal store).1, journal } :
      Supervisor).Recounts backend n (.spoke false (rest.exchange? store) :: deeds) := by
  have hstage := h.stage
  have hready := h.ready
  rw [hs] at hstage hready
  obtain ⟨hretracted, hcomes, k, hends, hlength⟩ := hstage
  obtain ⟨j, hnext, rfl⟩ := exists_endsWithin_step hends hr s.journal store
  refine h.goesOn nofun rfl (.inr ⟨congrArg Stage.place hs, rfl⟩) (Nat.le_refl 4) hready id ?_
  refine ⟨List.mem_cons_of_mem _ hretracted, fun exchanges hrest => ?_, j, hnext, ?_⟩
  · rw [Deed.exchangesAbout_cons, List.append_assoc]
    exact hcomes _ hrest.of_step
  · rw [List.length_cons]
    omega

theorem Recounts.tells (h : s.Recounts backend n deeds)
    (hs : s.stage = .retracting (.done ())) :
    ({ s with stage := .draining, members := s.members.map Member.requestStop } :
      Supervisor).Recounts backend n (.toldToStop :: deeds) := by
  have hstage := h.stage
  have hready := h.ready
  rw [hs] at hstage hready
  obtain ⟨hretracted, hcomes, -⟩ := hstage
  refine h.goesOn nofun (List.length_map _) (.inl ?_) (Nat.le_refl 5) ?_ (fun hran m hm => ?_) ?_
  · rw [hs]
    exact Nat.lt_succ_self 4
  · exact hready.trans (and_congr_right' (iff_of_false (show ¬ 4 ≤ 2 by decide)
      (show ¬ 5 ≤ 2 by decide)))
  · obtain ⟨before, hbefore, rfl⟩ := List.mem_map.1 hm
    exact (hran before hbefore).congr rfl
  · refine ⟨List.mem_cons_of_mem _ hretracted, ?_, List.mem_cons_self⟩
    rw [Deed.exchangesAbout_cons]
    exact hcomes [] ⟨rfl, rfl⟩

theorem Recounts.does (h : s.Recounts backend n deeds) (hsound : s.Sound)
    (hd : s.Does backend deed s') : s'.Recounts backend n (deed :: deeds) := by
  have hstage := h.stage
  have hready := h.ready
  cases hd with
  | hears events hs hm hn hr => exact h.hears hs hm hn hr
  | reports hs hn hr => exact h.reports hsound hs hn hr
  | retracts hs hr => exact h.retracts hs
  | clears store journal hs hr => exact h.clears store hs hr
  | tells hs => exact h.tells hs
  | declines events hs =>
    rw [hs] at hstage hready
    obtain ⟨hlength, hle, -⟩ := hstage
    refine h.goesOn nofun rfl (.inl ?_) (Nat.le_succ 1) ?_ id ?_
    · rw [hs]
      exact Nat.zero_lt_one
    · exact hready.trans (and_congr_right' (iff_of_true (Nat.zero_le 2) (Nat.le_refl 2)))
    · show (_ :: deeds).length ≤ n + 6
      rw [List.length_cons, hlength]
      omega
  | announces store journal hs hr =>
    rw [hs] at hstage hready
    obtain ⟨k, hends, hlength⟩ := hstage
    obtain ⟨j, hnext, rfl⟩ := exists_endsWithin_step hends hr s.journal store
    refine h.goesOn nofun rfl (.inr ⟨congrArg Stage.place hs, rfl⟩) (Nat.le_refl 2) hready id ?_
    refine ⟨j, hnext, ?_⟩
    rw [List.length_cons]
    omega
  | settles hs =>
    rw [hs] at hstage hready
    obtain ⟨k, -, hlength⟩ := hstage
    refine h.goesOn nofun rfl (.inr ⟨congrArg Stage.place hs, rfl⟩) (Nat.le_refl 2) hready id ?_
    show (_ :: deeds).length ≤ n + 6
    rw [List.length_cons]
    omega
  | finishes events hs hg =>
    rw [hs] at hstage hready
    refine h.goesOn nofun rfl (.inl ?_) (Nat.le_refl 6) ?_ id ⟨hstage.finishes, List.mem_cons_self⟩
    · rw [hs]
      exact Nat.lt_succ_self 5
    · exact hready.trans (and_congr_right' (iff_of_false (show ¬ 5 ≤ 2 by decide)
        (show ¬ 6 ≤ 2 by decide)))

theorem Recounts.signal (h : s.Recounts backend n deeds) :
    ({ s with signalled := true } : Supervisor).Recounts backend n deeds :=
  ⟨h.count, h.inOrder, h.ready, h.heard, h.ran, h.stage⟩

theorem Recounts.lives (h : s.Recounts backend n deeds) (hm : s.members[i]? = some m)
    (hb : m.Becomes m') :
    ({ s with members := s.members.set i m', journal } : Supervisor).Recounts backend n deeds where
  count := List.length_set.trans h.count
  inOrder := h.inOrder
  ready := h.ready
  heard := h.heard
  ran hconcluded := Member.forall_mem_set (h.ran hconcluded) hm hb.ran
  stage := h.stage

theorem Runs.recounts {settings : Settings} {now : Nat}
    (h : Runs backend (Supervisor.start settings now) s deeds) :
    s.Recounts backend (Kind.ofList settings.controllers).length deeds := by
  induction h with
  | start => exact recounts_start
  | responds h hr ih => exact ih.does (h.sound sound_start) (does_of_respond? hr)
  | speaks h hs ih => exact ih.does (h.sound sound_start) (does_of_speak? hs)
  | signal _ ih => exact ih.signal
  | lives journal _ hm hb ih => exact ih.lives hm hb

end Supervisor

end ClusterSync

import ClusterSync.Proofs.Supervisor.Deeds

/-!
# When a supervisor is ready

**Theorem (`Runs.orderly`).** A supervisor reports ready at most once, after it has heard of every
controller that it runs, and never if one of them fails to start. It takes that back, and then the
flag, before it tells its members to stop, and it has finished only when all of them are gone.

**Theorem (`Office.Reaches.exists_runs`).** The supervisor of every office goes on in this way.
-/

namespace ClusterSync

variable {σ : Type}

/-! ## Writing the flag -/

namespace ReadyFlag

/-- The exchanges by which a value of the flag is written as far as the datastore lets one: its path
is read and, unless that fails, the value is put provided that the path is still as it was found. -/
inductive Tried (backend : Backend σ) (text : String) : List (Exchange σ) → Prop
  | unread {store : σ} {e : StoreError} (h : (backend.read "/nimbess/ready" store).1 = .error e) :
      Tried backend text [.read "/nimbess/ready" store]
  | put {store store' : σ} {found? : Option Stored}
      (h : (backend.read "/nimbess/ready" store).1 = .ok found?) :
      Tried backend text [.read "/nimbess/ready" store,
        .commit ⟨⟨"/nimbess/ready", .equal, found?.elim 0 (·.revision)⟩,
          [.put "/nimbess/ready" text.toUTF8 none], []⟩ store']

variable {backend : Backend σ} {exchanges : List (Exchange σ)}

theorem unchangedSince_eq (path : String) (expected : Revision) :
    Pair.unchangedSince path expected = ⟨path, .equal, expected⟩ := by
  unfold Pair.unchangedSince
  split
  · rename_i hzero
    rw [hzero]
    rfl
  · rfl

theorem comesTo_acknowledge_iff (result : Except StoreError Revision)
    (exchanges : List (Exchange σ)) :
    (acknowledge result).ComesTo backend exchanges () ↔ exchanges = [] := by
  cases result <;> simp [acknowledge, Dialogue.ComesTo]

/-- A conditional put is one exchange, and no other follows from its result. -/
theorem comesTo_overwrite_iff {path : String} {bytes : Text.Bytes} {expected : Revision} :
    ((Pair.overwrite path bytes none expected).bind acknowledge).ComesTo backend exchanges () ↔
      ∃ store,
        exchanges = [.commit ⟨⟨path, .equal, expected⟩, [.put path bytes none], []⟩ store] := by
  simp only [Pair.overwrite, Pair.putIf, unchangedSince_eq, Dialogue.bind, Dialogue.finish,
    Dialogue.ComesTo, comesTo_acknowledge_iff]
  constructor
  · rintro ⟨store, _, rfl, rfl⟩
    exact ⟨store, rfl⟩
  · rintro ⟨store, rfl⟩
    exact ⟨store, [], rfl, rfl⟩

theorem comesTo_publish_iff {ready : Bool} : (publish ready).ComesTo backend exchanges () ↔
    Tried backend (if ready then "true" else "false") exchanges := by
  have hpath : Key.readyPath = "/nimbess/ready" := by decide
  have hencoded : (pair ready).encoded =
      .done (.ok ("/nimbess/ready", (if ready then "true" else "false").toUTF8)) := by
    rw [← hpath]
    rfl
  have hrevision : (pair ready).revision = none := rfl
  have httl : (pair ready).ttl = none := rfl
  unfold publish Pair.update
  rw [hencoded, hrevision, httl]
  constructor
  · rintro ⟨store, rest, rfl, h⟩
    cases hread : (backend.read "/nimbess/ready" store).1 with
    | error e =>
      rw [hread] at h
      change (acknowledge (.error e)).ComesTo backend rest () at h
      obtain rfl := (comesTo_acknowledge_iff (.error e) rest).1 h
      exact .unread hread
    | ok found? =>
      rw [hread] at h
      cases found? with
      | none =>
        obtain ⟨store', rfl⟩ := comesTo_overwrite_iff.1 h
        exact .put hread
      | some stored =>
        obtain ⟨store', rfl⟩ := comesTo_overwrite_iff.1 h
        exact .put hread
  · intro h
    cases h with
    | @unread store e hread =>
      refine ⟨store, [], rfl, ?_⟩
      rw [hread]
      change (acknowledge (.error e)).ComesTo backend [] ()
      rw [comesTo_acknowledge_iff]
    | @put store store' found? hread =>
      refine ⟨store, _, rfl, ?_⟩
      rw [hread]
      cases found? <;> exact comesTo_overwrite_iff.2 ⟨store', rfl⟩

end ReadyFlag

namespace Supervisor

variable {s s' first : Supervisor} {backend : Backend σ} {deed : Deed σ} {deeds : List (Deed σ)}
  {m m' : Member} {n : Nat}

/-! ## Failures to start -/

theorem members_does (h : s.Does backend deed s') :
    s'.members = s.members ∨ s'.members = s.members.map Member.requestStop := by
  cases h with
  | tells => exact .inr rfl
  | hears | reports | declines | announces | settles | retracts | clears | finishes =>
    exact .inl rfl

theorem exists_failsToStart_of_does (h : s.Does backend deed s')
    (hf : ∃ m ∈ s.members, m.FailsToStart) : ∃ m ∈ s'.members, m.FailsToStart := by
  obtain ⟨m, hm, hf⟩ := hf
  rcases members_does h with heq | heq <;> rw [heq]
  · exact ⟨m, hm, hf⟩
  · exact ⟨m.requestStop, List.mem_map_of_mem hm, hf⟩

/-- A controller that has failed to start has failed for good. -/
theorem Runs.exists_failsToStart (h : Runs backend first s deeds)
    (hf : ∃ m ∈ first.members, m.FailsToStart) : ∃ m ∈ s.members, m.FailsToStart := by
  induction h with
  | start => exact hf
  | responds _ hr ih =>
    have hd : Does backend _ _ _ := does_of_respond? hr
    exact exists_failsToStart_of_does hd ih
  | speaks _ hs ih => exact exists_failsToStart_of_does (does_of_speak? hs) ih
  | signal _ ih => exact ih
  | @lives s deeds i m m' journal _ hm hb ih =>
    obtain ⟨x, hx, hfails⟩ := ih
    obtain ⟨j, hj⟩ := List.getElem?_of_mem hx
    by_cases hij : i = j
    · subst hij
      cases hm.symm.trans hj
      exact ⟨m', List.mem_set (List.getElem?_eq_some_iff.1 hm).1 m', hb.failsToStart hfails⟩
    · exact ⟨x, List.mem_of_getElem? ((List.getElem?_set_ne hij).trans hj), hfails⟩

/-! ## The order of things -/

/-- The supervisor can take a step by itself, whatever the datastore is. -/
def CanGoOn (backend : Backend σ) (s : Supervisor) : Prop :=
  (∃ stimulus s', s.respond? stimulus = some s') ∨
    ∀ store, ∃ s' store', s.speak? backend store = some (s', store')

/-- What holds of a supervisor of `n` members that has done the deeds. -/
structure Orderly (backend : Backend σ) (n : Nat) (s : Supervisor) (deeds : List (Deed σ)) :
    Prop where
  count : s.members.length = n
  /-- The deeds are done in their order, and once if they do not recur. -/
  pairwise : deeds.Pairwise fun later earlier => earlier.MayPrecede later
  /-- It is ready from the moment it reports so to the moment it takes that back. -/
  ready : s.ready = true ↔ .concluded true ∈ deeds ∧ .retracted ∉ deeds
  /-- By the time it has reported ready it has heard of every controller that it runs. -/
  heard : .concluded true ∈ deeds → ∀ i < n, ∃ gone, .heard i ⟨.running, gone⟩ ∈ deeds
  /-- As long as it is ready, every controller runs. -/
  running : s.ready = true → ∀ m ∈ s.members, m.controller.state = .running
  /-- If a controller fails to start, it has never reported ready and never will. -/
  never : ∀ m ∈ s.members, m.FailsToStart → ∀ s' later, Runs backend s s' later →
    s'.ready = false ∧ .concluded true ∉ later ++ deeds
  signalled : .retracted ∈ deeds → s.signalled = true
  /-- The members know that they are to stop once they have been told so. -/
  told : ∀ m ∈ s.members, m.controller.stopRequested = true ↔ .toldToStop ∈ deeds
  /-- By then readiness has been taken back, and clearing the flag has been tried to the end. -/
  withdrawn : .toldToStop ∈ deeds → .retracted ∈ deeds ∧
    ReadyFlag.Tried backend "false" (Deed.exchangesAbout false deeds)
  finished : s.stage = .finished ↔ .finished ∈ deeds
  /-- When it has finished, it has told its members to stop and all of them are gone. -/
  gone : .finished ∈ deeds → .toldToStop ∈ deeds ∧ ∀ m ∈ s.members, m.isGone = true
  /-- After the signal nothing keeps it from going on until it has told its members to stop. -/
  goesOn : 0 < n → s.signalled = true → .toldToStop ∉ deeds → s.CanGoOn backend
  /-- It cannot have gone on for so long without that. -/
  tells : n + 12 ≤ deeds.length → .toldToStop ∈ deeds

theorem hasStopped_iff : s.hasStopped = true ↔ 5 ≤ s.stage.place := by
  unfold hasStopped
  cases s.stage <;> simp [Stage.place]

theorem Recounts.withdrawn (h : s.Recounts backend n deeds) (hs : s.hasStopped = true) :
    Withdrawn backend deeds := by
  have hstage := h.stage
  unfold hasStopped at hs
  split at hs
  · rename_i hstop
    rw [hstop] at hstage
    exact hstage
  · rename_i hstop
    rw [hstop] at hstage
    exact hstage.1
  · cases hs

theorem Recounts.told_iff (h : s.Recounts backend n deeds) :
    .toldToStop ∈ deeds ↔ s.hasStopped = true :=
  ⟨fun hmem => hasStopped_iff.2 (h.inOrder.place_le _ hmem), fun hs => (h.withdrawn hs).told⟩

theorem Recounts.retracted_iff (h : s.Recounts backend n deeds) :
    .retracted ∈ deeds ↔ 2 < s.stage.place := by
  refine ⟨h.inOrder.place_le _, fun hplace => ?_⟩
  have hstage := h.stage
  cases hs : s.stage with
  | waiting | announcing | holding | refused => simp [hs, Stage.place] at hplace
  | retracting rest =>
    rw [hs] at hstage
    exact hstage.1
  | draining =>
    rw [hs] at hstage
    exact hstage.retracted
  | finished =>
    rw [hs] at hstage
    exact hstage.1.retracted

theorem Recounts.finished_iff (h : s.Recounts backend n deeds) :
    s.stage = .finished ↔ .finished ∈ deeds := by
  refine ⟨fun hs => ?_, fun hmem => ?_⟩
  · have hstage := h.stage
    rw [hs] at hstage
    exact hstage.2
  · have hplace : 6 ≤ s.stage.place := h.inOrder.place_le _ hmem
    cases hs : s.stage with
    | finished => rfl
    | waiting | announcing | holding | retracting | draining | refused =>
      simp [hs, Stage.place] at hplace

theorem Sound.signalled (h : s.Sound) (hplace : 2 < s.stage.place) : s.signalled = true := by
  have hstage := h.stage
  cases hs : s.stage with
  | waiting | announcing | holding | refused => simp [hs, Stage.place] at hplace
  | retracting | draining =>
    rw [hs] at hstage
    exact hstage.2
  | finished =>
    rw [hs] at hstage
    exact hstage.2.1

theorem Recounts.length_le (h : s.Recounts backend n deeds) (hs : s.hasStopped = false) :
    deeds.length ≤ n + 11 := by
  have hstage := h.stage
  cases heq : s.stage with
  | waiting roll =>
    rw [heq] at hstage
    exact hstage.1 ▸ Nat.le_trans hstage.2.1 (Nat.le_add_right n 11)
  | announcing rest =>
    rw [heq] at hstage
    obtain ⟨k, -, hlength⟩ := hstage
    omega
  | holding =>
    rw [heq] at hstage
    exact Nat.le_trans hstage (Nat.add_le_add_left (by decide) n)
  | retracting rest =>
    rw [heq] at hstage
    obtain ⟨-, -, k, -, hlength⟩ := hstage
    omega
  | draining | finished => simp [hasStopped, heq] at hs
  | refused reason =>
    rw [heq] at hstage
    rw [show deeds = [] from hstage]
    exact Nat.zero_le _

/-- A supervisor that has been told to stop can always go on to tell its members so. -/
theorem canGoOn_of_signalled (backend : Backend σ) (h : s.Sound) (hm : s.members ≠ [])
    (hr : s.signalled = true) (hs : s.hasStopped = false) : s.CanGoOn backend := by
  have hstage := h.stage
  cases heq : s.stage with
  | waiting roll =>
    refine .inl ⟨.signal, s.retract, ?_⟩
    simp [respond?, heq, hr]
  | holding =>
    refine .inl ⟨.signal, s.retract, ?_⟩
    simp [respond?, heq, hr]
  | announcing rest =>
    refine .inr fun store => ?_
    cases rest <;> simp [speak?, heq]
  | retracting rest =>
    refine .inr fun store => ?_
    cases rest <;> simp [speak?, heq]
  | draining | finished => simp [hasStopped, heq] at hs
  | refused reason =>
    rw [heq] at hstage
    exact absurd hstage.2 hm

theorem Runs.orderly {settings : Settings} {now : Nat}
    (h : Runs backend (Supervisor.start settings now) s deeds) :
    s.Orderly backend (Kind.ofList settings.controllers).length deeds := by
  have hsound := h.sound sound_start
  have hrec := h.recounts
  refine ⟨hrec.count, hrec.inOrder.pairwise, ?_, hrec.heard, hsound.running, ?_, ?_, ?_, ?_,
    hrec.finished_iff, ?_, ?_, ?_⟩
  · rw [hrec.retracted_iff, Nat.not_lt]
    exact hrec.ready
  · intro m hm hf s' later h'
    have hrec' := (h.trans h').recounts
    obtain ⟨m', hm', hf'⟩ := h'.exists_failsToStart ⟨m, hm, hf⟩
    have hnever : .concluded true ∉ later ++ deeds := fun hconcluded =>
      Member.not_failsToStart_of_ran (hrec'.ran hconcluded m' hm') hf'
    refine ⟨?_, hnever⟩
    rw [← Bool.not_eq_true, hrec'.ready]
    exact fun hready => hnever hready.1
  · exact fun hmem => hsound.signalled (hrec.retracted_iff.1 hmem)
  · intro m hm
    rw [hsound.told m hm, hrec.told_iff]
  · intro hmem
    have hdone := hrec.withdrawn (hrec.told_iff.1 hmem)
    exact ⟨hdone.retracted, ReadyFlag.comesTo_publish_iff.1 hdone.cleared⟩
  · intro hmem
    have hs : s.stage = .finished := hrec.finished_iff.2 hmem
    have hstage := hsound.stage
    have hpast := hrec.stage
    rw [hs] at hstage hpast
    exact ⟨hpast.1.told, hstage.2.2⟩
  · intro hn hr hmem
    rw [hrec.told_iff, Bool.not_eq_true] at hmem
    refine canGoOn_of_signalled backend hsound ?_ hr hmem
    rw [← List.length_pos_iff, hrec.count]
    exact hn
  · intro hlength
    rw [hrec.told_iff]
    cases hs : s.hasStopped with
    | true => rfl
    | false =>
      have hle := hrec.length_le hs
      omega

end Supervisor

/-! ## Supervisors of offices -/

namespace Shift

variable {s s' : Shift σ} {backend : Backend σ} {mv : Move} {r : Option Incident}

/-- A controller that is gone has failed or stopped. -/
def Ended (s : Shift σ) : Prop :=
  s.controller.result.isSome = true →
    s.controller.state = .failed ∨ s.controller.state = .stopped

theorem Ended.result_eq_none {state : ControllerState} (h : s.Ended)
    (hs : s.controller.state = state) (hfailed : state ≠ .failed) (hstopped : state ≠ .stopped) :
    s.controller.result = none := by
  subst hs
  cases hr : s.controller.result with
  | none => rfl
  | some result => exact absurd (h (hr ▸ rfl)) (not_or_intro hfailed hstopped)

theorem ended_of_result_eq_none (h : s.controller.result = none) : s.Ended := by
  intro hgone
  rw [h] at hgone
  cases hgone

theorem preserves_ended (w : Outside) : w.Preserves backend Ended where
  place _ _ h := h
  move {s s' m r} h _ hm := by
    cases hm with
    | told | takesIn | hands | adds | abandons | fires | waits => exact h
    | works hw =>
      intro hgone
      rw [Controller.state_congr hw.keeps.states]
      exact h (hw.keeps.result ▸ hgone)
    | starts hs =>
      have hnone := h.result_eq_none hs nofun nofun
      exact ended_of_result_eq_none hnone
    | responds hr =>
      cases hr with
      | starts hs =>
        have hnone := h.result_eq_none hs nofun nofun
        exact ended_of_result_eq_none hnone
      | fails e hs => exact fun _ => .inl rfl
      | drains hs =>
        have hnone := h.result_eq_none hs nofun nofun
        exact ended_of_result_eq_none hnone
      | reports => exact h
      | stops hs => exact fun _ => .inr rfl

/-- A controller goes on as one member of a supervisor may. -/
theorem Moves.becomes {m : Member} {now : Nat} {store : σ} {owed : List WorkItem}
    {stages : Nat → RetryStage}
    (h : (⟨m.controller, store, now, owed, stages⟩ : Shift σ).Moves backend mv r s')
    (he : (⟨m.controller, store, now, owed, stages⟩ : Shift σ).Ended) (hm : mv ≠ .tellToStop) :
    m.Becomes { m with controller := s'.controller } := by
  cases h with
  | told => exact absurd rfl hm
  | takesIn | hands | adds | abandons | fires | waits => exact ⟨.inl rfl, rfl, id, id⟩
  | works hw =>
    have htold : s'.controller.stopRequested = m.controller.stopRequested := by
      cases hw <;> rfl
    exact ⟨.inl hw.keeps.states, htold, fun hgone => hw.keeps.result ▸ hgone, id⟩
  | starts hs =>
    have hnone := he.result_eq_none hs nofun nofun
    exact ⟨.inr ⟨hnone, .syncing, hs ▸ .syncs, rfl, nofun⟩, rfl, id, id⟩
  | responds hr =>
    cases hr with
    | starts hs =>
      have hnone := he.result_eq_none hs nofun nofun
      exact ⟨.inr ⟨hnone, .running, hs ▸ .runs, rfl, nofun⟩, rfl, id, id⟩
    | fails e hs =>
      have hnone := he.result_eq_none hs nofun nofun
      exact ⟨.inr ⟨hnone, .failed, hs ▸ .fails, rfl, nofun⟩, rfl, fun _ => rfl, id⟩
    | drains hs hr =>
      have hnone := he.result_eq_none hs nofun nofun
      exact ⟨.inr ⟨hnone, .draining, hs ▸ .drains, rfl, fun _ => hr⟩, rfl, id, id⟩
    | reports => exact ⟨.inl rfl, rfl, id, id⟩
    | stops hs hg =>
      have hnone := he.result_eq_none hs nofun nofun
      exact ⟨.inr ⟨hnone, .stopped, hs ▸ .stops, rfl, nofun⟩, rfl, fun _ => rfl, id⟩

end Shift

namespace Office

open Supervisor (Runs)

variable {o o' : Office σ} {backend : Backend σ} {w : Outside} {i : Nat}

theorem runs_putBack {s s' : Shift σ} {mv : Shift.Move} {r : Option Incident}
    (hs : o.shift? i = some s) (he : s.Ended) (hm : s.move? backend mv = some (r, s'))
    (hne : mv ≠ .tellToStop) : Runs backend o.supervisor (o.putBack i s').supervisor [] := by
  obtain ⟨m, hget, rfl⟩ := exists_member hs
  have hb := (Shift.moves_of_move? hm).becomes he hne
  show Runs backend o.supervisor (o.supervisor.setController i s'.controller) []
  unfold Supervisor.setController
  rw [hget]
  exact Runs.start.lives _ hget hb

theorem runs_loseWatch {supervisor : Supervisor} {m : Member} {watch : WatchState}
    (hm : supervisor.members[i]? = some m) (hw : watch ≠ .running) :
    Runs backend supervisor
      { supervisor with members := supervisor.members.set i (m.loseWatch watch) } [] :=
  Runs.start.lives supervisor.journal hm ⟨.inl rfl, rfl, id, fun _ => hw⟩

theorem Steps.exists_runs (h : o.Steps backend w o')
    (he : ∀ i s, o.shift? i = some s → s.Ended) :
    ∃ deeds, Runs backend o.supervisor o'.supervisor deeds := by
  cases h with
  | responds hr => exact ⟨_, Runs.start.responds hr⟩
  | speaks hs => exact ⟨_, Runs.start.speaks hs⟩
  | signal => exact ⟨[], Runs.start.signal⟩
  | commits | waits => exact ⟨[], .start⟩
  | serves hi hs hm =>
    refine ⟨[], runs_putBack hs (he _ _ hs) hm ?_⟩
    rintro rfl
    exact hi
  | hears _ _ _ hs hm => exact ⟨[], runs_putBack hs (he _ _ hs) hm nofun⟩
  | chokes hm => exact ⟨[], runs_loseWatch hm nofun⟩
  | leaves _ hl =>
    obtain ⟨m, hm, rfl⟩ := exists_member_of_endWatch? hl
    exact ⟨[], runs_loseWatch hm nofun⟩

theorem Reaches.exists_runs {settings : Settings} {now : Nat} {store : σ}
    (h : Reaches backend w (opening settings now store) o) :
    ∃ deeds, Runs backend (.start settings now) o.supervisor deeds := by
  have hopening : ∀ i s, (opening settings now store).shift? i = some s → s.Ended := by
    intro i s hs
    obtain ⟨kind, rfl⟩ := exists_kind_of_opening hs
    exact Shift.ended_of_result_eq_none rfl
  induction h with
  | start => exact ⟨[], .start⟩
  | step hreach hs ih =>
    obtain ⟨deeds, hruns⟩ := ih
    obtain ⟨later, hnext⟩ := hs.exists_runs (hreach.shift (Shift.preserves_ended w) hopening)
    exact ⟨later ++ deeds, hruns.trans hnext⟩

section Example

/-- The workers leave, and then the controller stops. -/
def leavingActs : List Act :=
  [.serve 0 (.respond .stopRequest), .serve 0 (.work 0), .serve 0 (.respond .workers)]

theorem ready_hasty : (after? readyActs).map (·.supervisor.ready) = some true := by
  decide +kernel

theorem leaves_hasty : ((after? (readyActs ++ closingActs ++ leavingActs)).bind fun o =>
    (o.supervisor.endWatch? 0).bind fun supervisor =>
      (supervisor.respond? .members).map fun _ => (o.owed 0).isEmpty) = some true := by
  decide +kernel

theorem orderly_hasty : ∃ s s' deeds deeds',
    Runs Table.backend (.start hasty 0) s deeds ∧ Runs Table.backend (.start hasty 0) s' deeds' ∧
    s.ready = true ∧ (∃ gone, .heard 0 ⟨.running, gone⟩ ∈ deeds) ∧
    s'.stage = .finished ∧ (∀ m ∈ s'.members, m.isGone = true) ∧
    ReadyFlag.Tried Table.backend "false" (Deed.exchangesAbout false deeds') := by
  obtain ⟨o, ho, hready⟩ := Option.map_eq_some_iff.1 ready_hasty
  obtain ⟨o', ho', hleaves⟩ := Option.bind_eq_some_iff.1 leaves_hasty
  obtain ⟨last, hlast, hends⟩ := Option.bind_eq_some_iff.1 hleaves
  obtain ⟨s', hs', howed⟩ := Option.map_eq_some_iff.1 hends
  have hreaches : Reaches Table.backend alone (opening hasty 0 abandoned) o :=
    Reaches.start.acts ho (by decide)
  have hreaches' : Reaches Table.backend alone (opening hasty 0 abandoned) o' :=
    Reaches.start.acts ho' (by decide)
  obtain ⟨deeds, hruns⟩ := hreaches.exists_runs
  obtain ⟨deeds', hruns'⟩ :=
    (hreaches'.step (.leaves (List.isEmpty_iff.1 howed) hlast)).exists_runs
  have hfinal := hruns'.responds hs'
  have horderly := hruns.orderly
  have horderly' := hfinal.orderly
  have hmem : .finished ∈ last.response .members :: deeds' := List.mem_cons_self
  have hgone := horderly'.gone hmem
  have hconcluded := (horderly.ready.1 hready).1
  have hcount : 0 < (Kind.ofList hasty.controllers).length := by decide +kernel
  exact ⟨_, _, _, _, hruns, hfinal, hready, horderly.heard hconcluded 0 hcount,
    horderly'.finished.2 hmem, hgone.2, (horderly'.withdrawn hgone.1).2⟩

end Example

end Office

end ClusterSync

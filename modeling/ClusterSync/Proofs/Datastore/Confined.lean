import ClusterSync.Proofs.Datastore.Table
import ClusterSync.Proofs.Telemetry.Metrics

/-!
# What a dialogue names

Each conditional write and each read is about the path of one key. `Dialogue.KeepsTo` says that a
dialogue, whatever it is answered, makes calls about paths of a certain kind only, and counts
nothing but its calls.

**Theorem (`KeepsTo.getElem?_step`).** A step of such a dialogue on a table leaves all other paths
alone.

**Theorem (`Pair.prevails_update`).** If nobody else touches its path, the transaction of an update
finds the path as the update has seen it.
-/

namespace ClusterSync

open Text

/-! ## Transactions -/

/-- The path that an action writes. -/
def Action.written? : Action → Option String
  | .put path _ _ | .delete path => some path
  | .get _ => none

/-- A transaction that writes none of certain paths, whether its comparison holds or not. -/
def Transaction.Spares (x : Transaction) (P : String → Prop) : Prop :=
  ∀ a ∈ x.success ++ x.failure, ∀ path, a.written? = some path → ¬ P path

/-- A transaction that names only paths of a kind. -/
def Transaction.KeepsTo (x : Transaction) (P : String → Prop) : Prop :=
  P x.comparison.path ∧ ∀ a ∈ x.success ++ x.failure, P a.path

/-- An action that writes nothing but certain bytes. -/
def Action.PutsOnly (bytes : Bytes) : Action → Prop
  | .put _ value _ => value = bytes
  | .delete _ => False
  | .get _ => True

/-- A transaction that writes nothing but certain bytes. -/
def Transaction.PutsOnly (x : Transaction) (bytes : Bytes) : Prop :=
  ∀ a ∈ x.success ++ x.failure, a.PutsOnly bytes

namespace Table

variable {t : Table} {path : String} {P : String → Prop}

theorem getElem?_act_of_not_written {a : Action} (h : a.written? ≠ some path) :
    (t.act a).1.entries[path]? = t.entries[path]? := by
  cases a with
  | put other value ttl => exact getElem?_act_of_ne fun heq => h (congrArg some heq)
  | delete other => exact getElem?_act_of_ne fun heq => h (congrArg some heq)
  | get other => rfl

theorem getElem?_acts_of_not_written {actions : List Action}
    (h : ∀ a ∈ actions, a.written? ≠ some path) :
    (t.acts actions).1.entries[path]? = t.entries[path]? := by
  induction actions generalizing t with
  | nil => rfl
  | cons a rest ih =>
    have hrest := ih (t := (t.act a).1) fun b hb => h b (List.mem_cons_of_mem _ hb)
    exact hrest.trans (getElem?_act_of_not_written (h a List.mem_cons_self))

theorem mem_of_mem_branch {x : Transaction} {a : Action} (h : a ∈ t.branch x) :
    a ∈ x.success ++ x.failure := by
  unfold branch at h
  split at h
  · exact List.mem_append_left _ h
  · exact List.mem_append_right _ h

theorem getElem?_commit_of_spares {x : Transaction} (h : x.Spares P) (hp : P path) :
    (t.commit x).2.entries[path]? = t.entries[path]? := by
  refine getElem?_acts_of_not_written fun a ha hw => ?_
  exact h a (mem_of_mem_branch ha) path hw hp

/-- A path holds what it held before, or the bytes that are put. -/
theorem getElem?_acts_of_putsOnly {actions : List Action} {bytes : Bytes}
    (h : ∀ a ∈ actions, a.PutsOnly bytes) :
    (t.acts actions).1.entries[path]? = t.entries[path]? ∨
      ∃ e, (t.acts actions).1.entries[path]? = some e ∧ e.value = bytes := by
  induction actions generalizing t with
  | nil => exact .inl rfl
  | cons a rest ih =>
    rcases ih (t := (t.act a).1) fun b hb => h b (List.mem_cons_of_mem _ hb) with hsame | hput
    · have hact := h a List.mem_cons_self
      cases a with
      | delete => exact hact.elim
      | get => exact .inl hsame
      | put other value ttl =>
        by_cases hp : other = path
        · subst hp
          exact .inr ⟨_, hsame.trans Std.ExtTreeMap.getElem?_insert_self, hact⟩
        · exact .inl (hsame.trans (getElem?_act_of_ne hp))
    · exact .inr hput

theorem getElem?_commit_of_putsOnly {x : Transaction} {bytes : Bytes} (h : x.PutsOnly bytes) :
    (t.commit x).2.entries[path]? = t.entries[path]? ∨
      ∃ e, (t.commit x).2.entries[path]? = some e ∧ e.value = bytes :=
  getElem?_acts_of_putsOnly fun a ha => h a (mem_of_mem_branch ha)

end Table

theorem Transaction.KeepsTo.spares {x : Transaction} {P : String → Prop} (h : x.KeepsTo P) :
    x.Spares fun path => ¬ P path := by
  intro a ha path hw hp
  have hpath := h.2 a ha
  cases a with
  | put | delete =>
    cases hw
    exact hp hpath
  | get => cases hw

/-! ## Dialogues -/

namespace Dialogue

variable {α β : Type} {σ : Type} {P Q : String → Prop} {path : String}

/-- All calls of the dialogue name only paths of a kind, and all that it counts are calls. -/
def KeepsTo (P : String → Prop) : Dialogue α → Prop
  | .done _ => True
  | .commit x next => x.KeepsTo P ∧ ∀ reply, (next reply).KeepsTo P
  | .read asked next => P asked ∧ ∀ reply, (next reply).KeepsTo P
  | .log _ next => next.KeepsTo P
  | .count sample next =>
    (∃ operation outcome, sample = .storeOperations operation outcome) ∧ next.KeepsTo P

theorem KeepsTo.mono {p : Dialogue α} (h : p.KeepsTo P) (hpq : ∀ path, P path → Q path) :
    p.KeepsTo Q := by
  induction p with
  | done a => trivial
  | commit x next ih =>
    obtain ⟨⟨hc, ha⟩, hnext⟩ := h
    exact ⟨⟨hpq _ hc, fun a hm => hpq _ (ha a hm)⟩, fun reply => ih reply (hnext reply)⟩
  | read asked next ih => exact ⟨hpq _ h.1, fun reply => ih reply (h.2 reply)⟩
  | log event next ih => exact ih h
  | count sample next ih => exact ⟨h.1, ih h.2⟩

theorem KeepsTo.bind {p : Dialogue α} {f : α → Dialogue β} (h : p.KeepsTo P)
    (hf : ∀ a, (f a).KeepsTo P) : (p.bind f).KeepsTo P := by
  induction p with
  | done a => exact hf a
  | commit x next ih => exact ⟨h.1, fun reply => ih reply (h.2 reply)⟩
  | read asked next ih => exact ⟨h.1, fun reply => ih reply (h.2 reply)⟩
  | log event next ih => exact ih h
  | count sample next ih => exact ⟨h.1, ih h.2⟩

theorem keepsTo_finish {operation : String} {result : Except StoreError α} :
    (finish operation result).KeepsTo P :=
  ⟨⟨_, _, rfl⟩, trivial⟩

/-- The dialogue writes nothing but certain bytes. -/
def PutsOnly (bytes : Bytes) : Dialogue α → Prop
  | .done _ => True
  | .commit x next => x.PutsOnly bytes ∧ ∀ reply, (next reply).PutsOnly bytes
  | .read _ next => ∀ reply, (next reply).PutsOnly bytes
  | .log _ next => next.PutsOnly bytes
  | .count _ next => next.PutsOnly bytes

theorem PutsOnly.bind {p : Dialogue α} {f : α → Dialogue β} {bytes : Bytes}
    (h : p.PutsOnly bytes) (hf : ∀ a, (f a).PutsOnly bytes) : (p.bind f).PutsOnly bytes := by
  induction p with
  | done a => exact hf a
  | commit x next ih => exact ⟨h.1, fun reply => ih reply (h.2 reply)⟩
  | read asked next ih => exact fun reply => ih reply (h reply)
  | log event next ih => exact ih h
  | count sample next ih => exact ih h

section Step

variable {p : Dialogue α} (backend : Backend σ) (journal : Journal) (store : σ)

theorem KeepsTo.step (h : p.KeepsTo P) : (p.step backend journal store).1.KeepsTo P := by
  cases p with
  | done a => trivial
  | commit x next => exact h.2 _
  | read asked next => exact h.2 _
  | log event next => exact h
  | count sample next => exact h.2

/-- What is no call is not counted. -/
theorem KeepsTo.value_step (h : p.KeepsTo P) {sample : Sample}
    (hs : ∀ operation outcome, sample ≠ .storeOperations operation outcome) :
    (p.step backend journal store).2.1.metrics.value sample = journal.metrics.value sample := by
  cases p with
  | done | commit | read | log => rfl
  | count counted next =>
    obtain ⟨⟨operation, outcome, rfl⟩, -⟩ := h
    exact Journal.value_count_of_ne (hs operation outcome)

/-- What is counted is a call. -/
theorem KeepsTo.metrics_step (h : p.KeepsTo P) : ∃ calls : List Sample,
    (∀ sample ∈ calls, ∃ operation outcome, sample = .storeOperations operation outcome) ∧
      (p.step backend journal store).2.1.metrics =
        calls.foldl Metrics.increment journal.metrics := by
  cases p with
  | done | commit | read | log => exact ⟨[], nofun, rfl⟩
  | count counted next => exact ⟨[counted], List.forall_mem_singleton.2 h.1, rfl⟩

theorem KeepsTo.getElem?_step (t : Table) (h : p.KeepsTo P) (hp : ¬ P path) :
    (p.step Table.backend journal t).2.2.entries[path]? = t.entries[path]? := by
  cases p with
  | done | read | log | count => rfl
  | commit x next => exact Table.getElem?_commit_of_spares h.1.spares hp

theorem PutsOnly.step {bytes : Bytes} (t : Table) (path : String) (h : p.PutsOnly bytes) :
    (p.step Table.backend journal t).1.PutsOnly bytes ∧
      ((p.step Table.backend journal t).2.2.entries[path]? = t.entries[path]? ∨
        ∃ e, (p.step Table.backend journal t).2.2.entries[path]? = some e ∧ e.value = bytes) := by
  cases p with
  | done | log | count => exact ⟨h, .inl rfl⟩
  | read asked next => exact ⟨h _, .inl rfl⟩
  | commit x next => exact ⟨h.2 _, Table.getElem?_commit_of_putsOnly h.1⟩

end Step

/-- A step leads from a table to another by transactions. -/
theorem reached_step {t : Table} (h : t.Reached) (p : Dialogue α) (journal : Journal) :
    (p.step Table.backend journal t).2.2.Reached := by
  cases p with
  | commit x next => exact h.commit x
  | done | read | log | count => exact h

/-- Played over tables on which nobody else touches the path, the dialogue comes only to
transactions whose comparison holds. The last argument is the entry of the path now. -/
def Prevails (path : String) : Dialogue α → Option Entry → Prop
  | .done _, _ => True
  | .commit x next, found => ∀ t : Table, t.Valid → t.entries[path]? = found →
      t.satisfies x.comparison = true ∧
        (next (.ok (t.commit x).1)).Prevails path (t.commit x).2.entries[path]?
  | .read asked next, found => ∀ t : Table, t.Valid → t.entries[path]? = found →
      (next (.ok (t.get? asked))).Prevails path found
  | .log _ next, found => next.Prevails path found
  | .count _ next, found => next.Prevails path found

theorem Prevails.bind {p : Dialogue α} {f : α → Dialogue β} {found : Option Entry}
    (h : p.Prevails path found) (hf : ∀ a e, (f a).Prevails path e) :
    (p.bind f).Prevails path found := by
  induction p generalizing found with
  | done a => exact hf a found
  | commit x next ih => exact fun t ht hfound => ⟨(h t ht hfound).1, ih _ (h t ht hfound).2⟩
  | read asked next ih => exact fun t ht hfound => ih _ (h t ht hfound)
  | log event next ih => exact ih h
  | count sample next ih => exact ih h

theorem Prevails.step {p : Dialogue α} {t : Table} (h : p.Prevails path t.entries[path]?)
    (ht : t.Valid) (journal : Journal) :
    (p.step Table.backend journal t).1.Prevails path
      (p.step Table.backend journal t).2.2.entries[path]? := by
  cases p with
  | done a => trivial
  | commit x next => exact (h t ht rfl).2
  | read asked next => exact h t ht rfl
  | log event next => exact h
  | count sample next => exact h

/-- The dialogue is over after so many steps, whatever it is answered. -/
inductive EndsWithin : Dialogue α → Nat → Prop
  | done (a : α) (n : Nat) : EndsWithin (.done a) n
  | commit {x : Transaction} {next : Except StoreError Outcome → Dialogue α} {n : Nat}
      (h : ∀ reply, EndsWithin (next reply) n) : EndsWithin (.commit x next) (n + 1)
  | read {asked : String} {next : Except StoreError (Option Stored) → Dialogue α} {n : Nat}
      (h : ∀ reply, EndsWithin (next reply) n) : EndsWithin (.read asked next) (n + 1)
  | log {event : LogEvent} {next : Dialogue α} {n : Nat} (h : EndsWithin next n) :
      EndsWithin (.log event next) (n + 1)
  | count {sample : Sample} {next : Dialogue α} {n : Nat} (h : EndsWithin next n) :
      EndsWithin (.count sample next) (n + 1)

theorem EndsWithin.exists_eq_done {p : Dialogue α} (h : p.EndsWithin 0) : ∃ a, p = .done a := by
  cases h with
  | done a => exact ⟨a, rfl⟩

theorem EndsWithin.step {p : Dialogue α} {n : Nat} (h : p.EndsWithin (n + 1))
    (backend : Backend σ) (journal : Journal) (store : σ) :
    (p.step backend journal store).1.EndsWithin n := by
  cases h with
  | done a => exact .done a n
  | commit h => exact h _
  | read h => exact h _
  | log h => exact h
  | count h => exact h

theorem EndsWithin.succ {p : Dialogue α} {n : Nat} (h : p.EndsWithin n) :
    p.EndsWithin (n + 1) := by
  induction h with
  | done a n => exact .done a (n + 1)
  | commit _ ih => exact .commit ih
  | read _ ih => exact .read ih
  | log _ ih => exact .log ih
  | count _ ih => exact .count ih

theorem EndsWithin.mono {p : Dialogue α} {n m : Nat} (h : p.EndsWithin n) (hle : n ≤ m) :
    p.EndsWithin m := by
  induction hle with
  | refl => exact h
  | step _ ih => exact ih.succ

theorem EndsWithin.bind {p : Dialogue α} {f : α → Dialogue β} {n m : Nat} (h : p.EndsWithin n)
    (hf : ∀ a, (f a).EndsWithin m) : (p.bind f).EndsWithin (n + m) := by
  induction h with
  | done a n => exact (hf a).mono (Nat.le_add_left m n)
  | commit _ ih => rw [Nat.add_right_comm]; exact .commit ih
  | read _ ih => rw [Nat.add_right_comm]; exact .read ih
  | log _ ih => rw [Nat.add_right_comm]; exact .log ih
  | count _ ih => rw [Nat.add_right_comm]; exact .count ih

end Dialogue

/-! ## Conditional writes -/

section Writes

variable {P : String → Prop} {path : String} {bytes : Bytes} {ttl : Option Duration}
  {expected : Revision}

theorem Pair.keepsTo_putIf {c : Comparison} (hc : c.path = path) (hp : P path) :
    (Pair.putIf c path bytes ttl).KeepsTo P := by
  refine ⟨hc ▸ hp, fun a ha => ?_⟩
  have heq : a = .put path bytes ttl := by simpa [Pair.putIf] using ha
  rw [heq]
  exact hp

theorem Pair.path_unchangedSince : (Pair.unchangedSince path expected).path = path := by
  unfold Pair.unchangedSince
  split <;> rfl

/-- A pair that can be encoded is encoded under its path. -/
theorem Pair.keepsTo_encoded {α : Type} (p : Pair)
    {f : Except StoreError (String × Bytes) → Dialogue α} (herror : ∀ e, (f (.error e)).KeepsTo P)
    (hok : ∀ path bytes, p.key.path = .ok path → (f (.ok (path, bytes))).KeepsTo P) :
    (p.encoded.bind f).KeepsTo P := by
  unfold Pair.encoded
  cases hpath : p.key.path with
  | error e => exact herror _
  | ok path =>
    dsimp only
    cases p.value.encode p.key with
    | error e => exact herror _
    | ok bytes => exact hok path bytes hpath

theorem Pair.keepsTo_overwrite (hp : P path) :
    (Pair.overwrite path bytes ttl expected).KeepsTo P :=
  ⟨Pair.keepsTo_putIf Pair.path_unchangedSince hp, fun _ => Dialogue.keepsTo_finish⟩

theorem Pair.keepsTo_create (p : Pair) (h : ∀ path, p.key.path = .ok path → P path) :
    p.create.KeepsTo P := by
  refine p.keepsTo_encoded (fun _ => trivial) fun path bytes hpath => ?_
  exact ⟨Pair.keepsTo_putIf rfl (h path hpath), fun _ => Dialogue.keepsTo_finish⟩

theorem Pair.keepsTo_update (p : Pair) (h : ∀ path, p.key.path = .ok path → P path) :
    p.update.KeepsTo P := by
  refine p.keepsTo_encoded (fun _ => trivial) fun path bytes hpath => ?_
  have hp : P path := h path hpath
  dsimp only
  cases p.revision with
  | some expected => exact Pair.keepsTo_overwrite hp
  | none =>
    refine ⟨hp, fun reply => ?_⟩
    cases reply with
    | error e => exact Dialogue.keepsTo_finish
    | ok found =>
      cases found with
      | none => exact Pair.keepsTo_overwrite hp
      | some stored => exact Pair.keepsTo_overwrite hp

theorem Pair.putsOnly_overwrite : (Pair.overwrite path bytes ttl expected).PutsOnly bytes := by
  refine ⟨fun a ha => ?_, fun _ => trivial⟩
  have heq : a = .put path bytes ttl := by simpa [Pair.putIf] using ha
  rw [heq]
  rfl

theorem Pair.putsOnly_update {p : Pair} (hv : p.value.encode p.key = .ok bytes) :
    p.update.PutsOnly bytes := by
  unfold Pair.update Pair.encoded
  cases p.key.path with
  | error e => trivial
  | ok path =>
    dsimp only
    rw [hv]
    dsimp only [Dialogue.bind]
    cases p.revision with
    | some expected => exact Pair.putsOnly_overwrite
    | none =>
      intro reply
      cases reply with
      | error e => trivial
      | ok found =>
        cases found with
        | none => exact Pair.putsOnly_overwrite
        | some stored => exact Pair.putsOnly_overwrite

theorem Key.keepsTo_remove (key : Key) (h : ∀ path, key.path = .ok path → P path) :
    key.remove.KeepsTo P := by
  unfold Key.remove Key.deletePath
  cases hpath : key.path with
  | error e => trivial
  | ok path =>
    have hp : P path := h path hpath
    refine ⟨⟨hp, fun a ha => ?_⟩, fun _ => Dialogue.keepsTo_finish⟩
    have hcases : a = .delete path ∨ a = .get path := by
      simpa [Key.deleteIfPresent] using ha
    rcases hcases with rfl | rfl <;> exact hp

/-- The path is overwritten as it has been found. -/
theorem Pair.prevails_overwrite (found : Option Entry) :
    (Pair.overwrite path bytes ttl (found.elim 0 Entry.revision)).Prevails path found :=
  fun _ ht hfound => ⟨Table.satisfies_unchangedSince_found ht hfound, trivial⟩

theorem Pair.prevails_update {p : Pair} (hp : p.key.path = .ok path) (hr : p.revision = none)
    (found : Option Entry) : p.update.Prevails path found := by
  unfold Pair.update Pair.encoded
  rw [hp, hr]
  cases p.value.encode p.key with
  | error e => trivial
  | ok bytes =>
    intro t ht hfound
    rw [Table.get?, hfound]
    cases found with
    | none => exact Pair.prevails_overwrite none
    | some e => exact Pair.prevails_overwrite (some e)

/-- Encoding takes a step only if there is a fault to report. -/
theorem Pair.endsWithin_encoded {α : Type} (p : Pair)
    {f : Except StoreError (String × Bytes) → Dialogue α} {n : Nat}
    (herror : ∀ e, (f (.error e)).EndsWithin n)
    (hok : ∀ path bytes, (f (.ok (path, bytes))).EndsWithin (n + 1)) :
    (p.encoded.bind f).EndsWithin (n + 1) := by
  unfold Pair.encoded
  cases p.key.path with
  | error e => exact .log (herror _)
  | ok path =>
    dsimp only
    cases p.value.encode p.key with
    | error e => exact .log (herror _)
    | ok bytes => exact hok path bytes

theorem Dialogue.endsWithin_finish {α : Type} {operation : String} {result : Except StoreError α} :
    (finish operation result).EndsWithin 1 := .count (.done result 0)

theorem Pair.endsWithin_create (p : Pair) : p.create.EndsWithin 2 :=
  p.endsWithin_encoded (fun _ => .done _ 1) fun _ _ =>
    .commit fun _ => Dialogue.endsWithin_finish

theorem Pair.endsWithin_update (p : Pair) : p.update.EndsWithin 3 := by
  refine p.endsWithin_encoded (fun _ => .done _ 2) fun path bytes => ?_
  have hoverwrite : ∀ expected, (overwrite path bytes p.ttl expected).EndsWithin 2 :=
    fun expected => .commit fun _ => Dialogue.endsWithin_finish
  dsimp only
  cases p.revision with
  | some expected => exact (hoverwrite expected).succ
  | none =>
    refine .read fun reply => ?_
    cases reply with
    | error e => exact Dialogue.endsWithin_finish.succ
    | ok found => cases found <;> exact hoverwrite _

theorem Key.endsWithin_remove (key : Key) : key.remove.EndsWithin 2 := by
  unfold Key.remove
  cases key.deletePath with
  | error e => exact .done _ 2
  | ok path => exact .commit fun _ => Dialogue.endsWithin_finish

end Writes

end ClusterSync

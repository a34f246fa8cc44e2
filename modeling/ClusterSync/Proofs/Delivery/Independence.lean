import ClusterSync.Proofs.Datastore.Renaming
import ClusterSync.Proofs.Delivery.Rounds

/-!
# Work on different paths is independent

All deliveries share the one revision of the table, so what one of them does shows in the revisions
that all others meet. It shows nowhere else.

**Theorem (`Round.independent`).** Every delivery comes to an end. If no two deliveries share a
path, then whatever the schedule is, each has the same result and every path holds the same in the
end. The deliveries of one kind do not notice those of the other kind, whether or when they are
made: if no two share a path this holds under any two schedules, and otherwise under any two that
agree on the turns of that kind.

Deliveries that share a path may get in each other's way, so for these the two rounds have to be
compared turn by turn. `Beside` relates them up to a renaming of revisions: a turn of the kind is
taken in both and may extend the renaming; a turn of the other kind is taken in one of them and only
makes revisions pass that stand for nothing.
-/

namespace ClusterSync

open Text

/-! ## Renamings that grow -/

namespace Renaming

variable {a b : Revision}

/-- Revisions up to some point are what they are. -/
def upTo (a : Revision) (h : 0 ≤ a) : Renaming where
  Stands r s := r = s ∧ r ≤ a
  zero := ⟨rfl, h⟩
  unique := by
    rintro r s r' s' ⟨rfl, -⟩ ⟨rfl, -⟩
    rfl

/-- All revisions that are known are below. -/
def Below (ρ : Renaming) (a b : Revision) : Prop :=
  ∀ {r s : Revision}, ρ.Stands r s → r < a ∧ s < b

/-- A new revision on either side. -/
def extend (ρ : Renaming) (h : ρ.Below a b) : Renaming where
  Stands r s := ρ.Stands r s ∨ r = a ∧ s = b
  zero := .inl ρ.zero
  unique := by
    rintro r s r' s' (hrs | ⟨rfl, rfl⟩) (hrs' | ⟨rfl, rfl⟩)
    · exact ρ.unique hrs hrs'
    · obtain ⟨hr, hs⟩ := h hrs
      exact iff_of_false (Int.ne_of_lt hr) (Int.ne_of_lt hs)
    · obtain ⟨hr, hs⟩ := h hrs'
      exact iff_of_false (Int.ne_of_gt hr) (Int.ne_of_gt hs)
    · exact iff_of_true rfl rfl

theorem le_extend {ρ : Renaming} (h : ρ.Below a b) : ρ ≤ ρ.extend h := .inl

end Renaming

/-! ## Tables that share some paths -/

/-- The same content, written at revisions that stand for each other. -/
structure Entry.Alike (ρ : Renaming) (e e' : Entry) : Prop where
  content : e'.content = e.content
  revision : ρ.Stands e.revision e'.revision

/-- Tables that hold the same on certain paths. -/
structure Table.Shares (P : String → Prop) (ρ : Renaming) (t t' : Table) : Prop where
  valid : t.Valid
  valid' : t'.Valid
  below : ρ.Below (t.revision + 1) (t'.revision + 1)
  entries : ∀ path, P path → Option.Rel (Entry.Alike ρ) t.entries[path]? t'.entries[path]?

namespace Table.Shares

variable {P : String → Prop} {ρ : Renaming} {t t' : Table} {path : String} {bytes : Bytes}
  {ttl : Option Duration}

theorem refl (P : String → Prop) (h : t.Valid) : t.Shares P (.upTo t.revision h.nonneg) t where
  valid := h
  valid' := h
  below := by
    rintro r s ⟨rfl, hle⟩
    exact ⟨Int.lt_add_one_of_le hle, Int.lt_add_one_of_le hle⟩
  entries path _ := by
    cases he : t.entries[path]? with
    | none => exact .none
    | some e => exact .some ⟨rfl, rfl, (h.written path e he).2⟩

theorem content?_eq (h : t.Shares P ρ t') (hp : P path) : t.content? path = t'.content? path := by
  unfold content?
  rcases none_or_some_of_rel (h.entries path hp) with ⟨he, he'⟩ | ⟨e, e', he, he', halike⟩ <;>
    rw [he, he']
  exact congrArg some halike.content.symm

theorem get? (h : t.Shares P ρ t') (hp : P path) :
    Option.Rel (Stored.Alike ρ) (t.get? path) (t'.get? path) := by
  unfold Table.get?
  rcases none_or_some_of_rel (h.entries path hp) with ⟨he, he'⟩ | ⟨e, e', he, he', halike⟩ <;>
    rw [he, he']
  · exact .none
  · exact .some ⟨congrArg Prod.fst halike.content, halike.revision⟩

theorem revisionOf (h : t.Shares P ρ t') (hp : P path) :
    ρ.Stands (t.revisionOf path) (t'.revisionOf path) := by
  unfold Table.revisionOf
  rcases none_or_some_of_rel (h.entries path hp) with ⟨he, he'⟩ | ⟨e, e', he, he', halike⟩ <;>
    rw [he, he']
  · exact ρ.zero
  · exact halike.revision

theorem mem_iff (h : t.Shares P ρ t') (hp : P path) : path ∈ t'.entries ↔ path ∈ t.entries := by
  rw [Std.ExtTreeMap.mem_iff_isSome_getElem?, Std.ExtTreeMap.mem_iff_isSome_getElem?]
  rcases none_or_some_of_rel (h.entries path hp) with ⟨he, he'⟩ | ⟨e, e', he, he', -⟩ <;>
    simp [he, he']

/-- After something elsewhere on the left side. -/
theorem of_left {u : Table} (h : t.Shares P ρ t') (hv : u.Valid) (hr : t.revision ≤ u.revision)
    (he : ∀ path, P path → u.entries[path]? = t.entries[path]?) : u.Shares P ρ t' where
  valid := hv
  valid' := h.valid'
  below hrs := by
    obtain ⟨hlt, hlt'⟩ := h.below hrs
    exact ⟨Int.lt_of_lt_of_le hlt (Int.add_le_add_right hr 1), hlt'⟩
  entries path hp := by
    rw [he path hp]
    exact h.entries path hp

/-- After a write on either side. -/
theorem extend (h : t.Shares P ρ t') {u u' : Table} (hv : u.Valid) (hv' : u'.Valid)
    (hr : u.revision = t.revision + 1) (hr' : u'.revision = t'.revision + 1)
    (he : ∀ path, P path →
      Option.Rel (Entry.Alike (ρ.extend h.below)) u.entries[path]? u'.entries[path]?) :
    u.Shares P (ρ.extend h.below) u' where
  valid := hv
  valid' := hv'
  below := by
    rintro r s (hrs | ⟨rfl, rfl⟩)
    · obtain ⟨hlt, hlt'⟩ := h.below hrs
      rw [hr, hr']
      exact ⟨Int.lt_trans hlt (Int.lt_succ _), Int.lt_trans hlt' (Int.lt_succ _)⟩
    · rw [hr, hr']
      exact ⟨Int.lt_succ _, Int.lt_succ _⟩
  entries := he

/-- What has not been written is as it was. -/
theorem kept (h : t.Shares P ρ t') (hp : P path) :
    Option.Rel (Entry.Alike (ρ.extend h.below)) t.entries[path]? t'.entries[path]? := by
  rcases none_or_some_of_rel (h.entries path hp) with ⟨he, he'⟩ | ⟨e, e', he, he', halike⟩ <;>
    rw [he, he']
  · exact .none
  · exact .some ⟨halike.content, .inl halike.revision⟩

theorem put (h : t.Shares P ρ t') :
    (t.put path bytes ttl).Shares P (ρ.extend h.below) (t'.put path bytes ttl) := by
  refine h.extend (h.valid.put path bytes ttl) (h.valid'.put path bytes ttl) rfl rfl
    fun other hp => ?_
  simp only [Table.put, Std.ExtTreeMap.getElem?_insert]
  split
  · exact .some ⟨rfl, .inr ⟨rfl, rfl⟩⟩
  · exact h.kept hp

theorem drop (h : t.Shares P ρ t') (hm : path ∈ t.entries) (hm' : path ∈ t'.entries) :
    (t.drop path).Shares P (ρ.extend h.below) (t'.drop path) := by
  refine h.extend (h.valid.drop hm) (h.valid'.drop hm') rfl rfl fun other hp => ?_
  simp only [Table.drop, Std.ExtTreeMap.getElem?_erase]
  split
  · exact .none
  · exact h.kept hp

end Table.Shares

theorem Table.matching (P : String → Prop) :
    Dialogue.Matching Table.backend Table.backend (fun path _ => P path) (Table.Shares P) where
  commit := by
    intro ρ t t' x y h hx
    change ∃ ρ' o o', ρ ≤ ρ' ∧ Except.ok (t.commit x).1 = .ok o ∧
      Except.ok (t'.commit y).1 = .ok o' ∧ o.Alike ρ' o' ∧
      (t.commit x).2.Shares P ρ' (t'.commit y).2
    have hgrows : ρ ≤ ρ.extend h.below := Renaming.le_extend h.below
    cases hx with
    | @puts path relation r s bytes ttl ha hrs =>
      have hsame : t.satisfies ⟨path, relation, r⟩ = t'.satisfies ⟨path, relation, s⟩ :=
        Renaming.holds_eq hrs (h.revisionOf ha)
      rw [Table.commit_putIf, Table.commit_putIf, ← hsame]
      split
      · exact ⟨_, _, _, hgrows, rfl, rfl, ⟨rfl, fun _ => .inr ⟨rfl, rfl⟩⟩, h.put⟩
      · exact ⟨ρ, _, _, Renaming.le_refl ρ, rfl, rfl, ⟨rfl, nofun⟩, h⟩
    | @deletes path ha =>
      rw [Table.commit_deleteIfPresent h.valid, Table.commit_deleteIfPresent h.valid']
      by_cases hm : path ∈ t.entries
      · have hm' : path ∈ t'.entries := (h.mem_iff ha).2 hm
        rw [if_pos hm, if_pos hm']
        exact ⟨_, _, _, hgrows, rfl, rfl, ⟨rfl, fun _ => .inr ⟨rfl, rfl⟩⟩, h.drop hm hm'⟩
      · rw [if_neg hm, if_neg (mt (h.mem_iff ha).1 hm)]
        exact ⟨ρ, _, _, Renaming.le_refl ρ, rfl, rfl, ⟨rfl, nofun⟩, h⟩
  read := by
    intro ρ t t' path h ha
    exact ⟨_, _, rfl, rfl, h.get? ha, h⟩

/-! ## Handlers -/

/-- The same result of a delivery, with the revisions that it speaks of renamed. -/
inductive DeliveriesAlike (ρ : Renaming) :
    Except DeliveryError Unit → Except DeliveryError Unit → Prop
  | ok : DeliveriesAlike ρ (.ok ()) (.ok ())
  | error {e e' : StoreError} (h : e.Alike ρ e') :
      DeliveriesAlike ρ (.error (.store e)) (.error (.store e'))

theorem DeliveriesAlike.mono {ρ ρ' : Renaming} {a b : Except DeliveryError Unit} (hle : ρ ≤ ρ')
    (h : DeliveriesAlike ρ a b) : DeliveriesAlike ρ' a b := by
  cases h with
  | ok => exact .ok
  | error h => exact .error (h.mono hle)

/-- An error without the revision that it speaks of. -/
def StoreError.blurred : StoreError → StoreError
  | .revisionMismatch path _ => .revisionMismatch path 0
  | e => e

/-- The result of a delivery without the revision that it speaks of. -/
def blurred : Except DeliveryError Unit → Except DeliveryError Unit
  | .error (.store e) => .error (.store e.blurred)
  | result => result

theorem DeliveriesAlike.blurred_eq {ρ : Renaming} {a b : Except DeliveryError Unit}
    (h : DeliveriesAlike ρ a b) : blurred a = blurred b := by
  cases h with
  | ok => rfl
  | error h => cases h <;> rfl

namespace Task

variable {P : String → Prop} {task : Task} {path : String}

/-- What is done about a task is the same on tables that share its path. -/
theorem alike_dialogue (ρ : Renaming) (h : ∀ path, task.key.path = .ok path → P path) :
    task.dialogue.Alike (fun path _ => P path) DeliveriesAlike ρ task.dialogue := by
  have hpair : ∀ o : WatchedObject, o.pair.Alike ρ o.pair := fun o => ⟨rfl, rfl, .none, rfl⟩
  cases task with
  | create o =>
    refine (Pair.alike_create (hpair o) fun path hpath => h path hpath).bind fun hle hr => ?_
    cases hr with
    | ok _ => exact .done .ok
    | error he =>
      cases he with
      | revisionMismatch hrs => exact .done (.error (.revisionMismatch hrs))
      | same hne =>
        rename_i e
        cases e with
        | alreadyExists => exact .done .ok
        | _ => exact .done (.error (.same hne))
  | update o =>
    refine (Pair.alike_update (hpair o) fun path hpath => ⟨h path hpath, h path hpath⟩).bind
      fun hle hr => ?_
    cases hr with
    | ok _ => exact .done .ok
    | error he => exact .done (.error he)
  | delete kind name =>
    refine (Key.alike_remove h).bind fun hle hr => ?_
    cases hr with
    | ok _ => exact .done .ok
    | error he =>
      cases he with
      | revisionMismatch hrs => exact .done (.error (.revisionMismatch hrs))
      | same hne =>
        rename_i e
        cases e with
        | notFound => exact .done .ok
        | _ => exact .done (.error (.same hne))

end Task

/-! ## Rounds turn by turn -/

namespace Round

/-- The deliveries at certain places are as far in both rounds, and the others of the first keep to
other paths. -/
structure Beside (P : String → Prop) (own : Nat → Bool) (ρ : Renaming) (r r' : Round) : Prop where
  shares : r.table.Shares P ρ r'.table
  parts : ∀ i, own i = true →
    Option.Rel (Dialogue.Alike (fun path _ => P path) DeliveriesAlike ρ) r.parts[i]? r'.parts[i]?
  others : ∀ {i : Nat} {p : Dialogue (Except DeliveryError Unit)},
    own i = false → r.parts[i]? = some p → p.KeepsTo fun path => ¬ P path

variable {P : String → Prop} {own : Nat → Bool} {ρ : Renaming} {r r' : Round} {i : Nat}

/-- A turn of another delivery. -/
theorem Beside.go_other (h : r.Beside P own ρ r') (hi : own i = false) :
    (r.go i).Beside P own ρ r' := by
  cases hp : r.parts[i]? with
  | none => rwa [go_of_none hp]
  | some p =>
    have hkeeps := h.others hi hp
    rw [go_of_some hp]
    refine ⟨h.shares.of_left (h.shares.valid.step p r.journal)
      (r.table.becomes_step p r.journal).revision_le fun path hp => ?_, fun j hj => ?_,
      fun {j q} hj hq => ?_⟩
    · exact hkeeps.getElem?_step r.journal r.table (not_not_intro hp)
    · have hij : i ≠ j := by
        rintro rfl
        rw [hi] at hj
        cases hj
      rw [List.getElem?_set_ne hij]
      exact h.parts j hj
    · rw [List.getElem?_set] at hq
      split at hq
      · rename_i hij
        subst j
        rw [if_pos (List.getElem?_eq_some_iff.1 hp).1] at hq
        cases hq
        exact hkeeps.step _ _ _
      · exact h.others hj hq

/-- A delivery goes on in both rounds, and the renaming may come to know more. -/
theorem Beside.proceed {ρ' : Renaming} {p p' q q' : Dialogue (Except DeliveryError Unit)}
    {t t' : Table} {journal journal' : Journal} (h : r.Beside P own ρ r') (hi : own i = true)
    (hp : r.parts[i]? = some p) (hp' : r'.parts[i]? = some p') (hle : ρ ≤ ρ')
    (hq : q.Alike (fun path _ => P path) DeliveriesAlike ρ' q') (hs : t.Shares P ρ' t') :
    Beside P own ρ' ⟨t, journal, r.parts.set i q⟩ ⟨t', journal', r'.parts.set i q'⟩ where
  shares := hs
  parts j hj := by
    dsimp only
    rw [List.getElem?_set, List.getElem?_set]
    split
    · rename_i hij
      subst j
      rw [if_pos (List.getElem?_eq_some_iff.1 hp).1, if_pos (List.getElem?_eq_some_iff.1 hp').1]
      exact .some hq
    · have hpart := h.parts j hj
      generalize r.parts[j]? = part at hpart ⊢
      generalize r'.parts[j]? = part' at hpart ⊢
      cases hpart with
      | none => exact .none
      | some halike => exact .some (halike.mono hle DeliveriesAlike.mono)
  others {j part} hj hpart := by
    have hij : i ≠ j := by
      rintro rfl
      rw [hi] at hj
      cases hj
    exact h.others hj ((List.getElem?_set_ne hij).symm.trans hpart)

/-- A turn of the same delivery in both rounds. -/
theorem Beside.go_own (h : r.Beside P own ρ r') (hi : own i = true) :
    ∃ ρ', (r.go i).Beside P own ρ' (r'.go i) := by
  have hpart := h.parts i hi
  cases hp : r.parts[i]? with
  | none =>
    rw [hp] at hpart
    cases hp' : r'.parts[i]? with
    | none => exact ⟨ρ, by rwa [go_of_none hp, go_of_none hp']⟩
    | some p' => rw [hp'] at hpart; cases hpart
  | some p =>
    rw [hp] at hpart
    cases hp' : r'.parts[i]? with
    | none => rw [hp'] at hpart; cases hpart
    | some p' =>
      rw [hp'] at hpart
      cases hpart with
      | some halike =>
        obtain ⟨ρ', hle, hnext, -, hshares⟩ :=
          halike.step (Table.matching P) h.shares r.journal r'.journal
        rw [go_of_some hp, go_of_some hp']
        exact ⟨ρ', h.proceed hi hp hp' hle hnext hshares⟩

/-- Only the turns of those deliveries count. -/
theorem Beside.play (h : r.Beside P own ρ r') (schedule : List Nat) :
    ∃ ρ', (r.play schedule).Beside P own ρ' (r'.play (schedule.filter own)) := by
  induction schedule generalizing ρ r r' with
  | nil => exact ⟨ρ, h⟩
  | cons i schedule ih =>
    cases hi : own i with
    | false =>
      rw [List.filter_cons_of_neg (by simp [hi])]
      exact ih (h.go_other hi)
    | true =>
      rw [List.filter_cons_of_pos hi]
      obtain ⟨ρ', h'⟩ := h.go_own hi
      exact ih h'

theorem Beside.result?_eq (h : r.Beside P own ρ r') (hi : own i = true) :
    (r.result? i).map blurred = (r'.result? i).map blurred := by
  have hpart := h.parts i hi
  unfold result?
  generalize r.parts[i]? = part at hpart
  generalize r'.parts[i]? = part' at hpart
  cases hpart with
  | none => rfl
  | some halike =>
    cases halike with
    | done hresult => exact congrArg some hresult.blurred_eq
    | commit | read | log | count => rfl

end Round

/-! ## The deliveries of one kind -/

namespace Task

variable {kind : Kind} {tasks tasks' : List Task} {task : Task} {i : Nat}

/-- Whether there is a task of a kind at a place. -/
def isOf (kind : Kind) (tasks : List Task) (i : Nat) : Bool :=
  tasks[i]?.any fun task => task.kind = kind

/-- The tasks of a kind are the same at the same places. -/
def SameOf (kind : Kind) (tasks tasks' : List Task) : Prop :=
  ∀ i, isOf kind tasks i = true ∨ isOf kind tasks' i = true → tasks[i]? = tasks'[i]?

theorem isOf_eq_true :
    isOf kind tasks i = true ↔ ∃ task, tasks[i]? = some task ∧ task.kind = kind := by
  unfold isOf
  cases tasks[i]? <;> simp

theorem SameOf.isOf_eq (h : SameOf kind tasks tasks') : isOf kind tasks = isOf kind tasks' := by
  funext i
  by_cases hi : isOf kind tasks i = true ∨ isOf kind tasks' i = true
  · unfold isOf
    rw [h i hi]
  · simp only [not_or, Bool.not_eq_true] at hi
    rw [hi.1, hi.2]

/-- Where the tasks of a kind belong. -/
def Under (kind : Kind) (path : String) : Prop := ∃ rest, path = kind.root ++ rest

theorem kind_eq_of_under {path : String} (h : Under kind path) (hpath : task.key.path = .ok path) :
    task.kind = kind := by
  obtain ⟨rest, rfl⟩ := h
  obtain ⟨rest', heq⟩ := (task.owns_path hpath).exists_rest
  exact (Kind.root_inj heq).symm

end Task

namespace Round

variable {kind : Kind} {tasks tasks' : List Task} {t : Table}

theorem beside_start (ht : t.Valid) (h : Task.SameOf kind tasks tasks') :
    (start t tasks).Beside (Task.Under kind) (Task.isOf kind tasks) (.upTo t.revision ht.nonneg)
      (start t tasks') where
  shares := .refl _ ht
  parts i hi := by
    obtain ⟨task, htask, rfl⟩ := Task.isOf_eq_true.1 hi
    have hsame : tasks'[i]? = some task := (h i (.inl hi)).symm.trans htask
    simp only [start, List.getElem?_map, htask, hsame]
    exact .some (task.alike_dialogue _ fun path hpath => (task.owns_path hpath).exists_rest)
  others {i p} hi hp := by
    obtain ⟨task, htask, rfl⟩ := Option.map_eq_some_iff.1 (List.getElem?_map ▸ hp)
    refine task.keepsTo_dialogue fun path hpath hunder => ?_
    have hof : Task.isOf kind tasks i = true :=
      Task.isOf_eq_true.2 ⟨task, htask, Task.kind_eq_of_under hunder hpath⟩
    rw [hi] at hof
    cases hof

/-! ## Two schedules -/

/-- What has become of tasks under a schedule. -/
def after (t : Table) (tasks : List Task) (schedule : List Nat) : Round :=
  (start t tasks).play schedule

/-- Two rounds show the same of the deliveries at certain places and on certain paths, as far as
their results are looked at. -/
structure Agree (look : Except DeliveryError Unit → Except DeliveryError Unit) (own : Nat → Prop)
    (P : String → Prop) (r r' : Round) : Prop where
  results : ∀ i, own i → (r.result? i).map look = (r'.result? i).map look
  contents : ∀ path, P path → r.table.content? path = r'.table.content? path

/-- The deliveries at certain places are over. -/
def Over (own : Nat → Prop) (r : Round) : Prop :=
  ∀ i, own i → i < r.parts.length → r.result? i ≠ none

variable {s s' : List Nat}

/-- Three turns are enough. -/
theorem over_of_count {own : Nat → Prop} (h : ∀ i < tasks.length, own i → 3 ≤ s.count i) :
    (after t tasks s).Over own := by
  intro i hi hlt
  have hlength : (after t tasks s).parts.length = tasks.length :=
    length_play.trans (List.length_map ..)
  exact ended_of_count (hlength ▸ hlt) (h i (hlength ▸ hlt) hi)

theorem ongoing_after (ht : t.Valid) (ha : Task.Apart tasks) (s : List Nat) :
    Ongoing t tasks (after t tasks s) := (ongoing_start ht).play ha s

theorem Ongoing.result?_of_over {own : Nat → Prop} {r : Round} (h : Ongoing t tasks r)
    (hover : r.Over own) {i : Nat} (hi : own i) : r.result? i = tasks[i]?.map Task.result := by
  by_cases hlt : i < r.parts.length
  · exact h.result?_eq (hover i hi hlt)
  · have hge : tasks.length ≤ i := h.length ▸ Nat.le_of_not_lt hlt
    rw [result?, List.getElem?_eq_none (Nat.le_of_not_lt hlt), List.getElem?_eq_none hge]
    rfl

theorem Ongoing.ended {own : Nat → Prop} {r : Round} {task : Task} {i : Nat}
    (h : Ongoing t tasks r) (hover : r.Over own) (hi : own i) (htask : tasks[i]? = some task) :
    r.result? i ≠ none := by
  rw [h.result?_of_over hover hi, htask]
  simp

/-- If no two deliveries share a path, it does not matter in which order they are made. -/
theorem agree_of_over (ht : t.Valid) (ha : Task.Apart tasks)
    (hover : (after t tasks s).Over fun _ => True)
    (hover' : (after t tasks s').Over fun _ => True) :
    Agree id (fun _ => True) (fun _ => True) (after t tasks s) (after t tasks s') := by
  have hr := ongoing_after ht ha s
  have hr' := ongoing_after ht ha s'
  refine ⟨fun i _ => ?_, fun path _ => ?_⟩
  · rw [hr.result?_of_over hover trivial, hr'.result?_of_over hover' trivial]
  · exact hr.content?_eq hr' (fun _ _ _ => Iff.rfl) fun i task hi _ =>
      ⟨hr.ended hover trivial hi, hr'.ended hover' trivial hi⟩

/-- If no two deliveries share a path, those of one kind do not notice those of the other. -/
theorem agree_of_kind_over (ht : t.Valid) (h : Task.SameOf kind tasks tasks')
    (ha : Task.Apart tasks) (ha' : Task.Apart tasks')
    (hover : (after t tasks s).Over (Task.isOf kind tasks ·))
    (hover' : (after t tasks' s').Over (Task.isOf kind tasks ·)) :
    Agree id (Task.isOf kind tasks ·) (Task.Under kind) (after t tasks s) (after t tasks' s') := by
  have hr := ongoing_after ht ha s
  have hr' := ongoing_after ht ha' s'
  refine ⟨fun i hi => ?_, fun path hpath => ?_⟩
  · rw [hr.result?_of_over hover hi, hr'.result?_of_over hover' hi, h i (.inl hi)]
  · have hsame : ∀ (i : Nat) (task : Task), task.key.path = .ok path →
        (tasks[i]? = some task ↔ tasks'[i]? = some task) := by
      intro i task hkey
      have hkind := Task.kind_eq_of_under hpath hkey
      constructor
      · intro hi
        exact (h i (.inl (Task.isOf_eq_true.2 ⟨task, hi, hkind⟩))).symm.trans hi
      · intro hi
        exact (h i (.inr (Task.isOf_eq_true.2 ⟨task, hi, hkind⟩))).trans hi
    refine hr.content?_eq hr' hsame fun i task hi hkey => ?_
    have hof : Task.isOf kind tasks i = true :=
      Task.isOf_eq_true.2 ⟨task, hi, Task.kind_eq_of_under hpath hkey⟩
    exact ⟨hr.ended hover hof hi, hr'.ended hover' hof ((hsame i task hkey).1 hi)⟩

/-- Deliveries of one kind do not notice when those of the other kind have their turns. -/
theorem agree_of_filter (ht : t.Valid) (h : Task.SameOf kind tasks tasks')
    (hs : s.filter (Task.isOf kind tasks) = s'.filter (Task.isOf kind tasks)) :
    Agree blurred (Task.isOf kind tasks ·) (Task.Under kind) (after t tasks s)
      (after t tasks' s') := by
  obtain ⟨ρ, hr⟩ := (beside_start ht h).play s
  have hsame : Task.SameOf kind tasks' tasks' := fun _ _ => rfl
  obtain ⟨ρ', hr'⟩ := (beside_start ht hsame).play s'
  rw [← h.isOf_eq, ← hs] at hr'
  refine ⟨fun i hi => ?_, fun path hpath => ?_⟩
  · exact (hr.result?_eq hi).trans (hr'.result?_eq hi).symm
  · exact (hr.shares.content?_eq hpath).trans (hr'.shares.content?_eq hpath).symm

theorem independent (ht : t.Reached) :
    (∀ (tasks : List Task) (s : List Nat) (i : Nat), i < tasks.length → 3 ≤ s.count i →
      (after t tasks s).result? i ≠ none) ∧
    (∀ (tasks : List Task) (s s' : List Nat), Task.Apart tasks →
      (after t tasks s).Over (fun _ => True) → (after t tasks s').Over (fun _ => True) →
      Agree id (fun _ => True) (fun _ => True) (after t tasks s) (after t tasks s')) ∧
    ∀ (kind : Kind) (tasks tasks' : List Task) (s s' : List Nat), Task.SameOf kind tasks tasks' →
      (Task.Apart tasks → Task.Apart tasks' → (after t tasks s).Over (Task.isOf kind tasks ·) →
        (after t tasks' s').Over (Task.isOf kind tasks ·) →
        Agree id (Task.isOf kind tasks ·) (Task.Under kind) (after t tasks s)
          (after t tasks' s')) ∧
      (s.filter (Task.isOf kind tasks) = s'.filter (Task.isOf kind tasks) →
        Agree blurred (Task.isOf kind tasks ·) (Task.Under kind) (after t tasks s)
          (after t tasks' s')) := by
  have hv := ht.valid
  exact ⟨fun tasks s i => ended_of_count, fun tasks s s' => agree_of_over hv,
    fun kind tasks tasks' s s' h => ⟨agree_of_kind_over hv h, agree_of_filter hv h⟩⟩

section Example

def machine (name : Option String) (uid : String) : WatchedObject :=
  .node { metadata := { name, uid := some uid } }

def rule : WatchedObject :=
  .policy { metadata := { name := some "p1", «namespace» := some "ns" }, spec := {} }

/-- A table with something on the path of a node, for a limited time. -/
def taken : Table :=
  (Table.initial.commit <|
    Pair.putIf (.absent "/nimbess/host/n2") "/nimbess/host/n2" "x".toUTF8 (some ⟨5⟩)).2

/-- Each of these has a path of its own, or none. -/
def separate : List Task :=
  [.update (machine (some "n1") "a"), .create (machine (some "n2") "b"),
    .delete .node (.cluster "n3"), .create rule, .create (machine none "c")]

/-- Three of these share a path. -/
def rivals : List Task :=
  [.create (machine (some "n1") "a"), .update (machine (some "n1") "b"),
    .update (machine (some "n1") "c"), .create rule]

/-- The revision that a delivery has expected in vain. -/
def expected? (r : Round) (i : Nat) : Option Revision :=
  match r.result? i with
  | some (.error (.store (.revisionMismatch _ revision))) => some revision
  | _ => none

theorem independent_of_rivals :
    taken.Reached ∧
    ((after taken separate [0, 0, 0]).result? 0 ≠ none) ∧
    Agree id (fun _ => True) (fun _ => True)
      (after taken separate [0, 0, 0, 1, 1, 1, 2, 2, 2, 3, 3, 3, 4, 4, 4])
      (after taken separate [4, 3, 0, 2, 1, 3, 2, 0, 1, 0, 4, 1, 3, 2, 4]) ∧
    Agree id (Task.isOf .node separate ·) (Task.Under .node)
      (after taken separate [0, 0, 0, 1, 1, 1, 2, 2, 2, 4, 4, 4])
      (after taken separate [4, 3, 0, 2, 1, 3, 2, 0, 1, 0, 4, 1, 2, 4]) ∧
    (after taken rivals [0, 0, 0, 1, 2, 2, 2, 1, 1]).expected? 1 = some 2 ∧
    (after taken rivals [3, 3, 0, 0, 0, 1, 2, 2, 2, 1, 1]).expected? 1 = some 3 ∧
    Agree blurred (Task.isOf .node rivals ·) (Task.Under .node)
      (after taken rivals [0, 0, 0, 1, 2, 2, 2, 1, 1])
      (after taken rivals [3, 3, 0, 0, 0, 1, 2, 2, 2, 1, 1]) := by
  have ht : taken.Reached := .commit _ .initial
  have ha : Task.Apart separate := by decide +kernel
  obtain ⟨hends, hapart, hkinds⟩ := independent ht
  refine ⟨ht, hends _ _ 0 (by decide) (by decide), ?_, ?_, by decide +kernel, by decide +kernel, ?_⟩
  · exact hapart separate _ _ ha (over_of_count (by decide)) (over_of_count (by decide))
  · exact (hkinds .node separate separate _ _ fun _ _ => rfl).1 ha ha
      (over_of_count (by decide)) (over_of_count (by decide))
  · exact (hkinds .node rivals rivals _ _ fun _ _ => rfl).2 (by decide +kernel)

end Example

end Round

end ClusterSync

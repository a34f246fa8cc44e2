import ClusterSync.Proofs.Delivery.Confined

/-!
# Deliveries that are under way at once

Any number of deliveries share one table, and a schedule says whose turn it is. A delivery makes
calls about the path of its key, or about none if the key has no path.

**Theorem (`Round.ended_of_count`).** A delivery is over after three turns of its own, whatever the
others do in between.

**Theorem (`Ongoing.result_eq`).** If no two deliveries share a path, each of them comes to what it
comes to alone: `Task.result`, and on its path `Task.leaves` of what the path held at the start.

The invariant is `Ongoing`. What remains of a delivery secures its goal from what its path holds
now, and since the others keep to other paths, their turns do not disturb that.
-/

namespace ClusterSync

open Text

/-! ## What a table holds -/

/-- What a path holds, but for the revision. -/
def Entry.content (e : Entry) : Bytes × Option Duration := (e.value, e.ttl)

def Table.content? (t : Table) (path : String) : Option (Bytes × Option Duration) :=
  t.entries[path]?.map Entry.content

theorem Table.Valid.step {α : Type} {t : Table} (h : t.Valid) (p : Dialogue α)
    (journal : Journal) : (p.step Table.backend journal t).2.2.Valid := by
  cases p with
  | commit x next => exact h.commit x
  | done | read | log | count => exact h

theorem Table.becomes_step {α : Type} (t : Table) (p : Dialogue α) (journal : Journal) :
    t.Becomes (p.step Table.backend journal t).2.2 := by
  cases p with
  | commit x next => exact t.becomes_commit x
  | done | read | log | count => exact .refl t

/-! ## Tasks -/

/-- Something to be carried out for an object that appeared, changed or went away. -/
inductive Task
  | create (o : WatchedObject)
  | update (o : WatchedObject)
  | delete (kind : Kind) (name : ObjectName)

namespace Task

def kind : Task → Kind
  | .create o | .update o => o.kind
  | .delete kind _ => kind

def key : Task → Key
  | .create o | .update o => o.key
  | .delete kind name => kind.keyFor name

def dialogue : Task → Dialogue (Except DeliveryError Unit)
  | .create o => Handler.create o
  | .update o => Handler.update o
  | .delete kind name => Handler.delete kind name

/-- What a task comes to if nobody interferes: it fails only if its key has no path. -/
def result (task : Task) : Except DeliveryError Unit :=
  match task.key.path with
  | .ok _ => .ok ()
  | .error e => .error (.store (.ofKeyError e))

/-- What a task leaves on its path, from what it finds there. -/
def leaves (found : Option (Bytes × Option Duration)) : Task → Option (Bytes × Option Duration)
  | .create o => found.or (some (o.bytes, none))
  | .update o => some (o.bytes, none)
  | .delete .. => none

/-- No two tasks share a path. -/
def Apart (tasks : List Task) : Prop :=
  (tasks.filterMap fun task => task.key.path.toOption).Nodup

instance (tasks : List Task) : Decidable (Apart tasks) := inferInstanceAs (Decidable (List.Nodup _))

variable {task : Task} {tasks : List Task} {path : String}

theorem Apart.ne_path {other : Task} {i j : Nat} (h : Apart tasks) (hi : tasks[i]? = some task)
    (hj : tasks[j]? = some other) (hij : i ≠ j) (hpath : other.key.path = .ok path) :
    task.key.path ≠ .ok path := by
  obtain ⟨hilt, rfl⟩ := List.getElem?_eq_some_iff.1 hi
  obtain ⟨hjlt, rfl⟩ := List.getElem?_eq_some_iff.1 hj
  have hpairwise := List.pairwise_iff_getElem.1 (List.pairwise_filterMap.1 h)
  intro htask
  rcases Nat.lt_or_gt_of_ne hij with hlt | hlt
  · exact hpairwise i j hilt hjlt hlt path (by rw [htask]; rfl) path (by rw [hpath]; rfl) rfl
  · exact hpairwise j i hjlt hilt hlt path (by rw [hpath]; rfl) path (by rw [htask]; rfl) rfl

theorem owns_path (h : task.key.path = .ok path) : task.kind.Owns path := by
  cases task with
  | create o => exact o.owns_path_key h
  | update o => exact o.owns_path_key h
  | delete kind name => exact ⟨name, h⟩

theorem keepsTo_dialogue {P : String → Prop} (task : Task)
    (h : ∀ path, task.key.path = .ok path → P path) : task.dialogue.KeepsTo P := by
  cases task with
  | create o => exact Handler.keepsTo_create h
  | update o => exact Handler.keepsTo_update h
  | delete kind name => exact Handler.keepsTo_delete h

theorem endsWithin_dialogue (task : Task) : task.dialogue.EndsWithin 3 := by
  cases task with
  | create o =>
    refine ((Pair.endsWithin_create _).bind (m := 0) fun result => ?_).succ
    split <;> exact .done _ 0
  | update o =>
    refine (Pair.endsWithin_update _).bind (m := 0) fun result => ?_
    split <;> exact .done _ 0
  | delete kind name =>
    refine ((Key.endsWithin_remove _).bind (m := 0) fun result => ?_).succ
    split <;> exact .done _ 0

theorem secures_dialogue (h : task.key.path = .ok path) (found : Option Entry) :
    task.dialogue.Secures path (fun result e => result = task.result ∧
      e.map Entry.content = task.leaves (found.map Entry.content)) found := by
  have hresult : task.result = .ok () := by rw [result, h]
  rw [hresult]
  cases task with
  | create o =>
    refine (Handler.secures_create h found).mono fun result e hr => ⟨hr.1, ?_⟩
    obtain ⟨-, he⟩ := hr
    cases found with
    | none =>
      obtain ⟨e', rfl, hvalue, httl⟩ := he
      simp [leaves, Entry.content, hvalue, httl]
    | some e' => rw [he]; rfl
  | update o =>
    refine (Handler.secures_update h found).mono fun result e hr => ⟨hr.1, ?_⟩
    obtain ⟨-, e', rfl, hvalue, httl⟩ := hr
    simp [leaves, Entry.content, hvalue, httl]
  | delete kind name =>
    refine (Handler.secures_delete h found).mono fun result e hr => ⟨hr.1, ?_⟩
    rw [hr.2]
    rfl

end Task

/-! ## Deliveries without a path -/

namespace Dialogue

variable {α β σ : Type} {a : α}

/-- The dialogue makes no calls and comes to a result. -/
def Says (a : α) : Dialogue α → Prop
  | .done b => b = a
  | .commit .. | .read .. => False
  | .log _ next | .count _ next => next.Says a

theorem Says.step {p : Dialogue α} (h : p.Says a) (backend : Backend σ) (journal : Journal)
    (store : σ) : (p.step backend journal store).1.Says a := by
  cases p with
  | done | log | count => exact h
  | commit | read => exact h.elim

theorem Says.bind {p : Dialogue α} {f : α → Dialogue β} {b : β} (h : p.Says a)
    (hf : (f a).Says b) : (p.bind f).Says b := by
  induction p with
  | done a' => cases h; exact hf
  | log _ _ ih | count _ _ ih => exact ih h
  | commit | read => exact h.elim

end Dialogue

theorem Pair.says_encoded {p : Pair} {e : KeyError} (h : p.key.path = .error e) :
    p.encoded.Says (.error (.ofKeyError e)) := by
  unfold encoded
  rw [h]
  rfl

theorem Task.says_dialogue {task : Task} {e : KeyError} (h : task.key.path = .error e) :
    task.dialogue.Says task.result := by
  have hresult : task.result = .error (.store (.ofKeyError e)) := by rw [result, h]
  rw [hresult]
  cases task with
  | create o =>
    have hcreate : o.pair.create.Says (.error (.ofKeyError e)) :=
      (Pair.says_encoded (p := o.pair) h).bind rfl
    exact hcreate.bind (by cases e <;> rfl)
  | update o =>
    have hupdate : o.pair.update.Says (.error (.ofKeyError e)) :=
      (Pair.says_encoded (p := o.pair) h).bind rfl
    exact hupdate.bind rfl
  | delete kind name =>
    have hremove : (kind.keyFor name).remove.Says (.error (.ofKeyError e)) := by
      unfold Key.remove Key.deletePath
      rw [show (kind.keyFor name).path = .error e from h]
      rfl
    exact hremove.bind (by cases e <;> rfl)

/-! ## Rounds -/

/-- Deliveries under way on one table. They are known by their place. -/
structure Round where
  table : Table
  journal : Journal
  parts : List (Dialogue (Except DeliveryError Unit))

namespace Round

/-- Nothing has been done about the tasks yet. -/
def start (t : Table) (tasks : List Task) : Round := ⟨t, {}, tasks.map Task.dialogue⟩

/-- A turn of one delivery; there is none if the delivery does not exist. -/
def go (r : Round) (i : Nat) : Round :=
  match r.parts[i]? with
  | none => r
  | some p =>
    let (p, journal, table) := p.step Table.backend r.journal r.table
    ⟨table, journal, r.parts.set i p⟩

/-- Turns in the order of a schedule. -/
def play (r : Round) (schedule : List Nat) : Round := schedule.foldl go r

/-- What a delivery has come to, none if it is not over. -/
def result? (r : Round) (i : Nat) : Option (Except DeliveryError Unit) :=
  match r.parts[i]? with
  | some (.done result) => some result
  | _ => none

variable {r : Round} {i j : Nat} {p : Dialogue (Except DeliveryError Unit)}

theorem go_of_none (h : r.parts[i]? = none) : r.go i = r := by
  unfold go
  rw [h]

theorem go_of_some (h : r.parts[i]? = some p) :
    r.go i = ⟨(p.step Table.backend r.journal r.table).2.2,
      (p.step Table.backend r.journal r.table).2.1,
      r.parts.set i (p.step Table.backend r.journal r.table).1⟩ := by
  unfold go
  rw [h]

theorem length_go (r : Round) (i : Nat) : (r.go i).parts.length = r.parts.length := by
  cases hi : r.parts[i]? with
  | none => rw [go_of_none hi]
  | some p => rw [go_of_some hi, List.length_set]

theorem result?_eq_some {result : Except DeliveryError Unit} :
    r.result? i = some result ↔ r.parts[i]? = some (.done result) := by
  unfold result?
  constructor
  · intro h
    split at h
    · rename_i result' hi
      cases h
      exact hi
    · cases h
  · intro h
    rw [h]

/-- What is invariant under the turns of one delivery is invariant under schedules. -/
theorem play_induction {motive : Round → Prop} (hgo : ∀ r i, motive r → motive (r.go i))
    (h : motive r) (schedule : List Nat) : motive (r.play schedule) := by
  induction schedule generalizing r with
  | nil => exact h
  | cons i schedule ih => exact ih (hgo r i h)

theorem length_play {schedule : List Nat} : (r.play schedule).parts.length = r.parts.length :=
  play_induction (motive := fun r' => r'.parts.length = r.parts.length)
    (fun r' i h => (length_go r' i).trans h) rfl schedule

/-! ## Every delivery comes to an end -/

/-- How many steps a delivery still needs, at most. -/
theorem endsWithin_play {n : Nat} (schedule : List Nat)
    (h : ∀ p, r.parts[i]? = some p → p.EndsWithin (schedule.count i + n)) :
    ∀ p, (r.play schedule).parts[i]? = some p → p.EndsWithin n := by
  induction schedule generalizing r with
  | nil => simpa [play] using h
  | cons j schedule ih =>
    refine ih (r := r.go j) fun p hp => ?_
    cases hj : r.parts[j]? with
    | none =>
      rw [go_of_none hj] at hp
      have hne : j ≠ i := by
        rintro rfl
        rw [hj] at hp
        cases hp
      simpa [List.count_cons, hne] using h p hp
    | some q =>
      rw [go_of_some hj, List.getElem?_set] at hp
      split at hp
      · rename_i hji
        subst j
        rw [if_pos (List.getElem?_eq_some_iff.1 hj).1] at hp
        cases hp
        have hq := h q hj
        rw [List.count_cons_self, Nat.add_right_comm] at hq
        exact hq.step _ _ _
      · rename_i hne
        simpa [List.count_cons, hne] using h p hp

theorem ended_of_count {t : Table} {tasks : List Task} {schedule : List Nat}
    (hi : i < tasks.length) (h : 3 ≤ schedule.count i) :
    ((start t tasks).play schedule).result? i ≠ none := by
  have hstart : ∀ p, (start t tasks).parts[i]? = some p → p.EndsWithin (schedule.count i + 0) := by
    intro p hp
    obtain ⟨task, -, rfl⟩ := Option.map_eq_some_iff.1 (List.getElem?_map ▸ hp)
    exact (Task.endsWithin_dialogue task).mono h
  have hlength : ((start t tasks).play schedule).parts.length = tasks.length :=
    length_play.trans (List.length_map ..)
  obtain ⟨p, hp⟩ : ∃ p, ((start t tasks).play schedule).parts[i]? = some p :=
    ⟨_, List.getElem?_eq_getElem (hlength ▸ hi)⟩
  obtain ⟨result, rfl⟩ := (endsWithin_play schedule hstart p hp).exists_eq_done
  rw [result?_eq_some.2 hp]
  simp

/-! ## Deliveries on different paths -/

/-- What remains of a task, which is to find the present state of the table on its path. -/
def Owes (t : Table) (task : Task) (table : Table) (p : Dialogue (Except DeliveryError Unit)) :
    Prop :=
  match task.key.path with
  | .ok path => p.Secures path (fun result e => result = task.result ∧
      e.map Entry.content = task.leaves (t.content? path)) table.entries[path]?
  | .error _ => p.Says task.result

section Owes

variable {t table table' : Table} {task : Task}

theorem Owes.step (h : Owes t task table p) (hv : table.Valid) (journal : Journal) :
    Owes t task (p.step Table.backend journal table).2.2
      (p.step Table.backend journal table).1 := by
  unfold Owes at h ⊢
  cases hpath : task.key.path with
  | ok path =>
    rw [hpath] at h
    exact (h.step hv journal).1
  | error e =>
    rw [hpath] at h
    exact h.step _ _ _

/-- What happens on other paths does not matter. -/
theorem Owes.of_eq (h : Owes t task table p)
    (heq : ∀ path, task.key.path = .ok path → table'.entries[path]? = table.entries[path]?) :
    Owes t task table' p := by
  unfold Owes at h ⊢
  cases hpath : task.key.path with
  | ok path =>
    rw [hpath] at h
    dsimp only at h ⊢
    rwa [heq path hpath]
  | error e =>
    rw [hpath] at h
    exact h

/-- A task that is over has come to its result and has left its path as it should. -/
theorem Owes.of_done {result : Except DeliveryError Unit} (h : Owes t task table (.done result)) :
    result = task.result ∧ ∀ path, task.key.path = .ok path →
      table.content? path = task.leaves (t.content? path) := by
  unfold Owes at h
  cases hpath : task.key.path with
  | ok path =>
    rw [hpath] at h
    refine ⟨h.1, fun path' heq => ?_⟩
    cases heq
    exact h.2
  | error e =>
    rw [hpath] at h
    exact ⟨h, nofun⟩

end Owes

/-- What holds while deliveries on different paths are under way. -/
structure Ongoing (t : Table) (tasks : List Task) (r : Round) : Prop where
  valid : r.table.Valid
  length : r.parts.length = tasks.length
  confined : ∀ {i : Nat} {task : Task} {p : Dialogue (Except DeliveryError Unit)},
    tasks[i]? = some task → r.parts[i]? = some p → p.KeepsTo fun path => task.key.path = .ok path
  owes : ∀ {i : Nat} {task : Task} {p : Dialogue (Except DeliveryError Unit)},
    tasks[i]? = some task → r.parts[i]? = some p → Owes t task r.table p
  frame : ∀ path : String, (∀ task ∈ tasks, task.key.path ≠ .ok path) →
    r.table.entries[path]? = t.entries[path]?

theorem ongoing_start {t : Table} {tasks : List Task} (ht : t.Valid) :
    Ongoing t tasks (start t tasks) where
  valid := ht
  length := List.length_map ..
  confined hi hp := by
    simp only [start, List.getElem?_map, hi, Option.map_some, Option.some.injEq] at hp
    subst hp
    exact Task.keepsTo_dialogue _ fun _ => id
  owes {i task p} hi hp := by
    simp only [start, List.getElem?_map, hi, Option.map_some, Option.some.injEq] at hp
    subst hp
    unfold Owes
    cases hpath : task.key.path with
    | ok path => exact Task.secures_dialogue hpath _
    | error e => exact Task.says_dialogue hpath
  frame _ _ := rfl

theorem Ongoing.go {t : Table} {tasks : List Task} (ha : Task.Apart tasks)
    (h : Ongoing t tasks r) (i : Nat) : Ongoing t tasks (r.go i) := by
  cases hi : r.parts[i]? with
  | none => rwa [go_of_none hi]
  | some p =>
    obtain ⟨task, htask⟩ : ∃ task, tasks[i]? = some task :=
      ⟨_, List.getElem?_eq_getElem (h.length ▸ (List.getElem?_eq_some_iff.1 hi).1)⟩
    have hp := h.confined htask hi
    rw [go_of_some hi]
    refine ⟨h.valid.step p r.journal, (List.length_set ..).trans h.length, ?_, ?_, ?_⟩
    · intro j other q hj hq
      rw [List.getElem?_set] at hq
      split at hq
      · rename_i hij
        subst j
        rw [if_pos (List.getElem?_eq_some_iff.1 hi).1] at hq
        cases hq
        cases htask.symm.trans hj
        exact hp.step _ _ _
      · exact h.confined hj hq
    · intro j other q hj hq
      rw [List.getElem?_set] at hq
      split at hq
      · rename_i hij
        subst j
        rw [if_pos (List.getElem?_eq_some_iff.1 hi).1] at hq
        cases hq
        cases htask.symm.trans hj
        exact (h.owes htask hi).step h.valid r.journal
      · rename_i hij
        exact (h.owes hj hq).of_eq fun path hpath =>
          hp.getElem?_step r.journal r.table (ha.ne_path htask hj hij hpath)
    · intro path hpath
      have htouched := hp.getElem?_step r.journal r.table
        (hpath task (List.mem_of_getElem? htask))
      exact htouched.trans (h.frame path hpath)

theorem Ongoing.play {t : Table} {tasks : List Task} (ha : Task.Apart tasks)
    (h : Ongoing t tasks r) (schedule : List Nat) : Ongoing t tasks (r.play schedule) :=
  play_induction (fun _ i h => h.go ha i) h schedule

section Ended

variable {t : Table} {tasks : List Task} {task : Task} {result : Except DeliveryError Unit}

theorem Ongoing.of_ended (h : Ongoing t tasks r) (hi : tasks[i]? = some task)
    (hr : r.result? i = some result) : result = task.result ∧
      ∀ path, task.key.path = .ok path → r.table.content? path = task.leaves (t.content? path) :=
  (h.owes hi (result?_eq_some.1 hr)).of_done

theorem Ongoing.result?_eq (h : Ongoing t tasks r) (hr : r.result? i ≠ none) :
    r.result? i = tasks[i]?.map Task.result := by
  obtain ⟨result, hresult⟩ := Option.ne_none_iff_exists'.1 hr
  have hi : i < r.parts.length := (List.getElem?_eq_some_iff.1 (result?_eq_some.1 hresult)).1
  rw [h.length] at hi
  have htask : tasks[i]? = some tasks[i] := List.getElem?_eq_getElem hi
  rw [hresult, htask, (h.of_ended htask hresult).1]
  rfl

/-- Two rounds leave the same on a path if the same delivery is about it in both, if any is, and is
over. -/
theorem Ongoing.content?_eq {tasks' : List Task} {r' : Round} {path : String}
    (h : Ongoing t tasks r) (h' : Ongoing t tasks' r')
    (hsame : ∀ (i : Nat) (task : Task), task.key.path = .ok path →
      (tasks[i]? = some task ↔ tasks'[i]? = some task))
    (hended : ∀ (i : Nat) (task : Task), tasks[i]? = some task → task.key.path = .ok path →
      r.result? i ≠ none ∧ r'.result? i ≠ none) :
    r.table.content? path = r'.table.content? path := by
  by_cases hex : ∃ (i : Nat) (task : Task), tasks[i]? = some task ∧ task.key.path = .ok path
  · obtain ⟨i, task, hi, hpath⟩ := hex
    obtain ⟨hover, hover'⟩ := hended i task hi hpath
    obtain ⟨result, hresult⟩ := Option.ne_none_iff_exists'.1 hover
    obtain ⟨result', hresult'⟩ := Option.ne_none_iff_exists'.1 hover'
    rw [(h.of_ended hi hresult).2 path hpath,
      (h'.of_ended ((hsame i task hpath).1 hi) hresult').2 path hpath]
  · have hnone : ∀ task ∈ tasks, task.key.path ≠ .ok path := by
      intro task hmem hpath
      obtain ⟨i, hi⟩ := List.getElem?_of_mem hmem
      exact hex ⟨i, task, hi, hpath⟩
    have hnone' : ∀ task ∈ tasks', task.key.path ≠ .ok path := by
      intro task hmem hpath
      obtain ⟨i, hi⟩ := List.getElem?_of_mem hmem
      exact hex ⟨i, task, (hsame i task hpath).2 hi, hpath⟩
    unfold Table.content?
    rw [h.frame path hnone, h'.frame path hnone']

end Ended

end Round

end ClusterSync

import ClusterSync.Proofs.Delivery.Rounds

/-!
# Deliveries that are made again

A call may go wrong: it reports a transport error, and whoever made it cannot tell whether the
datastore has carried it out. So a delivery that has failed is made again without knowing what is
left of the first attempt.

**Theorem (`Attempt.settles`).** However many attempts have been made, and wherever each of them
broke off, an attempt whose calls do not go wrong succeeds. Then everything that nobody else writes
is as a single undisturbed delivery would have left it.

What carries over from one attempt to the next is `Task.leaves`: a transaction of a delivery either
leaves its path alone or brings it to what the task leaves, and from there the task leaves the same.
-/

namespace ClusterSync

open Text

/-! ## Undisturbed deliveries -/

/-- A dialogue that nobody interferes with at all ends as it should and touches nothing but its
path. -/
theorem Dialogue.Secures.run {α : Type} {path : String} {goal : α → Option Entry → Prop}
    {p : Dialogue α} {t : Table} (h : p.Secures path goal t.entries[path]?) (ht : t.Valid)
    (journal : Journal) :
    goal (p.run Table.backend t journal).1 (p.run Table.backend t journal).2.1.entries[path]? ∧
      ∀ other, other ≠ path →
        (p.run Table.backend t journal).2.1.entries[other]? = t.entries[other]? := by
  induction p generalizing t journal with
  | done a => exact ⟨h, fun _ _ => rfl⟩
  | commit x next ih =>
    obtain ⟨hframe, hnext⟩ := h t ht rfl
    obtain ⟨hgoal, hothers⟩ := ih _ hnext (ht.commit x) journal
    exact ⟨hgoal, fun other hne => (hothers other hne).trans (hframe other hne)⟩
  | read asked next ih => exact ih _ (h t ht rfl) ht journal
  | log event next ih => exact ih h ht _
  | count sample next ih => exact ih h ht _

namespace Task

/-- The object of the task has a name, or the name that it is about is not empty. -/
def IsNamed : Task → Prop
  | .create o | .update o => o.IsNamed
  | .delete _ name => name.name ≠ ""

variable {task : Task} {path : String}

theorem IsNamed.exists_path (h : task.IsNamed) : ∃ path, task.key.path = .ok path := by
  have hobject : ∀ o : WatchedObject, o.IsNamed → ∃ path, o.key.path = .ok path := by
    intro o ho
    obtain ⟨n, -, hname⟩ := ho.names
    rw [WatchedObject.key_eq_keyFor hname]
    exact ⟨_, Kind.path_keyFor_of_name (WatchedObject.name_of_objectName? hname).2⟩
  cases task with
  | create o => exact hobject o h
  | update o => exact hobject o h
  | delete kind name => exact ⟨_, Kind.path_keyFor_of_name h⟩

/-- What a single undisturbed delivery leaves. -/
theorem content?_run (hpath : task.key.path = .ok path) {t : Table} (ht : t.Valid)
    (journal : Journal) (other : String) :
    (task.dialogue.run Table.backend t journal).2.1.content? other =
      if other = path then task.leaves (t.content? path) else t.content? other := by
  obtain ⟨⟨-, hown⟩, hothers⟩ := (secures_dialogue hpath t.entries[path]?).run ht journal
  split
  · rename_i heq
    rw [heq]
    exact hown
  · rename_i hne
    unfold Table.content?
    rw [hothers other hne]

end Task

/-! ## Transactions that nobody hears of -/

namespace Dialogue

variable {α β γ : Type} {path : String} {view : Option (Bytes × Option Duration) → γ}

/-- Whatever the dialogue is told, its transactions leave a view of the path's content alone. -/
def Retains (path : String) (view : Option (Bytes × Option Duration) → γ) : Dialogue α → Prop
  | .done _ => True
  | .commit x next =>
    (∀ t : Table, t.Valid → view ((t.commit x).2.content? path) = view (t.content? path)) ∧
      ∀ reply, (next reply).Retains path view
  | .read _ next => ∀ reply, (next reply).Retains path view
  | .log _ next | .count _ next => next.Retains path view

theorem Retains.bind {p : Dialogue α} {f : α → Dialogue β} (h : p.Retains path view)
    (hf : ∀ a, (f a).Retains path view) : (p.bind f).Retains path view := by
  induction p with
  | done a => exact hf a
  | commit x next ih => exact ⟨h.1, fun reply => ih reply (h.2 reply)⟩
  | read asked next ih => exact fun reply => ih reply (h reply)
  | log event next ih => exact ih h
  | count sample next ih => exact ih h

theorem Retains.step {σ : Type} {p : Dialogue α} (h : p.Retains path view) (backend : Backend σ)
    (journal : Journal) (store : σ) : (p.step backend journal store).1.Retains path view := by
  cases p with
  | done a => trivial
  | commit x next => exact h.2 _
  | read asked next => exact h _
  | log event next => exact h
  | count sample next => exact h

/-- There is nothing to see in a view that is always the same. -/
theorem retains_of_forall_eq (h : ∀ c c', view c = view c') (p : Dialogue α) :
    p.Retains path view := by
  induction p with
  | done a => trivial
  | commit x next ih => exact ⟨fun _ _ => h _ _, ih⟩
  | read asked next ih => exact ih
  | log event next ih => exact ih
  | count sample next ih => exact ih

end Dialogue

theorem Task.retains_dialogue {task : Task} {path : String} (h : task.key.path = .ok path) :
    task.dialogue.Retains path task.leaves := by
  cases task with
  | update o => exact Dialogue.retains_of_forall_eq (fun _ _ => rfl) _
  | delete kind name => exact Dialogue.retains_of_forall_eq (fun _ _ => rfl) _
  | create o =>
    have hcreate : o.pair.create.Retains path (Task.create o).leaves := by
      rw [Pair.create, Pair.encoded_eq (p := o.pair) h o.encode_value]
      refine ⟨fun t ht => ?_, fun _ => trivial⟩
      rw [Table.commit_putIf]
      split
      · -- The path does not exist, and then what is put is what the task leaves.
        rename_i habsent
        unfold Table.content?
        rw [(Table.satisfies_absent_iff ht).1 habsent, Table.getElem?_put_self]
        rfl
      · rfl
    refine hcreate.bind fun result => ?_
    split <;> trivial

/-! ## Attempts -/

/-- How a call goes wrong: it reports a transport error, and if it is a transaction, it may have
been carried out all the same. -/
structure Fault where
  reason : String
  carriedOut : Bool
  deriving DecidableEq

/-- The table behind a call that goes wrong. -/
def Table.failing (fault : Fault) : Backend Table where
  commit x t :=
    (.error (.transport fault.reason), if fault.carriedOut then (t.commit x).2 else t)
  read _ t := (.error (.transport fault.reason), t)

/-- An attempt at a task. -/
structure Attempt where
  table : Table
  journal : Journal
  rest : Dialogue (Except DeliveryError Unit)

/-- The attempt goes on, and if it makes a call, the call may go wrong; or somebody else makes a
transaction. -/
inductive Attempt.Turn
  | own (fault : Option Fault)
  | other (x : Transaction)
  deriving DecidableEq

namespace Attempt

def start (t : Table) (task : Task) : Attempt := ⟨t, {}, task.dialogue⟩

/-- The table as a turn of the attempt meets it. -/
def backendFor : Option Fault → Backend Table
  | none => Table.backend
  | some fault => Table.failing fault

def take (a : Attempt) : Turn → Attempt
  | .own fault =>
    let (rest, journal, table) := a.rest.step (backendFor fault) a.journal a.table
    ⟨table, journal, rest⟩
  | .other x => { a with table := (a.table.commit x).2 }

def play (a : Attempt) (turns : List Turn) : Attempt := turns.foldl take a

/-- What the attempt has come to, none if it is not over. -/
def result? (a : Attempt) : Option (Except DeliveryError Unit) :=
  match a.rest with
  | .done result => some result
  | _ => none

/-- The table after attempts at a task one after the other, each of which is given up after its
turns. -/
def leftBy (task : Task) (t : Table) (attempts : List (List Turn)) : Table :=
  attempts.foldl (fun t turns => ((start t task).play turns).table) t

/-- Nobody but the attempt writes certain paths. -/
def Undisturbed (P : String → Prop) (turns : List Turn) : Prop :=
  ∀ x, .other x ∈ turns → x.Spares P

variable {P : String → Prop} {a : Attempt} {t : Table} {task : Task} {path : String}
  {turns : List Turn}

theorem Undisturbed.cons {turn : Turn} (h : Undisturbed P (turn :: turns)) :
    Undisturbed P [turn] ∧ Undisturbed P turns :=
  ⟨fun x hx => h x (List.mem_cons.2 (.inl (List.mem_singleton.1 hx))),
    fun x hx => h x (List.mem_cons_of_mem _ hx)⟩

/-- A turn of the attempt leaves the table as it is or carries out its transaction. -/
theorem table_own (a : Attempt) (fault : Option Fault) :
    (a.take (.own fault)).table = a.table ∨
      ∃ x next, a.rest = .commit x next ∧ (a.take (.own fault)).table = (a.table.commit x).2 := by
  obtain ⟨table, journal, rest⟩ := a
  cases rest with
  | commit x next =>
    cases fault with
    | none => exact .inr ⟨x, next, rfl, rfl⟩
    | some fault =>
      obtain ⟨reason, carriedOut⟩ := fault
      cases carriedOut with
      | true => exact .inr ⟨x, next, rfl, rfl⟩
      | false => exact .inl rfl
  | read asked next => cases fault <;> exact .inl rfl
  | done | log | count => exact .inl rfl

/-- What holds while attempts at a task are made on a table, whether their calls go wrong or not. -/
structure Pursues (t : Table) (task : Task) (path : String) (P : String → Prop) (a : Attempt) :
    Prop where
  valid : a.table.Valid
  keepsTo : a.rest.KeepsTo (· = path)
  retains : a.rest.Retains path task.leaves
  leaves : task.leaves (a.table.content? path) = task.leaves (t.content? path)
  frame : ∀ other, P other → other ≠ path → a.table.entries[other]? = t.entries[other]?

theorem Pursues.take (h : Pursues t task path P a) (hp : P path) {turn : Turn}
    (hu : Undisturbed P [turn]) : Pursues t task path P (a.take turn) := by
  cases turn with
  | other x =>
    have hspares : x.Spares P := hu x List.mem_cons_self
    refine ⟨h.valid.commit x, h.keepsTo, h.retains, ?_, fun other ho hne => ?_⟩
    · rw [← h.leaves]
      exact congrArg (fun e : Option Entry => task.leaves (e.map Entry.content))
        (Table.getElem?_commit_of_spares hspares hp)
    · rw [← h.frame other ho hne]
      exact Table.getElem?_commit_of_spares hspares ho
  | own fault =>
    have hkeeps : (a.take (.own fault)).rest.KeepsTo (· = path) := h.keepsTo.step _ _ _
    have hretains : (a.take (.own fault)).rest.Retains path task.leaves := h.retains.step _ _ _
    rcases a.table_own fault with htable | ⟨x, next, hrest, htable⟩
    · exact ⟨by rw [htable]; exact h.valid, hkeeps, hretains, by rw [htable]; exact h.leaves,
        by rw [htable]; exact h.frame⟩
    · have hcommit : (Dialogue.commit x next).Retains path task.leaves := hrest ▸ h.retains
      have hnames : (Dialogue.commit x next).KeepsTo (· = path) := hrest ▸ h.keepsTo
      refine ⟨by rw [htable]; exact h.valid.commit x, hkeeps, hretains, ?_, fun other ho hne => ?_⟩
      · rw [htable]
        exact (hcommit.1 a.table h.valid).trans h.leaves
      · rw [htable, ← h.frame other ho hne]
        exact Table.getElem?_commit_of_spares hnames.1.spares hne

theorem Pursues.play (h : Pursues t task path P a) (hp : P path) (hu : Undisturbed P turns) :
    Pursues t task path P (a.play turns) := by
  induction turns generalizing a with
  | nil => exact h
  | cons turn turns ih =>
    obtain ⟨hturn, hturns⟩ := hu.cons
    exact ih (h.take hp hturn) hturns

/-- Another attempt begins. -/
theorem Pursues.restart (h : Pursues t task path P a) (hpath : task.key.path = .ok path) :
    Pursues t task path P (start a.table task) where
  valid := h.valid
  keepsTo := Task.keepsTo_dialogue task fun _ ho => Except.ok.inj (ho.symm.trans hpath)
  retains := Task.retains_dialogue hpath
  leaves := h.leaves
  frame := h.frame

theorem pursues_start (ht : t.Valid) (hpath : task.key.path = .ok path) :
    Pursues t task path P (start t task) where
  valid := ht
  keepsTo := Task.keepsTo_dialogue task fun _ ho => Except.ok.inj (ho.symm.trans hpath)
  retains := Task.retains_dialogue hpath
  leaves := rfl
  frame _ _ _ := rfl

theorem pursues_leftBy (ht : t.Valid) (hpath : task.key.path = .ok path) (hp : P path)
    {attempts : List (List Turn)} (hu : ∀ turns ∈ attempts, Undisturbed P turns) :
    Pursues t task path P (start (leftBy task t attempts) task) := by
  suffices h : ∀ u, Pursues t task path P (start u task) →
      Pursues t task path P (start (leftBy task u attempts) task) from h t (pursues_start ht hpath)
  induction attempts with
  | nil => exact fun _ h => h
  | cons turns attempts ih =>
    intro u h
    have hturns := h.play hp (hu turns List.mem_cons_self)
    exact ih (fun turns' hm => hu turns' (List.mem_cons_of_mem _ hm)) _ (hturns.restart hpath)

/-! ## The attempt that succeeds -/

/-- An attempt whose calls do not go wrong goes on to secure what it is to bring about. -/
theorem secures_play {goal : Except DeliveryError Unit → Option Entry → Prop}
    (h : a.rest.Secures path goal a.table.entries[path]?) (ha : a.table.Valid) (hp : P path)
    (hu : Undisturbed P turns) (hsound : ∀ fault, .own (some fault) ∉ turns) :
    (a.play turns).rest.Secures path goal (a.play turns).table.entries[path]? := by
  induction turns generalizing a with
  | nil => exact h
  | cons turn turns ih =>
    obtain ⟨hturn, hturns⟩ := hu.cons
    have hrest : ∀ fault, .own (some fault) ∉ turns := fun fault hm =>
      hsound fault (List.mem_cons_of_mem _ hm)
    cases turn with
    | other x =>
      have hsame := Table.getElem?_commit_of_spares (t := a.table) (hturn x List.mem_cons_self) hp
      exact ih (a := a.take (.other x)) (hsame ▸ h) (ha.commit x) hturns hrest
    | own fault =>
      cases fault with
      | some fault => exact absurd List.mem_cons_self (hsound fault)
      | none =>
        obtain ⟨hnext, hvalid, -⟩ := h.step ha a.journal
        exact ih (a := a.take (.own none)) hnext hvalid hturns hrest

theorem endsWithin_play {n : Nat} (h : a.rest.EndsWithin (turns.count (.own none) + n))
    (hsound : ∀ fault, .own (some fault) ∉ turns) : (a.play turns).rest.EndsWithin n := by
  induction turns generalizing a with
  | nil => simpa [play] using h
  | cons turn turns ih =>
    have hrest : ∀ fault, .own (some fault) ∉ turns := fun fault hm =>
      hsound fault (List.mem_cons_of_mem _ hm)
    cases turn with
    | other x =>
      rw [List.count_cons_of_ne (by simp)] at h
      exact ih (a := a.take (.other x)) h hrest
    | own fault =>
      cases fault with
      | some fault => exact absurd List.mem_cons_self (hsound fault)
      | none =>
        rw [List.count_cons_self, Nat.add_right_comm] at h
        have hstep : (a.take (.own none)).rest.EndsWithin (turns.count (.own none) + n) :=
          h.step Table.backend a.journal a.table
        exact ih hstep hrest

/-- After any attempts, an attempt whose calls do not go wrong succeeds within three turns of its
own, whatever others do in between. Then every path that nobody else writes holds what a single
undisturbed delivery would have left. -/
theorem settles (ht : t.Reached) (hn : task.IsNamed) (hp : ∀ path, task.key.path = .ok path → P path)
    {attempts : List (List Turn)} (hu : ∀ turns ∈ attempts, Undisturbed P turns)
    {last : List Turn} (hlast : Undisturbed P last) (hsound : ∀ fault, .own (some fault) ∉ last)
    (hends : 3 ≤ last.count (.own none)) (journal : Journal) :
    ((start (leftBy task t attempts) task).play last).result? = some (.ok ()) ∧
      ∀ path, P path → ((start (leftBy task t attempts) task).play last).table.content? path =
        (task.dialogue.run Table.backend t journal).2.1.content? path := by
  obtain ⟨path, hpath⟩ := hn.exists_path
  have hown := hp path hpath
  have hstart := pursues_leftBy ht.valid hpath hown hu
  have hend := hstart.play hown hlast
  have hsecures := secures_play (Task.secures_dialogue hpath _) hstart.valid hown hlast hsound
  have hover : ((start (leftBy task t attempts) task).play last).rest.EndsWithin 0 :=
    endsWithin_play ((Task.endsWithin_dialogue task).mono hends) hsound
  obtain ⟨result, hresult⟩ := hover.exists_eq_done
  rw [hresult] at hsecures
  obtain ⟨rfl, hcontent⟩ := hsecures
  have hok : task.result = .ok () := by rw [Task.result, hpath]
  refine ⟨by rw [result?, hresult, hok], fun other ho => ?_⟩
  rw [Task.content?_run hpath ht.valid]
  split
  · rename_i heq
    rw [heq]
    exact hcontent.trans hstart.leaves
  · rename_i hne
    unfold Table.content?
    rw [hend.frame other ho hne]

section Example

/-- A node that has been stored before, and that somebody else's transaction has nothing to do
with. -/
def stored : Table :=
  (Table.initial.commit <|
    Pair.putIf (.absent "/nimbess/host/n1") "/nimbess/host/n1" "x".toUTF8 none).2

def renewed : Task := .update (.node { metadata := { name := some "n1", uid := some "b" } })

def unrelated : Transaction :=
  Pair.putIf (.absent "/nimbess/host/n2") "/nimbess/host/n2" "y".toUTF8 none

/-- The first attempt does not hear that its transaction has been carried out, and the second one
cannot even read. -/
def lost : List (List Turn) :=
  [[.own none, .other unrelated, .own (some ⟨"no answer", true⟩)], [.own (some ⟨"no route", false⟩)]]

theorem settles_of_lost :
    stored.Reached ∧ renewed.IsNamed ∧ renewed.key.path = .ok "/nimbess/host/n1" ∧
    (∀ turns ∈ lost, Undisturbed (· ≠ "/nimbess/host/n2") turns) ∧
    ((start (leftBy renewed stored lost) renewed).play
      [.own none, .own none, .own none]).result? = some (.ok ()) ∧
    ∀ path, path ≠ "/nimbess/host/n2" →
      ((start (leftBy renewed stored lost) renewed).play
        [.own none, .own none, .own none]).table.content? path =
        (renewed.dialogue.run Table.backend stored {}).2.1.content? path := by
  have ht : stored.Reached := .commit _ .initial
  have hn : renewed.IsNamed := ⟨"n1", rfl, by decide⟩
  have hpath : renewed.key.path = .ok "/nimbess/host/n1" := rfl
  have hspares : unrelated.Spares (· ≠ "/nimbess/host/n2") := by
    simp [unrelated, Pair.putIf, Transaction.Spares, Action.written?]
  have hu : ∀ turns ∈ lost, Undisturbed (· ≠ "/nimbess/host/n2") turns := by
    intro turns hm x hx
    simp [lost] at hm
    rcases hm with rfl | rfl
    · simp at hx
      exact hx ▸ hspares
    · simp at hx
  have hlast : Undisturbed (· ≠ "/nimbess/host/n2") [.own none, .own none, .own none] := by
    intro x hx
    simp at hx
  have hp : ∀ path, renewed.key.path = .ok path → path ≠ "/nimbess/host/n2" := by
    intro path ho
    rw [Except.ok.inj (ho.symm.trans hpath)]
    decide
  exact ⟨ht, hn, hpath, hu, settles ht hn hp hu hlast (by simp) (by decide) {}⟩

end Example

end Attempt

end ClusterSync

import ClusterSync.Proofs.Datastore.Table

/-!
# Revisions number the writes

Every write of a table is an edit: a path is written, or a path that existed is removed. The log of
a table holds the edits that led to it, the latest first, and says all there is to say about the
table: its revision is the length of the log, and a path holds what its latest edit left there, with
the number of that edit as the revision.

**Steps** (`Table.trace`). Every action of a branch is noted with the table that it finds, which
holds what the actions before it left, in the same branch too. A run of transactions is the run of
the branches that they come to (`Table.executed`).

**Theorem (`Table.numbers_writes`).** After any transactions, one more raises the revision by the
number of its edits. The revisions of entries are numbers of edits, hence within bounds and no two
alike, and none is given twice, whatever is removed in between. Only the branch that is chosen
counts, and it reads what was there when it read.
-/

namespace ClusterSync

open Text

/-- A write: a path is written, or it is removed and has existed. -/
inductive Edit
  | wrote (path : String) (value : Bytes) (ttl : Option Duration)
  | removed (path : String)
  deriving DecidableEq

/-- What the latest edit of a path has left there. The edit that came first has number 1. -/
def Edit.left? (path : String) : List Edit → Option Entry
  | [] => none
  | .wrote other value ttl :: earlier =>
    if other = path then some ⟨value, (earlier.length + 1 : Nat), ttl⟩ else left? path earlier
  | .removed other :: earlier => if other = path then none else left? path earlier

namespace Edit

variable {log : List Edit} {path path' : String} {e e' : Entry}

/-- An entry is a write of the log, and its revision is the number of that write. -/
theorem exists_of_left? (h : left? path log = some e) : ∃ later earlier,
    log = later ++ .wrote path e.value e.ttl :: earlier ∧
      e.revision = (earlier.length + 1 : Nat) := by
  induction log with
  | nil => cases h
  | cons edit earlier ih =>
    have hearlier (h : left? path earlier = some e) : ∃ later earlier',
        edit :: earlier = later ++ .wrote path e.value e.ttl :: earlier' ∧
          e.revision = (earlier'.length + 1 : Nat) := by
      obtain ⟨later, earlier', rfl, hrevision⟩ := ih h
      exact ⟨edit :: later, earlier', rfl, hrevision⟩
    cases edit with
    | wrote other value ttl =>
      rw [left?] at h
      split at h
      · rename_i hpath
        cases h
        exact ⟨[], earlier, by rw [hpath]; rfl, rfl⟩
      · exact hearlier h
    | removed other =>
      rw [left?] at h
      split at h
      · cases h
      · exact hearlier h

theorem revision_bounds (h : left? path log = some e) :
    1 ≤ e.revision ∧ e.revision ≤ log.length := by
  obtain ⟨later, earlier, rfl, hrevision⟩ := exists_of_left? h
  rw [hrevision, List.length_append, List.length_cons]
  exact ⟨Int.ofNat_le.2 (Nat.le_add_left 1 _), Int.ofNat_le.2 (Nat.le_add_left _ _)⟩

/-- No two paths have been written at the same revision. -/
theorem path_eq_of_revision_eq (h : left? path log = some e) (h' : left? path' log = some e')
    (hr : e.revision = e'.revision) : path = path' := by
  obtain ⟨later, earlier, hlog, hrevision⟩ := exists_of_left? h
  obtain ⟨later', earlier', hlog', hrevision'⟩ := exists_of_left? h'
  have hlength : earlier.length + 1 = earlier'.length + 1 := by
    rw [hrevision, hrevision'] at hr
    exact Int.ofNat.inj hr
  -- Both are the edit with the same number, counted from the end of the log.
  have hedits := (List.append_inj' (hlog.symm.trans hlog') hlength).2
  exact (Edit.wrote.inj (List.cons.inj hedits).1).1

end Edit

namespace Table

variable {t : Table} {log : List Edit} {a : Action} {actions : List Action}

/-- A table is what a log comes to. -/
structure Records (t : Table) (log : List Edit) : Prop where
  revision : t.revision = log.length
  entries : ∀ path : String, t.entries[path]? = Edit.left? path log

theorem records_initial : initial.Records [] where
  revision := rfl
  entries _ := Std.ExtTreeMap.getElem?_empty

/-! ## Steps -/

/-- An action that is carried out, and the table that it finds. -/
structure Step where
  found : Table
  action : Action

namespace Step

/-- The table that a step leaves. -/
def left (s : Step) : Table := (s.found.act s.action).1

/-- The edit that a step is: every put is one, and so is a deletion of what exists. -/
def edit? (s : Step) : Option Edit :=
  match s.action with
  | .put path value ttl => some (.wrote path value ttl)
  | .delete path => if path ∈ s.found.entries then some (.removed path) else none
  | .get _ => none

/-- The revision that a put gives its path, as the table shows it afterwards. -/
def stamp? (s : Step) : Option Revision :=
  match s.action with
  | .put path _ _ => some (s.left.revisionOf path)
  | .delete _ | .get _ => none

/-- What a `get` reads: the path as it is found. -/
def reads (s : Step) : List Stored :=
  match s.action with
  | .get path => (s.found.get? path).toList
  | .put _ _ _ | .delete _ => []

end Step

/-- The edits of steps, the latest first. -/
def edits (steps : List Step) : List Edit := (steps.filterMap Step.edit?).reverse

/-- Actions that are carried out one after the other. -/
def trace (t : Table) : List Action → List Step
  | [] => []
  | a :: rest => ⟨t, a⟩ :: trace (t.act a).1 rest

theorem Records.left {s : Step} (h : s.found.Records log) :
    s.left.Records (s.edit?.toList ++ log) := by
  obtain ⟨t, a⟩ := s
  cases a with
  | put path value ttl =>
    refine ⟨congrArg (· + 1) h.revision, fun other => ?_⟩
    have hother := h.entries other
    have hrevision : t.revision = log.length := h.revision
    simp only [Step.left, act, Std.ExtTreeMap.getElem?_insert, Std.LawfulEqCmp.compare_eq_iff_eq]
    rw [hother, hrevision]
    rfl
  | delete path =>
    simp only [Step.left, Step.edit?, act]
    split
    · refine ⟨congrArg (· + 1) h.revision, fun other => ?_⟩
      have hother := h.entries other
      simp only [Std.ExtTreeMap.getElem?_erase, Std.LawfulEqCmp.compare_eq_iff_eq]
      rw [hother]
      rfl
    · exact h
  | get path => exact h

/-- A step that is no edit changes nothing. -/
theorem left_eq_of_edit?_eq_none {s : Step} (h : s.edit? = none) : s.left = s.found := by
  obtain ⟨t, a⟩ := s
  cases a with
  | put path value ttl => cases h
  | delete path =>
    have hgone : path ∉ t.entries := fun hmem => by simp [Step.edit?, hmem] at h
    exact if_neg hgone
  | get path => rfl

/-! ## Lists of actions -/

theorem acts_cons : t.acts (a :: actions) =
    (((t.act a).1.acts actions).1, (t.act a).2 ++ ((t.act a).1.acts actions).2) := rfl

theorem acts_append (t : Table) (as bs : List Action) :
    (t.acts (as ++ bs)).1 = ((t.acts as).1.acts bs).1 := by
  induction as generalizing t with
  | nil => rfl
  | cons a as ih => exact ih (t.act a).1

theorem map_action_trace (t : Table) (actions : List Action) :
    (t.trace actions).map Step.action = actions := by
  induction actions generalizing t with
  | nil => rfl
  | cons a rest ih => exact congrArg (a :: ·) (ih (t.act a).1)

theorem edits_cons (s : Step) (steps : List Step) :
    edits (s :: steps) = edits steps ++ s.edit?.toList := by
  cases h : s.edit? <;> simp [edits, h]

/-- The log grows by the edits of the steps. -/
theorem Records.acts (h : t.Records log) (actions : List Action) :
    (t.acts actions).1.Records (edits (t.trace actions) ++ log) := by
  induction actions generalizing t log with
  | nil => exact h
  | cons a rest ih =>
    have hrest := ih (h.left (s := ⟨t, a⟩))
    rw [trace, edits_cons, List.append_assoc]
    exact hrest

/-- What a list of actions reads is what its steps read. -/
theorem reads_acts (t : Table) (actions : List Action) :
    (t.acts actions).2 = (t.trace actions).flatMap Step.reads := by
  induction actions generalizing t with
  | nil => rfl
  | cons a rest ih =>
    have hhere : (t.act a).2 = Step.reads ⟨t, a⟩ := by cases a <;> rfl
    rw [trace, List.flatMap_cons, acts_cons, ih (t.act a).1, hhere]

/-- Steps without an edit change nothing. -/
theorem acts_eq_of_no_edit (h : (t.trace actions).filterMap Step.edit? = []) :
    (t.acts actions).1 = t := by
  induction actions generalizing t with
  | nil => rfl
  | cons a rest ih =>
    rw [trace] at h
    cases hedit : Step.edit? ⟨t, a⟩ with
    | some edit =>
      rw [List.filterMap_cons_some hedit] at h
      cases h
    | none =>
      rw [List.filterMap_cons_none hedit] at h
      have hleft : (t.act a).1 = t := left_eq_of_edit?_eq_none hedit
      exact (ih h).trans hleft

/-- A step finds what the edits before it have left. -/
theorem Records.found {s : Step} {i : Nat} (h : t.Records log)
    (hs : (t.trace actions)[i]? = some s) :
    s.found.Records (edits ((t.trace actions).take i) ++ log) := by
  induction actions generalizing t log i with
  | nil => cases hs
  | cons a rest ih =>
    cases i with
    | zero =>
      cases hs
      exact h
    | succ i =>
      rw [trace, List.take_succ_cons, edits_cons, List.append_assoc]
      exact ih (h.left (s := ⟨t, a⟩)) hs

/-! ## Stamps -/

theorem revision_eq_of_stamp? {s : Step} {r : Revision} (h : s.stamp? = some r) :
    s.left.revision = r ∧ s.found.revision < r := by
  obtain ⟨t, a⟩ := s
  cases a with
  | put path value ttl =>
    have hr : r = t.revision + 1 := by
      rw [← Option.some.inj h]
      exact revisionOf_eq getElem?_put_self
    rw [hr]
    exact ⟨rfl, Int.lt_succ _⟩
  | delete path => cases h
  | get path => cases h

/-- The stamps that actions give increase, and are all new. -/
theorem stamps_increase (t : Table) (actions : List Action) :
    (∀ r ∈ (t.trace actions).filterMap Step.stamp?, t.revision < r) ∧
      ((t.trace actions).filterMap Step.stamp?).Pairwise (· < ·) := by
  induction actions generalizing t with
  | nil => exact ⟨nofun, .nil⟩
  | cons a rest ih =>
    obtain ⟨hnew, hincrease⟩ := ih (t.act a).1
    have hle : t.revision ≤ (t.act a).1.revision := (becomes_act t a).revision_le
    have hlater : ∀ r ∈ ((t.act a).1.trace rest).filterMap Step.stamp?, t.revision < r :=
      fun r hr => Int.lt_of_le_of_lt hle (hnew r hr)
    rw [trace]
    cases hstamp : Step.stamp? ⟨t, a⟩ with
    | none =>
      rw [List.filterMap_cons_none hstamp]
      exact ⟨hlater, hincrease⟩
    | some r =>
      rw [List.filterMap_cons_some hstamp]
      obtain ⟨hleft, hfound⟩ := revision_eq_of_stamp? hstamp
      have hleft : (t.act a).1.revision = r := hleft
      refine ⟨List.forall_mem_cons.2 ⟨hfound, hlater⟩, List.pairwise_cons.2 ⟨?_, hincrease⟩⟩
      rw [← hleft]
      exact hnew

/-! ## Runs of transactions -/

/-- The table after transactions. -/
def run (t : Table) (xs : List Transaction) : Table := xs.foldl (fun t x => (t.commit x).2) t

/-- The actions that transactions come to. -/
def executed (t : Table) : List Transaction → List Action
  | [] => []
  | x :: xs => t.branch x ++ executed (t.commit x).2 xs

theorem acts_executed (t : Table) (xs : List Transaction) :
    (t.acts (t.executed xs)).1 = t.run xs := by
  induction xs generalizing t with
  | nil => rfl
  | cons x xs ih => rw [executed, acts_append]; exact ih (t.commit x).2

/-- The edits that transactions come to from the beginning, the latest first. -/
def logOf (xs : List Transaction) : List Edit := edits (initial.trace (initial.executed xs))

theorem records_run (xs : List Transaction) : (initial.run xs).Records (logOf xs) := by
  have h := records_initial.acts (initial.executed xs)
  rwa [acts_executed, List.append_nil] at h

/-- The steps of a transaction. -/
def steps (t : Table) (x : Transaction) : List Step := t.trace (t.branch x)

theorem map_action_steps (t : Table) (x : Transaction) : (t.steps x).map Step.action =
    if t.satisfies x.comparison then x.success else x.failure := map_action_trace t (t.branch x)

theorem Records.commit (h : t.Records log) (x : Transaction) :
    (t.commit x).2.Records (edits (t.steps x) ++ log) := h.acts (t.branch x)

theorem Records.revision_commit (h : t.Records log) (x : Transaction) :
    (t.commit x).2.revision = t.revision + ((t.steps x).filterMap Step.edit?).length := by
  rw [(h.commit x).revision, h.revision, edits, List.length_append, List.length_reverse,
    Int.add_comm]
  rfl

/-! ## What revisions say -/

/-- Revisions are within bounds and tell paths apart. -/
structure Numbered (t : Table) : Prop where
  bounds : ∀ (path : String) (e : Entry), t.entries[path]? = some e →
    1 ≤ e.revision ∧ e.revision ≤ t.revision
  distinct : ∀ (path path' : String) (e e' : Entry), t.entries[path]? = some e →
    t.entries[path']? = some e' → e.revision = e'.revision → path = path'

/-- What a transaction comes to, for a table that a log led to. -/
structure Transacts (t : Table) (log : List Edit) (x : Transaction) (outcome : Outcome)
    (after : Table) : Prop where
  rises : t.revision ≤ after.revision
  counts : after.revision = t.revision + ((t.steps x).filterMap Step.edit?).length
  succeeded : outcome.succeeded = x.comparison.holds (t.revisionOf x.comparison.path)
  chosen : (t.steps x).map Step.action = if outcome.succeeded then x.success else x.failure
  /-- Every step finds what the edits before it have left, in the same branch too. -/
  found : ∀ (i : Nat) (s : Step), (t.steps x)[i]? = some s →
    s.found.Records (edits ((t.steps x).take i) ++ log)
  reads : outcome.reads = (t.steps x).flatMap Step.reads
  revision : outcome.revision = after.revision
  /-- Nothing has taken effect but the steps. -/
  leaves : after.Records (edits (t.steps x) ++ log)
  unchanged : (t.steps x).filterMap Step.edit? = [] → after = t

theorem Records.numbered (h : t.Records log) : t.Numbered where
  bounds path e he := by
    rw [h.entries] at he
    rw [h.revision]
    exact Edit.revision_bounds he
  distinct path path' e e' he he' hr := by
    rw [h.entries] at he he'
    exact Edit.path_eq_of_revision_eq he he' hr

theorem Records.transacts (h : t.Records log) (x : Transaction) :
    t.Transacts log x (t.commit x).1 (t.commit x).2 where
  rises := (becomes_commit t x).revision_le
  counts := h.revision_commit x
  succeeded := rfl
  chosen := map_action_steps t x
  found _ _ hs := h.found hs
  reads := reads_acts t (t.branch x)
  revision := rfl
  leaves := h.commit x
  unchanged hno := acts_eq_of_no_edit hno

/-- After any transactions, the table is what their edits amount to, the revisions that puts have
been given increase, and one more transaction counts its edits. -/
theorem numbers_writes (xs : List Transaction) (x : Transaction) :
    (initial.run xs).Records (logOf xs) ∧ (initial.run xs).Numbered ∧
      ((initial.trace (initial.executed xs)).filterMap Step.stamp?).Pairwise (· < ·) ∧
      (initial.run xs).Transacts (logOf xs) x ((initial.run xs).commit x).1
        ((initial.run xs).commit x).2 := by
  have hrecords := records_run xs
  exact ⟨hrecords, hrecords.numbered, (stamps_increase _ _).2, hrecords.transacts x⟩

namespace Example

/-- A path is written, removed, removed in vain and written again, and another is written. -/
def rewriting : Transaction where
  comparison := .absent "a"
  success := [.put "a" "1".toUTF8 none, .get "a", .delete "a", .delete "a", .get "a",
    .put "a" "2".toUTF8 none, .put "b" "3".toUTF8 none]
  failure := [.put "c" "4".toUTF8 none]

/-- A look at paths of which one does not exist, on condition that another exists. -/
def looking : Transaction where
  comparison := .absent "a"
  success := [.put "a" "5".toUTF8 none]
  failure := [.get "a", .delete "c", .get "c", .get "b"]

theorem numbers_writes_of_rewriting :
    let t := initial.run [rewriting]
    (initial.trace (initial.executed [rewriting])).filterMap Step.stamp? = [1, 3, 4] ∧
      (∃ e : Entry, t.entries["a"]? = some e ∧ 1 ≤ e.revision ∧ e.revision ≤ t.revision) ∧
      (t.steps looking).filterMap Step.edit? = [] ∧ (t.commit looking).2 = t := by
  obtain ⟨-, hnumbered, -, hlooking⟩ := numbers_writes [rewriting] looking
  have hentry : (initial.run [rewriting]).entries["a"]? = some ⟨"2".toUTF8, 3, none⟩ := by
    decide +kernel
  have hedits : ((initial.run [rewriting]).steps looking).filterMap Step.edit? = [] := by
    decide +kernel
  exact ⟨by decide +kernel, ⟨_, hentry, hnumbered.bounds _ _ hentry⟩, hedits,
    hlooking.unchanged hedits⟩

end Example

end Table

end ClusterSync

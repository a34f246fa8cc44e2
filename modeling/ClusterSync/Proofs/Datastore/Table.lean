import ClusterSync.Datastore.Pair
import ClusterSync.Datastore.Table

/-!
# What every table keeps

A table counts its writes, so an entry has been written at a revision that is not 0 and that the
table has come to. That is why a comparison with 0 tells whether a path exists. A transaction leaves
the paths alone that none of its actions names.

The two transactions of conditional writes come down to one case distinction each.

**Theorem (`Becomes.entry_eq`).** Since every write counts on, a revision is not used again:
whatever a table becomes, a path that holds something written at the same revision holds the same.
-/

namespace ClusterSync.Table

open Text

variable {t u v : Table} {path other : String}

/-- Every entry has been written at a revision that the table has come to. -/
structure Valid (t : Table) : Prop where
  nonneg : 0 ≤ t.revision
  written : ∀ (path : String) (e : Entry), t.entries[path]? = some e →
    0 < e.revision ∧ e.revision ≤ t.revision

theorem valid_initial : initial.Valid where
  nonneg := Int.le_refl 0
  written path e h := by
    rw [show initial.entries[path]? = none from Std.ExtTreeMap.getElem?_empty] at h
    cases h

theorem Valid.act (h : t.Valid) (a : Action) : (t.act a).1.Valid := by
  have hnext : 0 ≤ t.revision + 1 := Int.add_nonneg h.nonneg (by decide)
  cases a with
  | put path value ttl =>
    refine ⟨hnext, fun other e he => ?_⟩
    simp only [Table.act, Std.ExtTreeMap.getElem?_insert] at he ⊢
    split at he
    · cases he
      exact ⟨Int.lt_add_one_of_le h.nonneg, Int.le_refl _⟩
    · obtain ⟨hpos, hle⟩ := h.written other e he
      exact ⟨hpos, Int.le_add_one hle⟩
  | delete path =>
    simp only [Table.act]
    split
    · refine ⟨hnext, fun other e he => ?_⟩
      simp only [Std.ExtTreeMap.getElem?_erase] at he ⊢
      split at he
      · cases he
      · obtain ⟨hpos, hle⟩ := h.written other e he
        exact ⟨hpos, Int.le_add_one hle⟩
    · exact h
  | get path => exact h

theorem Valid.acts (h : t.Valid) (actions : List Action) : (t.acts actions).1.Valid := by
  induction actions generalizing t with
  | nil => exact h
  | cons a rest ih => exact ih (h.act a)

theorem Valid.commit (h : t.Valid) (x : Transaction) : (t.commit x).2.Valid := h.acts _

/-- The tables that transactions lead to. -/
inductive Reached : Table → Prop
  | initial : Reached initial
  | commit {t : Table} (x : Transaction) : Reached t → Reached (t.commit x).2

theorem Reached.valid (h : Reached t) : t.Valid := by
  induction h with
  | initial => exact valid_initial
  | commit x _ ih => exact ih.commit x

/-! ## Paths that are left alone -/

theorem getElem?_act_of_ne {a : Action} (h : a.path ≠ path) :
    (t.act a).1.entries[path]? = t.entries[path]? := by
  cases a with
  | put other value ttl =>
    have h : other ≠ path := h
    simp [Table.act, Std.ExtTreeMap.getElem?_insert, h]
  | delete other =>
    have h : other ≠ path := h
    simp only [Table.act]
    split
    · simp [Std.ExtTreeMap.getElem?_erase, h]
    · rfl
  | get other => rfl

theorem getElem?_acts_of_ne {actions : List Action} (h : ∀ a ∈ actions, a.path ≠ path) :
    (t.acts actions).1.entries[path]? = t.entries[path]? := by
  induction actions generalizing t with
  | nil => rfl
  | cons a rest ih =>
    have ha := h a List.mem_cons_self
    have hrest := ih (t := (t.act a).1) fun b hb => h b (List.mem_cons_of_mem _ hb)
    exact hrest.trans (getElem?_act_of_ne ha)

theorem getElem?_commit_of_ne {x : Transaction} (hs : ∀ a ∈ x.success, a.path ≠ path)
    (hf : ∀ a ∈ x.failure, a.path ≠ path) :
    (t.commit x).2.entries[path]? = t.entries[path]? := by
  refine getElem?_acts_of_ne fun a ha => ?_
  unfold branch at ha
  split at ha
  · exact hs a ha
  · exact hf a ha

/-! ## Comparisons -/

theorem revisionOf_eq_zero_iff (h : t.Valid) : t.revisionOf path = 0 ↔ t.entries[path]? = none := by
  unfold revisionOf
  cases he : t.entries[path]? with
  | none => simp
  | some e =>
    simp only [reduceCtorEq, iff_false]
    exact Int.ne_of_gt (h.written path e he).1

theorem revisionOf_eq {e : Entry} (h : t.entries[path]? = some e) :
    t.revisionOf path = e.revision := by
  simp [revisionOf, h]

theorem satisfies_absent_iff (h : t.Valid) :
    t.satisfies (.absent path) = true ↔ t.entries[path]? = none := by
  rw [← revisionOf_eq_zero_iff h]
  exact decide_eq_true_iff

theorem satisfies_present_iff (h : t.Valid) :
    t.satisfies (.present path) = true ↔ t.entries[path]? ≠ none := by
  rw [ne_eq, ← revisionOf_eq_zero_iff h]
  exact decide_eq_true_iff

theorem satisfies_present_iff_mem (h : t.Valid) :
    t.satisfies (.present path) = true ↔ path ∈ t.entries := by
  rw [satisfies_present_iff h, Std.ExtTreeMap.mem_iff_isSome_getElem?, Option.isSome_iff_ne_none]

theorem satisfies_writtenAt {e : Entry} (h : t.entries[path]? = some e) :
    t.satisfies (.writtenAt path e.revision) = true := by
  simp [satisfies, Comparison.writtenAt, Comparison.holds, revisionOf, h]

/-- A path is unchanged since it has been seen as it is now. -/
theorem satisfies_unchangedSince_found {found : Option Entry} (h : t.Valid)
    (hfound : t.entries[path]? = found) :
    t.satisfies (Pair.unchangedSince path (found.elim 0 Entry.revision)) = true := by
  cases found with
  | none => exact (satisfies_absent_iff h).2 hfound
  | some e =>
    have hne : e.revision ≠ 0 := Int.ne_of_gt (h.written path e hfound).1
    rw [Option.elim_some, Pair.unchangedSince, if_neg hne]
    exact satisfies_writtenAt hfound

/-! ## Conditional writes -/

/-- The table after a put. -/
def put (t : Table) (path : String) (bytes : Bytes) (ttl : Option Duration) : Table :=
  ⟨t.revision + 1, t.entries.insert path ⟨bytes, t.revision + 1, ttl⟩⟩

/-- The table after the deletion of a path that exists. -/
def drop (t : Table) (path : String) : Table := ⟨t.revision + 1, t.entries.erase path⟩

theorem Valid.put (h : t.Valid) (path : String) (bytes : Bytes) (ttl : Option Duration) :
    (t.put path bytes ttl).Valid := h.act (.put path bytes ttl)

theorem Valid.drop (h : t.Valid) (hm : path ∈ t.entries) : (t.drop path).Valid := by
  have hact := h.act (.delete path)
  rwa [show (t.act (.delete path)).1 = t.drop path from if_pos hm] at hact

theorem getElem?_put_self {bytes : Bytes} {ttl : Option Duration} :
    (t.put path bytes ttl).entries[path]? = some ⟨bytes, t.revision + 1, ttl⟩ :=
  Std.ExtTreeMap.getElem?_insert_self

theorem getElem?_drop_self : (t.drop path).entries[path]? = none :=
  Std.ExtTreeMap.getElem?_erase_self

theorem commit_putIf {c : Comparison} {bytes : Bytes} {ttl : Option Duration} :
    t.commit (Pair.putIf c path bytes ttl) =
      if t.satisfies c then (⟨true, t.revision + 1, []⟩, t.put path bytes ttl)
      else (⟨false, t.revision, []⟩, t) := by
  unfold commit branch Pair.putIf
  cases h : t.satisfies c <;> rfl

theorem commit_putIf_of_satisfies {c : Comparison} {bytes : Bytes} {ttl : Option Duration}
    (h : t.satisfies c = true) :
    (t.commit (Pair.putIf c path bytes ttl)).2 = t.put path bytes ttl := by
  rw [commit_putIf, if_pos h]

theorem commit_deleteIfPresent (h : t.Valid) :
    t.commit (Key.deleteIfPresent path) =
      if path ∈ t.entries then (⟨true, t.revision + 1, []⟩, t.drop path)
      else (⟨false, t.revision, []⟩, t) := by
  have hiff : t.satisfies (.present path) = true ↔ path ∈ t.entries := satisfies_present_iff_mem h
  unfold commit branch Key.deleteIfPresent
  by_cases hm : path ∈ t.entries
  · simp [hiff.2 hm, hm, acts, act, drop]
  · have hs : t.satisfies (.present path) = false := Bool.eq_false_iff.2 fun hs => hm (hiff.1 hs)
    simp [hs, hm, acts, act, get?]

/-- What a conditional write changes is its path, and only if the comparison holds. -/
theorem changes_putIf {c : Comparison} {bytes : Bytes} {ttl : Option Duration}
    (h : (t.commit (Pair.putIf c path bytes ttl)).2.entries[other]? ≠ t.entries[other]?) :
    path = other ∧ t.satisfies c = true := by
  rw [commit_putIf] at h
  split at h
  · rename_i hs
    refine ⟨Classical.byContradiction fun hne => h ?_, hs⟩
    exact Std.ExtTreeMap.getElem?_insert.trans (if_neg fun heq => hne (by simpa using heq))
  · exact absurd rfl h

/-- Neither transaction of a conditional write names another path. -/
theorem getElem?_commit_putIf_of_ne {c : Comparison} {bytes : Bytes} {ttl : Option Duration}
    (h : path ≠ other) :
    (t.commit (Pair.putIf c path bytes ttl)).2.entries[other]? = t.entries[other]? :=
  getElem?_commit_of_ne (by simp [Pair.putIf, Action.path, h]) (by simp [Pair.putIf])

theorem getElem?_commit_deleteIfPresent_of_ne (h : path ≠ other) :
    (t.commit (Key.deleteIfPresent path)).2.entries[other]? = t.entries[other]? :=
  getElem?_commit_of_ne (by simp [Key.deleteIfPresent, Action.path, h])
    (by simp [Key.deleteIfPresent, Action.path, h])

/-! ## Tables over time -/

/-- What a table may become. The entry of a path is the same, or it is gone, or it has been written
at a revision that the table had not come to. -/
structure Becomes (t u : Table) : Prop where
  revision_le : t.revision ≤ u.revision
  entry : ∀ path : String, u.entries[path]? = t.entries[path]? ∨
    ∀ e : Entry, u.entries[path]? = some e → t.revision < e.revision

theorem Becomes.refl (t : Table) : t.Becomes t := ⟨Int.le_refl _, fun _ => .inl rfl⟩

theorem Becomes.trans (htu : t.Becomes u) (huv : u.Becomes v) : t.Becomes v where
  revision_le := Int.le_trans htu.revision_le huv.revision_le
  entry path := by
    have hrevision := htu.revision_le
    rcases huv.entry path with hv | hv
    · rw [hv]
      exact htu.entry path
    · right
      intro e he
      exact Int.lt_of_le_of_lt hrevision (hv e he)

theorem becomes_act (t : Table) (a : Action) : t.Becomes (t.act a).1 := by
  cases a with
  | put written value ttl =>
    refine ⟨Int.le_add_one (Int.le_refl _), fun path => ?_⟩
    simp only [act, Std.ExtTreeMap.getElem?_insert, Std.LawfulEqCmp.compare_eq_iff_eq]
    by_cases hp : written = path
    · right
      intro e he
      rw [if_pos hp] at he
      cases he
      exact Int.lt_succ _
    · left
      rw [if_neg hp]
  | delete gone =>
    simp only [act]
    split
    · refine ⟨Int.le_add_one (Int.le_refl _), fun path => ?_⟩
      simp only [Std.ExtTreeMap.getElem?_erase, Std.LawfulEqCmp.compare_eq_iff_eq]
      by_cases hp : gone = path
      · right
        intro e he
        rw [if_pos hp] at he
        cases he
      · left
        rw [if_neg hp]
    · exact .refl t
  | get path => exact .refl t

theorem becomes_acts (t : Table) (actions : List Action) : t.Becomes (t.acts actions).1 := by
  induction actions generalizing t with
  | nil => exact .refl t
  | cons a rest ih => exact (becomes_act t a).trans (ih (t.act a).1)

theorem becomes_commit (t : Table) (x : Transaction) : t.Becomes (t.commit x).2 :=
  becomes_acts t _

/-- A revision is not used again: what a path holds at it is what the path held at it before. -/
theorem Becomes.entry_eq {e e' : Entry} (h : t.Becomes u) (ht : t.Valid)
    (he : t.entries[path]? = some e) (he' : u.entries[path]? = some e')
    (hr : e'.revision = e.revision) : e' = e := by
  rcases h.entry path with hsame | hnew
  · rw [hsame, he] at he'
    exact (Option.some.inj he').symm
  · have hlt := hnew e' he'
    have hle := (ht.written path e he).2
    rw [hr] at hlt
    exact absurd hle (Int.not_le.2 hlt)

theorem Becomes.getElem?_eq (h : t.Becomes u) (ht : t.Valid) (hu : u.Valid)
    (hr : u.revisionOf path = t.revisionOf path) : u.entries[path]? = t.entries[path]? := by
  cases he : u.entries[path]? with
  | none =>
    rw [(revisionOf_eq_zero_iff hu).2 he] at hr
    exact ((revisionOf_eq_zero_iff ht).1 hr.symm).symm
  | some e' =>
    cases he₀ : t.entries[path]? with
    | none =>
      rw [(revisionOf_eq_zero_iff ht).2 he₀] at hr
      rw [(revisionOf_eq_zero_iff hu).1 hr] at he
      cases he
    | some e =>
      rw [revisionOf_eq he, revisionOf_eq he₀] at hr
      exact congrArg some (h.entry_eq ht he₀ he hr)

end ClusterSync.Table

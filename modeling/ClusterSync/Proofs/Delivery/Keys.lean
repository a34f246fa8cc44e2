import ClusterSync.Proofs.Datastore.Paths
import ClusterSync.Proofs.Delivery.Rounds

/-!
# Keys of names and of objects

An object is written under the key that is made from the object itself and deleted under the key
that is made from its name.

**Theorem (`WatchedObject.paths_identify`).** The two are one key, with one path for writing and for
deleting, and no two keys that stand for different things share a path.

**Theorem (`Kind.missing_name_refused`).** A name that is empty is refused before there is a path,
and its deletion before there is a call, by nodes always and by policies if it has no namespace. A
policy's name is looked at with its namespace in front: `ns/` is not empty, and has a path.
-/

namespace ClusterSync

open Text

/-! ## Names that are refused -/

namespace Kind

variable {kind : Kind} {n : ObjectName}

/-- A name of which nothing is left in its key. -/
def Refuses (kind : Kind) (n : ObjectName) : Prop :=
  n.name = "" ∧ (kind = .node ∨ n.space? = none)

instance : Decidable (kind.Refuses n) := inferInstanceAs (Decidable (_ ∧ _))

theorem path_keyFor_eq (kind : Kind) (n : ObjectName) :
    (kind.keyFor n).path =
      if kind.Refuses n then .error (.missing "name") else .ok (kind.pathFor n) := by
  by_cases hname : n.name = ""
  · obtain ⟨space?, name⟩ := n
    subst hname
    cases kind with
    | node => exact (if_pos ⟨rfl, .inl rfl⟩).symm
    | policy =>
      cases space? with
      | none => exact (if_pos ⟨rfl, .inr rfl⟩).symm
      | some space =>
        -- The slash behind the namespace is left of the name.
        have hslash : space ++ "/" ++ "" ≠ "" := by simp
        rw [if_neg fun h => h.2.elim nofun nofun]
        exact if_neg hslash
  · rw [if_neg fun h => hname h.1, path_keyFor_of_name hname]

theorem says_delete (h : kind.Refuses n) :
    (Handler.delete kind n).Says (.error (.store (.missingPart "name"))) := by
  have hpath : (Task.delete kind n).key.path = .error (.missing "name") :=
    (path_keyFor_eq kind n).trans (if_pos h)
  have hsays := Task.says_dialogue hpath
  rwa [Task.result, hpath] at hsays

theorem delete_eq_commit (h : ¬ kind.Refuses n) :
    ∃ next, Handler.delete kind n = .commit (Key.deleteIfPresent (kind.pathFor n)) next := by
  unfold Handler.delete Key.remove Key.deletePath
  rw [path_keyFor_eq, if_neg h]
  exact ⟨_, rfl⟩

/-- Which names have no path, and that the deletion of such a name makes no call and is given up,
while any other deletion begins with its transaction. -/
theorem missing_name_refused (kind : Kind) (n : ObjectName) :
    (kind.keyFor n).path =
      (if kind.Refuses n then .error (.missing "name") else .ok (kind.pathFor n)) ∧
    (kind.keyFor n).deletePath =
      (if kind.Refuses n then .error (.missing "name") else .ok (kind.pathFor n)) ∧
    (if kind.Refuses n
      then (Handler.delete kind n).Says (.error (.store (.missingPart "name")))
      else ∃ next, Handler.delete kind n = .commit (Key.deleteIfPresent (kind.pathFor n)) next) ∧
    (DeliveryError.store (.missingPart "name")).retryable = false := by
  refine ⟨path_keyFor_eq kind n, path_keyFor_eq kind n, ?_, rfl⟩
  split
  · rename_i h
    exact says_delete h
  · rename_i h
    exact delete_eq_commit h

/-- A policy without a name has a path, and its deletion makes a call. -/
theorem unnamed_policy_has_path :
    (Kind.policy.keyFor (.namespaced "ns" "")).path = .ok "/nimbess/unp/ns/" ∧
    (Kind.policy.keyFor (.namespaced "ns" "")).deletePath = .ok "/nimbess/unp/ns/" ∧
    ¬ (Handler.delete .policy (.namespaced "ns" "")).Says (.error (.store (.missingPart "name"))) := by
  have hkept : ¬ Kind.policy.Refuses (.namespaced "ns" "") := by decide
  obtain ⟨next, hnext⟩ := delete_eq_commit hkept
  refine ⟨by decide, by decide, ?_⟩
  rw [hnext]
  exact id

end Kind

/-! ## Keys of objects -/

namespace WatchedObject

/-- An object's key and the key that belongs to its name have one path to write and to delete, and
keys that share a path are the same, as are the names of policies that do. -/
theorem paths_identify :
    (∀ o : WatchedObject, o.IsNamed → ∃ n path, o.objectName? = some n ∧
      o.key.path = .ok path ∧ o.key.deletePath = .ok path ∧
      (o.kind.keyFor n).path = .ok path ∧ (o.kind.keyFor n).deletePath = .ok path) ∧
    (∀ key key' : Key, key.IsProper → key'.IsProper → key.path = key'.path → key = key') ∧
    (∀ text text' n n', ObjectName.ofString text = .ok n → ObjectName.ofString text' = .ok n' →
      (Kind.policy.keyFor n).path = (Kind.policy.keyFor n').path → n = n') := by
  refine ⟨fun o ho => ?_, fun key key' => Key.IsProper.eq_of_path_eq,
    fun text text' n n' h h' hp => ?_⟩
  · obtain ⟨n, -, hname⟩ := ho.names
    have hpath : (o.kind.keyFor n.queued).path = .ok (o.kind.pathFor n.queued) :=
      Kind.path_keyFor_of_name (name_of_objectName? hname).2
    have hkey := key_eq_keyFor hname
    exact ⟨n.queued, _, hname, hkey ▸ hpath, hkey ▸ hpath, hpath, hpath⟩
  · have hkeys : Key.policy n.toString = Key.policy n'.toString :=
      Key.IsProper.eq_of_path_eq ⟨text, n, h, rfl⟩ ⟨text', n', h', rfl⟩ hp
    have htext : text = text' := by
      rw [← ObjectName.toString_of_ofString h, ← ObjectName.toString_of_ofString h']
      exact Key.policy.inj hkeys
    subst htext
    exact Except.ok.inj (h.symm.trans h')

section Example

/-- A policy whose metadata gives an empty namespace, which is none. -/
def unscoped : WatchedObject :=
  .policy { metadata := { name := some "p1", «namespace» := some "" }, spec := {} }

theorem paths_identify_of_unscoped :
    unscoped.IsNamed ∧
    (∃ n path, unscoped.objectName? = some n ∧
      unscoped.key.path = .ok path ∧ unscoped.key.deletePath = .ok path ∧
      (unscoped.kind.keyFor n).path = .ok path ∧ (unscoped.kind.keyFor n).deletePath = .ok path) ∧
    (Key.node "h1").IsProper ∧ (Key.hostConfig "h1" "a/config/b").IsProper ∧
    (Key.node "h1").path ≠ (Key.hostConfig "h1" "a/config/b").path ∧
    ObjectName.ofString "ns/p1" = .ok (.namespaced "ns" "p1") ∧
    ObjectName.ofString "p1" = .ok (.cluster "p1") ∧
    (Kind.policy.keyFor (.namespaced "ns" "p1")).path ≠
      (Kind.policy.keyFor (.cluster "p1")).path := by
  have hnamed : unscoped.IsNamed := ⟨"p1", rfl, by decide⟩
  have hnode : (Key.node "h1").IsProper := (by decide : IsPart "h1")
  have hconfig : (Key.hostConfig "h1" "a/config/b").IsProper := ⟨hnode, by decide⟩
  have hscoped : ObjectName.ofString "ns/p1" = .ok (.namespaced "ns" "p1") := by decide
  have hcluster : ObjectName.ofString "p1" = .ok (.cluster "p1") := by decide
  obtain ⟨hobjects, hkeys, hnames⟩ := paths_identify
  refine ⟨hnamed, hobjects unscoped hnamed, hnode, hconfig, fun h => ?_, hscoped, hcluster,
    fun h => ?_⟩
  · cases hkeys _ _ hnode hconfig h
  · cases hnames _ _ _ _ hscoped hcluster h

end Example

end WatchedObject

end ClusterSync

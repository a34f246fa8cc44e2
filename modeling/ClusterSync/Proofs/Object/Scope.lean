import ClusterSync.Delivery.Content

/-!
# Names within a scope and their paths

The objects of one kind belong either all to the whole cluster or all to namespaces. Within such a
scope the names of objects are unambiguous: an object is queued under the name under which it is
cached, and two names never share a path.

The paths of namespaced names keep apart because neither part of such a name holds a slash.
-/

namespace ClusterSync

open Text

/-! ## Names -/

/-- Whether objects belong to the whole cluster or to namespaces. -/
inductive Scope
  | cluster | namespaced
  deriving DecidableEq, Repr

/-- A text that can stand between two slashes. -/
def IsPart (s : String) : Prop := s ≠ "" ∧ '/' ∉ s.toList

instance (s : String) : Decidable (IsPart s) := inferInstanceAs (Decidable (_ ∧ _))

namespace Scope

variable {scope : Scope} {n m : ObjectName}

/-- The names of the objects in a scope. -/
def Contains : Scope → ObjectName → Prop
  | .cluster, n => n.space? = none ∧ IsPart n.name
  | .namespaced, n => (∃ space, n.space? = some space ∧ IsPart space) ∧ IsPart n.name

instance (scope : Scope) (n : ObjectName) : Decidable (scope.Contains n) :=
  match scope with
  | .cluster => inferInstanceAs (Decidable (_ ∧ _))
  | .namespaced => decidable_of_iff ((∃ space ∈ n.space?, IsPart space) ∧ IsPart n.name) .rfl

/-- Names that a scope keeps apart: none is empty, and either all have a namespace or none has. -/
def Allows : Scope → ObjectName → Prop
  | .cluster, n => n.space? = none ∧ n.name ≠ ""
  | .namespaced, n => (∃ space, n.space? = some space ∧ space ≠ "") ∧ n.name ≠ ""

instance (scope : Scope) (n : ObjectName) : Decidable (scope.Allows n) :=
  match scope with
  | .cluster => inferInstanceAs (Decidable (_ ∧ _))
  | .namespaced => decidable_of_iff ((∃ space ∈ n.space?, space ≠ "") ∧ n.name ≠ "") .rfl

theorem Contains.allows (h : scope.Contains n) : scope.Allows n := by
  cases scope with
  | cluster => exact ⟨h.1, h.2.1⟩
  | namespaced =>
    obtain ⟨⟨space, hspace, hpart⟩, hname⟩ := h
    exact ⟨⟨space, hspace, hpart.1⟩, hname.1⟩

theorem Contains.isPart_name (h : scope.Contains n) : IsPart n.name := by
  cases scope with
  | cluster => exact h.2
  | namespaced => exact h.2

theorem Allows.name_ne (h : scope.Allows n) : n.name ≠ "" := by
  cases scope with
  | cluster => exact h.2
  | namespaced => exact h.2

/-- A namespace that is given is not empty. -/
theorem Allows.space?_ne (h : scope.Allows n) : n.space? ≠ some "" := by
  cases scope with
  | cluster => rw [h.1]; nofun
  | namespaced =>
    obtain ⟨⟨space, hspace, hne⟩, -⟩ := h
    rw [hspace]
    exact fun heq => hne (Option.some.inj heq)

/-- A name without its namespace is in the scope only if it is the name itself. -/
theorem Allows.eq_of_cluster (h : scope.Allows n) (hc : scope.Allows (.cluster n.name)) :
    ObjectName.cluster n.name = n := by
  obtain ⟨space?, name⟩ := n
  cases scope with
  | cluster => exact congrArg (ObjectName.mk · name) h.1.symm
  | namespaced =>
    obtain ⟨⟨space, hspace, -⟩, -⟩ := hc
    cases hspace

end Scope

namespace ObjectName

/-- The name under which an object is queued that is cached under a name: the empty text is no
namespace. -/
def queued (n : ObjectName) : ObjectName := ⟨n.space?.filter (· ≠ ""), n.name⟩

theorem queued_of_ne {n : ObjectName} (h : n.space? ≠ some "") : n.queued = n := by
  obtain ⟨_ | space, name⟩ := n
  · rfl
  · rw [queued, Option.filter_some, if_pos (by simpa using h)]

theorem queued_of_eq {n : ObjectName} (h : n.space? = some "") : n.queued = cluster n.name := by
  rw [queued, h]
  rfl

/-- The first slash is the one between the parts if there is none in the first part. -/
theorem splitSlash_append {before : List Char} (h : '/' ∉ before) (after : List Char) :
    splitSlash (before ++ '/' :: after) = some (before, after) := by
  induction before with
  | nil => rfl
  | cons c cs ih =>
    obtain ⟨hc, hcs⟩ := not_or.1 (mt List.mem_cons.2 h)
    rw [List.cons_append, splitSlash, if_neg (Ne.symm hc), ih hcs]
    rfl

theorem toString_inj {scope : Scope} {n m : ObjectName} (hn : scope.Contains n)
    (hm : scope.Contains m) (h : n.toString = m.toString) : n = m := by
  obtain ⟨nspace?, nname⟩ := n
  obtain ⟨mspace?, mname⟩ := m
  cases scope with
  | cluster =>
    obtain ⟨rfl, -⟩ := hn
    obtain ⟨rfl, -⟩ := hm
    exact congrArg _ h
  | namespaced =>
    obtain ⟨⟨nspace, rfl, -, hnslash⟩, -⟩ := hn
    obtain ⟨⟨mspace, rfl, -, hmslash⟩, -⟩ := hm
    have hlist := congrArg (splitSlash ·.toList) h
    simp only [toString, String.toList_append, List.append_assoc] at hlist
    rw [show "/".toList = ['/'] from rfl, List.singleton_append, List.singleton_append,
      splitSlash_append hnslash, splitSlash_append hmslash] at hlist
    simp only [Option.some.injEq, Prod.mk.injEq, String.toList_inj] at hlist
    rw [hlist.1, hlist.2]

theorem toString_ne_empty_of_name {n : ObjectName} (h : n.name ≠ "") : n.toString ≠ "" := by
  unfold toString
  split
  · exact fun he => h (String.append_eq_empty_iff.1 he).2
  · exact h

end ObjectName

/-! ## Paths -/

namespace Kind

variable {kind : Kind} {scope : Scope} {n m : ObjectName}

/-- Nodes belong to the whole cluster. -/
def Fits (kind : Kind) (scope : Scope) : Prop := kind = .node → scope = .cluster

/-- The path that belongs to a name. -/
def pathFor : Kind → ObjectName → String
  | .node, n => Key.hostRoot ++ n.name
  | .policy, n => Key.policyRoot ++ n.toString

/-- The paths of the keys of a kind. -/
def Owns (kind : Kind) (path : String) : Prop := ∃ n, (kind.keyFor n).path = .ok path

theorem path_keyFor_of_name (h : n.name ≠ "") : (kind.keyFor n).path = .ok (kind.pathFor n) := by
  cases kind with
  | node => exact if_neg h
  | policy => exact if_neg (ObjectName.toString_ne_empty_of_name h)

theorem path_keyFor (h : scope.Contains n) : (kind.keyFor n).path = .ok (kind.pathFor n) :=
  path_keyFor_of_name h.isPart_name.1

theorem owns_pathFor (h : scope.Contains n) : kind.Owns (kind.pathFor n) := ⟨n, path_keyFor h⟩

/-- Where a kind has its keys. -/
def root : Kind → String
  | .node => Key.hostRoot
  | .policy => Key.policyRoot

theorem Owns.exists_rest {path : String} (h : kind.Owns path) :
    ∃ rest, path = kind.root ++ rest := by
  obtain ⟨n, hn⟩ := h
  cases kind with
  | node =>
    unfold keyFor Key.path at hn
    dsimp only at hn
    split at hn
    · cases hn
    · exact ⟨n.name, (Except.ok.inj hn).symm⟩
  | policy =>
    unfold keyFor Key.path at hn
    dsimp only at hn
    split at hn
    · cases hn
    · exact ⟨n.toString, (Except.ok.inj hn).symm⟩

/-- What is under the root of a kind is not under that of the other. -/
theorem root_inj {kind' : Kind} {rest rest' : String}
    (h : kind.root ++ rest = kind'.root ++ rest') : kind = kind' := by
  have hlists := congrArg String.toList h
  cases kind <;> cases kind' <;>
    simp [root, Key.hostRoot, Key.policyRoot, Key.root] at hlists ⊢

/-- No path belongs to both kinds. -/
theorem Owns.kind_eq {kind' : Kind} {path : String} (h : kind.Owns path) (h' : kind'.Owns path) :
    kind = kind' := by
  obtain ⟨rest, rfl⟩ := h.exists_rest
  obtain ⟨rest', heq⟩ := h'.exists_rest
  exact root_inj heq

theorem Owns.ne_readyPath {path : String} (h : kind.Owns path) : path ≠ Key.readyPath := by
  obtain ⟨rest, rfl⟩ := h.exists_rest
  intro heq
  have hlists := congrArg String.toList heq
  cases kind <;> simp [root, Key.hostRoot, Key.policyRoot, Key.readyPath, Key.root] at hlists

theorem pathFor_inj (hk : kind.Fits scope) (hn : scope.Contains n) (hm : scope.Contains m)
    (h : kind.pathFor n = kind.pathFor m) : n = m := by
  cases kind with
  | policy => exact ObjectName.toString_inj hn hm ((String.append_right_inj _).1 h)
  | node =>
    obtain ⟨nspace?, nname⟩ := n
    obtain ⟨mspace?, mname⟩ := m
    cases hk rfl
    obtain ⟨rfl, -⟩ := hn
    obtain ⟨rfl, -⟩ := hm
    exact congrArg _ ((String.append_right_inj _).1 h)

end Kind

/-! ## Objects -/

namespace WatchedObject

variable {kind : Kind} {scope : Scope} {n : ObjectName} {o : WatchedObject}

/-- An object of a kind with a name of a scope. -/
structure Bears (o : WatchedObject) (kind : Kind) (scope : Scope) (n : ObjectName) : Prop where
  kind : o.kind = kind
  cacheName : o.cacheName? = some n
  scope : scope.Contains n

instance : Decidable (o.Bears kind scope n) :=
  decidable_of_iff (o.kind = kind ∧ o.cacheName? = some n ∧ scope.Contains n)
    ⟨fun ⟨hk, hc, hs⟩ => ⟨hk, hc, hs⟩, fun h => ⟨h.kind, h.cacheName, h.scope⟩⟩

/-- An object has a name if its metadata gives one that is not empty. -/
def IsNamed (o : WatchedObject) : Prop := ∃ name, o.metadata.name = some name ∧ name ≠ ""

theorem IsNamed.names (h : o.IsNamed) :
    ∃ n, o.cacheName? = some n ∧ o.objectName? = some n.queued := by
  obtain ⟨name, hname, hne⟩ := h
  refine ⟨⟨o.metadata.namespace, name⟩, ?_, ?_⟩
  · rw [cacheName?, ObjectMeta.cacheName?, hname]
    rfl
  · unfold objectName? ObjectMeta.objectName?
    rw [hname]
    split
    · rename_i heq; cases heq
    · rename_i heq
      exact absurd (Option.some.inj heq) hne
    · rename_i heq
      cases heq
      rfl

theorem objectName?_eq_of_cacheName? (ho : o.IsNamed) (hn : o.cacheName? = some n) :
    o.objectName? = some n.queued := by
  obtain ⟨m, hm, hobject⟩ := ho.names
  cases hn.symm.trans hm
  exact hobject

/-- An object with a name that a scope allows is queued under the name under which it is cached. -/
theorem objectName?_eq_cacheName? (hcache : o.cacheName? = some n) (hs : scope.Allows n) :
    o.objectName? = some n := by
  obtain ⟨name, hname, rfl⟩ := Option.map_eq_some_iff.1 hcache
  have hnamed : o.IsNamed := ⟨name, hname, hs.name_ne⟩
  rw [objectName?_eq_of_cacheName? hnamed hcache, ObjectName.queued_of_ne hs.space?_ne]

theorem Bears.objectName (h : o.Bears kind scope n) : o.objectName? = some n :=
  objectName?_eq_cacheName? h.cacheName h.scope.allows

/-- An object is queued under a name only if its metadata gives that name, and then it is not
empty. -/
theorem name_of_objectName? (h : o.objectName? = some n) :
    o.metadata.name = some n.name ∧ n.name ≠ "" := by
  unfold objectName? ObjectMeta.objectName? at h
  split at h
  · cases h
  · cases h
  · rename_i name hne hname
    cases h
    exact ⟨hname, hne⟩

/-- The key of an object is the one that belongs to the name under which it is queued. -/
theorem key_eq_keyFor (h : o.objectName? = some n) : o.key = o.kind.keyFor n := by
  cases o with
  | node node =>
    have hname : node.metadata.name = some n.name := (name_of_objectName? h).1
    exact congrArg (Key.node <| Option.getD · "") hname
  | policy policy =>
    have hname : policy.metadata.objectName? = some n := h
    exact congrArg (fun name? => Key.policy ((name?.map ObjectName.toString).getD "")) hname

theorem Bears.key_eq (h : o.Bears kind scope n) : o.key = kind.keyFor n :=
  h.kind ▸ key_eq_keyFor h.objectName

/-- The bytes that the datastore is to hold for an object. -/
def bytes (o : WatchedObject) : Bytes :=
  match o.value with
  | .structured j => j.render.toUTF8
  | .text s => s.toUTF8
  | .flag b => Value.flagBytes b

theorem encode_value (o : WatchedObject) : o.value.encode o.key = .ok o.bytes := by
  cases o <;> rfl

/-- Whatever the object is called, its key is one of its kind. -/
theorem owns_path_key {path : String} (h : o.key.path = .ok path) : o.kind.Owns path := by
  cases o with
  | node node => exact ⟨.cluster (node.metadata.name.getD ""), h⟩
  | policy policy =>
    exact ⟨.cluster ((policy.metadata.objectName?.map ObjectName.toString).getD ""), h⟩

theorem Bears.path_key (h : o.Bears kind scope n) : o.key.path = .ok (kind.pathFor n) := by
  rw [h.key_eq, Kind.path_keyFor h.scope]

end WatchedObject

end ClusterSync

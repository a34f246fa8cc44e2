import ClusterSync.Proofs.Controller.Steady

/-!
# The datastore follows the cache

A pipeline starts with an empty cache and a table that has no key of its kind. It is fed by a watch
and nobody else writes the table, which does not fail. A name is quiet if nothing waits for it and
no worker has it.

**Theorem (`keys_converge`).** Whenever no event is being taken in, the table has the key of a quiet
name exactly if the cache holds the name. All its keys of the kind belong to names that are not
quiet or that the cache holds.

**Theorem (`stored_ne_iff_foundOther`).** If moreover objects of the same name and version are to be
written alike, the key of a quiet name holds what the cached object asks for, unless the name has
last been handed out as added while its path held something else. Before that a deletion of the
name must have been added, and the name must have been handed out as added only since then: the
deletion gave way to the addition.

**Theorem (`deletion_gives_way`).** That happens: a node is written, goes away and comes back with
another address range before its deletion is carried out, and the old range stays.
-/

namespace ClusterSync

open Text

namespace Scene

/-- Nothing waits for a name and no worker has it. -/
def Quiet {σ : Type} (s : Scene σ) (n : ObjectName) : Prop :=
  n ∉ s.pipeline.backlog.pending ∧ ∀ w ∈ s.pipeline.workers, w.name? ≠ some n

instance {σ : Type} (s : Scene σ) (n : ObjectName) : Decidable (s.Quiet n) :=
  inferInstanceAs (Decidable (_ ∧ _))

variable {f : Feed} {t : Table} {backoff : Backoff} {maxRetries workers : Nat}
  {past : History Table} {s : Scene Table} {n : ObjectName}

/-- The path of a quiet name holds what the cache asks for, as far as the course allows. -/
theorem Steady.settled (h : s.Steady f past) (ho : s.owed = []) (hn : f.scope.Contains n)
    (hq : s.Quiet n) :
    f.Settled past n (s.pipeline.cache.contents? n) (s.found? f n) := by
  have hdue : s.due? n = none := by
    rw [due?_of_owed_eq_nil ho, getElem?_eq_none_iff]
    exact hq.1
  refine ((h.course n hn).settled hdue).free fun hheld => ?_
  obtain ⟨i, w, hw, hname⟩ := h.orderly.had hheld
  exact hq.2 w (List.mem_of_getElem? hw) hname

theorem keys_converge (hf : f.kind.Fits f.scope) (ht : t.Reached)
    (hempty : ∀ path ∈ t.entries, ¬ f.kind.Owns path)
    (hr : Reaches Table.backend f.May (initial f.kind backoff maxRetries workers t) past s)
    (ho : s.owed = []) :
    (∀ n, f.scope.Contains n → s.Quiet n → ∃ path, (f.kind.keyFor n).path = .ok path ∧
      (path ∈ s.store.entries ↔ s.pipeline.cache.Holds n)) ∧
    ∀ path ∈ s.store.entries, f.kind.Owns path → ∃ n, f.scope.Contains n ∧
      (f.kind.keyFor n).path = .ok path ∧ (s.Quiet n → s.pipeline.cache.Holds n) := by
  have h := (steady_initial ht.valid hempty backoff maxRetries workers).reaches hf hr
  have hkey : ∀ n, f.scope.Contains n → s.Quiet n →
      (f.kind.pathFor n ∈ s.store.entries ↔ s.pipeline.cache.Holds n) := fun n hn hq => by
    have hsettled := h.settled ho hn hq
    rw [h.cache.holds_iff, Std.ExtTreeMap.mem_iff_isSome_getElem?]
    cases hcontents : s.pipeline.cache.contents? n with
    | none =>
      rw [hcontents] at hsettled
      rw [show s.store.entries[f.kind.pathFor n]? = none from hsettled]
      simp
    | some bytes =>
      rw [hcontents] at hsettled
      obtain ⟨e, he, -⟩ := hsettled
      rw [show s.store.entries[f.kind.pathFor n]? = some e from he]
      simp
  refine ⟨fun n hn hq => ⟨_, Kind.path_keyFor hn, hkey n hn hq⟩, fun path hpath howns => ?_⟩
  obtain ⟨n, hn, rfl⟩ := h.paths path hpath howns
  exact ⟨n, hn, Kind.path_keyFor hn, fun hq => (hkey n hn hq).1 hpath⟩

theorem stored_ne_iff_foundOther (hf : f.kind.Fits f.scope) (hv : f.versioned) (ht : t.Reached)
    (hempty : ∀ path ∈ t.entries, ¬ f.kind.Owns path)
    (hr : Reaches Table.backend f.May (initial f.kind backoff maxRetries workers t) past s)
    (ho : s.owed = []) {m : ObjectName} {o : WatchedObject}
    (hcached : s.pipeline.cache.objects[m]? = some o) (hname : o.objectName? = some n)
    (hq : s.Quiet n) :
    ∃ path bytes e, o.pair.key.path = .ok path ∧ o.pair.value.encode o.pair.key = .ok bytes ∧
      s.store.entries[path]? = some e ∧
      (e.value ≠ bytes ↔ past.FoundOther n path bytes) ∧ (e.value ≠ bytes → past.Buried n) := by
  have h := (steady_initial ht.valid hempty backoff maxRetries workers).reaches hf hr
  have hbears := h.cache.objects m o hcached
  cases hbears.objectName.symm.trans hname
  have hsettled := h.settled ho hbears.scope hq
  rw [Cache.contents?, hcached] at hsettled
  obtain ⟨e, he, hvalue⟩ := hsettled
  exact ⟨_, _, e, hbears.path_key, o.encode_value, he, hvalue hv⟩

/-! ## A node that comes back -/

section Example

/-- Nodes whose versions tell them apart. -/
def nodeFeed : Feed := ⟨.node, .cluster, True⟩

instance : Decidable nodeFeed.versioned := isTrue trivial

/-- A node in some version, with an address range. -/
def nodeWith (version podCIDR : String) : WatchedObject :=
  .node {
    metadata := { name := some "n1", resourceVersion := some version }
    podCIDR := some podCIDR }

def nodeStart : Scene Table := initial .node (.initial ⟨5000000⟩ ⟨1000000000⟩) 5 1 .initial

/-- A worker takes an item and works on it to the end. -/
def workOff : List Move := List.replicate 6 (.advance 0)

/-- A node appears and is written. -/
def nodeAppears : List Move := [.takeIn (.applied (nodeWith "1" "10.244.1.0/24")), .hand] ++ workOff

/-- The node goes away and comes back with another address range before anything is done. -/
def nodeReturns : List Move :=
  [.takeIn (.deleted (nodeWith "1" "10.244.1.0/24")), .hand,
    .takeIn (.applied (nodeWith "2" "10.244.9.0/24")), .hand] ++ workOff

/-- What has occurred in the end, and the scene then. -/
def nodeReturned : History Table × Scene Table :=
  nodeStart.play Table.backend [] (nodeAppears ++ nodeReturns)

theorem nodeStart_empty : ∀ path ∈ Table.initial.entries, ¬ Kind.node.Owns path :=
  fun _ hp => absurd hp Std.ExtTreeMap.not_mem_empty

theorem reaches_nodeReturned :
    Reaches Table.backend nodeFeed.May nodeStart nodeReturned.1 nodeReturned.2 := by
  refine Reaches.start.play _ ?_
  decide +kernel

theorem owed_nodeReturned : nodeReturned.2.owed = [] := by decide +kernel

theorem quiet_nodeReturned : nodeReturned.2.Quiet (.cluster "n1") := by decide +kernel

/-- The cache holds the node as it came back. -/
theorem cached_nodeReturned :
    ∃ o, nodeReturned.2.pipeline.cache.objects[ObjectName.cluster "n1"]? = some o ∧
      o.objectName? = some (.cluster "n1") ∧ o.key = .node "n1" ∧
      o.bytes = (nodeWith "2" "10.244.9.0/24").bytes := by
  have hread : nodeReturned.2.pipeline.cache.objects[ObjectName.cluster "n1"]?.map
      (fun o => (o.objectName?, o.key, o.bytes)) =
        some (some (.cluster "n1"), .node "n1", (nodeWith "2" "10.244.9.0/24").bytes) := by
    decide +kernel
  obtain ⟨o, ho, heq⟩ := Option.map_eq_some_iff.1 hread
  simp only [Prod.mk.injEq] at heq
  exact ⟨o, ho, heq⟩

theorem keys_converge_of_nodeReturned :
    ∃ past s, Reaches Table.backend nodeFeed.May nodeStart past s ∧ s.owed = [] ∧
      s.Quiet (.cluster "n1") ∧ ∃ path, (Kind.node.keyFor (.cluster "n1")).path = .ok path ∧
        (path ∈ s.store.entries ↔ s.pipeline.cache.Holds (.cluster "n1")) := by
  have hf : nodeFeed.kind.Fits nodeFeed.scope := fun _ => rfl
  have hconverge := keys_converge hf .initial nodeStart_empty reaches_nodeReturned
    owed_nodeReturned
  have hn : nodeFeed.scope.Contains (.cluster "n1") := by decide +kernel
  exact ⟨_, _, reaches_nodeReturned, owed_nodeReturned, quiet_nodeReturned,
    hconverge.1 _ hn quiet_nodeReturned⟩

/-- The node is quiet, and its path holds the address range from before. -/
theorem deletion_gives_way :
    ∃ past s o path bytes e, Reaches Table.backend nodeFeed.May nodeStart past s ∧ s.owed = [] ∧
      s.pipeline.cache.objects[ObjectName.cluster "n1"]? = some o ∧
      o.objectName? = some (.cluster "n1") ∧ s.Quiet (.cluster "n1") ∧
      o.pair.key.path = .ok path ∧ o.pair.value.encode o.pair.key = .ok bytes ∧
      s.store.entries[path]? = some e ∧ e.value ≠ bytes := by
  obtain ⟨o, ho, hname, hkey, hbytes⟩ := cached_nodeReturned
  have hread : nodeReturned.2.store.entries["/nimbess/host/n1"]?.map Entry.value =
      some (nodeWith "1" "10.244.1.0/24").bytes := by
    decide +kernel
  have hne : (nodeWith "1" "10.244.1.0/24").bytes ≠ (nodeWith "2" "10.244.9.0/24").bytes := by
    decide +kernel
  have hpath : (Key.node "n1").path = .ok "/nimbess/host/n1" := rfl
  obtain ⟨e, he, hvalue⟩ := Option.map_eq_some_iff.1 hread
  refine ⟨_, _, o, "/nimbess/host/n1", o.bytes, e, reaches_nodeReturned, owed_nodeReturned, ho,
    hname, quiet_nodeReturned, ?_, o.encode_value, he, ?_⟩
  · rw [WatchedObject.pair, hkey]
    exact hpath
  · rw [hvalue, hbytes]
    exact hne

theorem stored_ne_iff_foundOther_of_nodeReturned :
    ∃ past s o path bytes e, Reaches Table.backend nodeFeed.May nodeStart past s ∧
      s.pipeline.cache.objects[ObjectName.cluster "n1"]? = some o ∧
      o.pair.key.path = .ok path ∧ o.pair.value.encode o.pair.key = .ok bytes ∧
      s.store.entries[path]? = some e ∧
      (e.value ≠ bytes ↔ past.FoundOther (.cluster "n1") path bytes) ∧
      (e.value ≠ bytes → past.Buried (.cluster "n1")) := by
  obtain ⟨o, ho, hname, -⟩ := cached_nodeReturned
  have hf : nodeFeed.kind.Fits nodeFeed.scope := fun _ => rfl
  obtain ⟨path, bytes, e, hpath⟩ := stored_ne_iff_foundOther hf trivial .initial nodeStart_empty
    reaches_nodeReturned owed_nodeReturned ho hname quiet_nodeReturned
  exact ⟨_, _, o, path, bytes, e, reaches_nodeReturned, ho, hpath⟩

end Example

end Scene

end ClusterSync

import ClusterSync.Object.Kind

/-!
# The cache of watched objects

The objects of one kind as the cluster last described them. Changes come one by one; a new list of
all objects is collected apart and replaces the contents when it is complete. Until the first list
is complete the cache is not synced.
-/

namespace ClusterSync

/-- An order in which names are gone through. -/
structure Arrangement where
  arrange : List ObjectName → List ObjectName
  perm (names : List ObjectName) : (arrange names).Perm names

/-- The names one after the other as they compare. -/
def Arrangement.sorted : Arrangement where
  arrange names := names.mergeSort fun a b => (compare a b).isLE
  perm names := List.mergeSort_perm names _

/-- News of the objects of a kind. -/
inductive WatchEvent
  /-- An object appeared or changed. -/
  | applied (o : WatchedObject)
  /-- An object went away. -/
  | deleted (o : WatchedObject)
  /-- A new list of all objects begins. -/
  | listBegins
  /-- An object of the new list. -/
  | listed (o : WatchedObject)
  /-- The new list is complete. What it has left out of the cache is found in any order. -/
  | listEnds (order : Arrangement := .sorted)

structure Cache where
  objects : Std.ExtTreeMap ObjectName WatchedObject
  /-- The objects of the list that is being read. -/
  arriving : Std.ExtTreeMap ObjectName WatchedObject
  /-- Whether a list has been completed. -/
  synced : Bool
  /-- Whether anyone can still change the cache. -/
  writable : Bool

namespace Cache

def initial : Cache := ⟨∅, ∅, false, true⟩

/-- The object of a name. A name that is not found in its namespace is looked up without one. -/
def get? (c : Cache) (name : ObjectName) : Option WatchedObject :=
  match c.objects[name]? with
  | some o => some o
  | none => c.objects[ObjectName.cluster name.name]?

/-- Takes an event in; none if its object has no name to be cached under. -/
def accept? (c : Cache) : WatchEvent → Option Cache
  | .applied o => o.cacheName?.map fun name => { c with objects := c.objects.insert name o }
  | .deleted o => o.cacheName?.map fun name => { c with objects := c.objects.erase name }
  | .listBegins => some { c with arriving := ∅ }
  | .listed o => o.cacheName?.map fun name => { c with arriving := c.arriving.insert name o }
  | .listEnds _ => some { c with objects := c.arriving, arriving := ∅, synced := true }

/-- Nobody changes the cache from now on. -/
def abandon (c : Cache) : Cache := { c with writable := false }

end Cache

end ClusterSync

import ClusterSync.Watch.Cache
import Std.Data.ExtTreeSet

/-!
# From news to work

Which work follows from an event, given the cache before the event. An object that is not cached
is an addition; one whose version differs from the cached one is an update; an object of the cache
that a complete new list leaves out is a deletion. What a list brings is held back until the list
is complete.
-/

namespace ClusterSync

/-- The list that is being read: the names seen in it so far and the work they lead to. -/
structure Listing where
  seen : Std.ExtTreeSet ObjectName
  held : List WorkItem

namespace Listing

def initial : Listing := ⟨∅, []⟩

/-- The change that an object amounts to; none if the cache has it in the same version, or if the
object has no name. -/
def changed? (o : WatchedObject) (cache : Cache) : Option WorkItem :=
  match o.objectName?, o.cacheName? with
  | some name, some cached =>
    match cache.get? cached with
    | none => some ⟨name, .add⟩
    | some old =>
      if old.resourceVersion?.isSome ∧ old.resourceVersion? = o.resourceVersion? then none
      else some ⟨name, .update⟩
  | _, _ => none

/-- Deletions, in the given order, for the cached objects that a complete list has left out. -/
def left (l : Listing) (cache : Cache) (order : Arrangement) : List WorkItem :=
  let names := cache.objects.toList.filterMap fun (_, o) => o.objectName?
  (order.arrange (names.filter (· ∉ l.seen))).map (⟨·, .delete⟩)

/-- Takes an event in and gives the work that follows from it. -/
def observe (l : Listing) (event : WatchEvent) (cache : Cache) : Listing × List WorkItem :=
  match event with
  | .applied o => (l, (changed? o cache).toList)
  | .deleted o => (l, (o.objectName?.map fun name => ⟨name, .delete⟩).toList)
  | .listBegins => (initial, [])
  | .listed o =>
    (⟨match o.objectName? with
      | some name => l.seen.insert name
      | none => l.seen, l.held ++ (changed? o cache).toList⟩, [])
  | .listEnds order => (initial, l.held ++ l.left cache order)

end Listing

end ClusterSync

import ClusterSync.Datastore.Transaction
import Std.Data.ExtTreeMap

/-!
# The datastore in memory

A table of entries with one revision for the whole table, raised by every write, and for each
entry the revision of its last write. A time to live is noted and nothing more.
-/

namespace ClusterSync

open Text

structure Entry where
  value : Bytes
  revision : Revision
  ttl : Option Duration
  deriving DecidableEq

structure Table where
  revision : Revision
  entries : Std.ExtTreeMap String Entry

namespace Table

def initial : Table := ⟨0, ∅⟩

/-- The revision at which a path was last written, 0 if it does not exist. -/
def revisionOf (t : Table) (path : String) : Revision :=
  match t.entries[path]? with
  | some e => e.revision
  | none => 0

/-- What a path holds. -/
def get? (t : Table) (path : String) : Option Stored :=
  t.entries[path]?.map fun e => ⟨e.value, e.revision⟩

/-- Carries out one action; what it reads comes second. A deletion of what does not exist is no
write. -/
def act (t : Table) : Action → Table × List Stored
  | .put path value ttl =>
    (⟨t.revision + 1, t.entries.insert path ⟨value, t.revision + 1, ttl⟩⟩, [])
  | .delete path =>
    (if path ∈ t.entries then ⟨t.revision + 1, t.entries.erase path⟩ else t, [])
  | .get path => (t, (t.get? path).toList)

/-- Carries out actions in their order. -/
def acts (t : Table) : List Action → Table × List Stored
  | [] => (t, [])
  | a :: rest =>
    let (t, here) := t.act a
    let (t, there) := t.acts rest
    (t, here ++ there)

/-- Whether a comparison holds now. -/
def satisfies (t : Table) (c : Comparison) : Bool := c.holds (t.revisionOf c.path)

/-- The actions that a transaction comes to now. -/
def branch (t : Table) (x : Transaction) : List Action :=
  if t.satisfies x.comparison then x.success else x.failure

/-- Carries out a transaction. -/
def commit (t : Table) (x : Transaction) : Outcome × Table :=
  let (after, reads) := t.acts (t.branch x)
  (⟨t.satisfies x.comparison, after.revision, reads⟩, after)

/-- The table as a datastore, which never fails. -/
def backend : Backend Table where
  commit x t := let (outcome, t) := t.commit x; (.ok outcome, t)
  read path t := (.ok (t.get? path), t)

end Table

end ClusterSync

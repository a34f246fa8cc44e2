import ClusterSync.Datastore.Error
import ClusterSync.Text.Duration
import ClusterSync.Text.Utf8

/-!
# Transactions

One comparison with the revision at which a path was last written, and two lists of actions: the
first is carried out if the comparison holds, the second if it does not.
-/

namespace ClusterSync

open Text

inductive Comparison.Relation
  | equal | notEqual
  deriving DecidableEq, Repr

/-- A comparison of the revision at which a path was last written. -/
structure Comparison where
  path : String
  relation : Comparison.Relation
  revision : Revision
  deriving DecidableEq, Repr

namespace Comparison

/-- The path does not exist. -/
def absent (path : String) : Comparison := ⟨path, .equal, 0⟩

/-- The path exists. -/
def present (path : String) : Comparison := ⟨path, .notEqual, 0⟩

/-- The path was last written at a revision. -/
def writtenAt (path : String) (revision : Revision) : Comparison := ⟨path, .equal, revision⟩

/-- Whether the comparison holds of a path that was last written at `revision`. -/
def holds (c : Comparison) (revision : Revision) : Bool :=
  match c.relation with
  | .equal => revision = c.revision
  | .notEqual => revision ≠ c.revision

end Comparison

inductive Action
  | put (path : String) (value : Bytes) (ttl : Option Duration)
  | delete (path : String)
  | get (path : String)
  deriving DecidableEq

def Action.path : Action → String
  | .put path _ _ | .delete path | .get path => path

structure Transaction where
  comparison : Comparison
  success : List Action
  failure : List Action
  deriving DecidableEq

/-- A value read from the datastore, with the revision at which it was written. -/
structure Stored where
  value : Bytes
  revision : Revision
  deriving DecidableEq

/-- What became of a transaction: whether its comparison held, the datastore's revision after it,
and what its `get` actions read. -/
structure Outcome where
  succeeded : Bool
  revision : Revision
  reads : List Stored
  deriving DecidableEq

/-- A datastore as its users see it: transactions and single reads, either of which may fail. -/
structure Backend (σ : Type) where
  commit : Transaction → σ → Except StoreError Outcome × σ
  read : String → σ → Except StoreError (Option Stored) × σ

end ClusterSync

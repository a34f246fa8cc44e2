import ClusterSync.Object.Node
import ClusterSync.Policy.Json

/-!
# Watched kinds

The kinds of objects that are kept in step with the datastore, and an object of either kind.
-/

namespace ClusterSync

inductive Kind
  | node | policy
  deriving DecidableEq, Repr

/-- An object of a watched kind. -/
inductive WatchedObject
  | node (node : ClusterNode)
  | policy (policy : NetworkPolicy)

namespace Kind

/-- The short name of a kind in messages, metrics and settings. -/
def label : Kind → String
  | .node => "node"
  | .policy => "unp"

/-- Reads an object of the kind as the cluster gives it, which is never as an array. -/
def read? (kind : Kind) (j : Json) : Option WatchedObject :=
  match kind, j with
  | .node, .obj _ => (ClusterNode.ofJson? j).map .node
  | .policy, .obj _ => (NetworkPolicy.ofJson? j).map .policy
  | _, _ => none

end Kind

namespace WatchedObject

def kind : WatchedObject → Kind
  | .node _ => .node
  | .policy _ => .policy

def metadata : WatchedObject → ObjectMeta
  | .node n => n.metadata
  | .policy p => p.metadata

/-- The name under which work on the object is queued. -/
def objectName? (o : WatchedObject) : Option ObjectName := o.metadata.objectName?

/-- The name under which the object is cached. -/
def cacheName? (o : WatchedObject) : Option ObjectName := o.metadata.cacheName?

def resourceVersion? (o : WatchedObject) : Option String := o.metadata.resourceVersion

end WatchedObject

end ClusterSync

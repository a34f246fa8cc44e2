import ClusterSync.Datastore.NodeRecord
import ClusterSync.Datastore.Pair
import ClusterSync.Object.Kind

/-!
# From objects to pairs

Which key belongs to an object, and what the datastore is to hold under it. A node becomes a
record of selected fields; a policy is kept as it is.
-/

namespace ClusterSync

namespace Kind

/-- The key that belongs to the object of a name. A node's key knows no namespace. -/
def keyFor : Kind → ObjectName → Key
  | .node, name => .node name.name
  | .policy, name => .policy name.toString

end Kind

namespace NodeRecord

/-- The record of a node. -/
def ofNode (n : ClusterNode) : NodeRecord where
  «namespace» := n.metadata.namespace.getD ""
  name := n.metadata.name.getD ""
  internalIP := n.addressOf "InternalIP"
  hostname := n.addressOf "Hostname"
  podCIDR := n.podCIDR.getD ""
  labels := n.metadata.labels.getD ∅
  uid := n.metadata.uid.getD ""

end NodeRecord

namespace WatchedObject

/-- The key that belongs to an object. -/
def key : WatchedObject → Key
  | .node n => .node (NodeRecord.ofNode n).name
  | .policy p => .policy ((p.metadata.objectName?.map ObjectName.toString).getD "")

/-- What the datastore is to hold for an object. -/
def value : WatchedObject → Value
  | .node n => .structured (NodeRecord.ofNode n).toJson
  | .policy p => .structured p.toJson

/-- The pair that stands for the present state of an object. -/
def pair (o : WatchedObject) : Pair := { key := o.key, value := o.value }

end WatchedObject

end ClusterSync

import ClusterSync.Object.Meta

/-!
# Cluster nodes

A machine of the cluster as the cluster describes it, as far as it is used here: its metadata, its
pod address range and its addresses.
-/

namespace ClusterSync

open Json

/-- An address of a node and what kind of address it is. -/
structure NodeAddress where
  address : String
  type : String
  deriving DecidableEq

structure ClusterNode where
  metadata : ObjectMeta := {}
  podCIDR : Option String := none
  addresses : List NodeAddress := []

namespace NodeAddress

/-- Reads an address; texts that are missing are empty. -/
def ofJson? (j : Json) : Option NodeAddress := do
  let fields ← j.objectFields?
  let text (key : String) : Option String := (optional? text? key fields).map (·.getD "")
  return ⟨← text "address", ← text "type"⟩

end NodeAddress

namespace ClusterNode

/-- A field that holds `expected` if it is there at all. -/
def constantField? (key expected : String) (fields : List (String × Json)) : Option Unit :=
  match field? key fields with
  | none => some ()
  | some value => if value = .str expected then some () else none

/-- Reads a node. Parts that are missing or null are absent. -/
def ofJson? (j : Json) : Option ClusterNode := do
  let fields ← j.objectFields?
  constantField? "apiVersion" "v1" fields
  constantField? "kind" "Node" fields
  let metadata ← optional? ObjectMeta.ofJson? "metadata" fields
  let spec ← optional? objectFields? "spec" fields
  let status ← optional? objectFields? "status" fields
  let podCIDR ← optional? text? "podCIDR" (spec.getD [])
  let addresses ← optional? (list? NodeAddress.ofJson?) "addresses" (status.getD [])
  return ⟨metadata.getD {}, podCIDR, addresses.getD []⟩

/-- The last address of a type, or an empty text. -/
def addressOf (type : String) (n : ClusterNode) : String :=
  n.addresses.foldl (fun found a => if a.type = type then a.address else found) ""

end ClusterNode

end ClusterSync

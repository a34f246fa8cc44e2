import ClusterSync.Json.Record
import ClusterSync.Json.Writer

/-!
# Node records

What the datastore keeps of a node. Fields that are empty are not written, and fields that are not
written are empty.
-/

namespace ClusterSync

open Json

structure NodeRecord where
  «namespace» : String := ""
  name : String := ""
  internalIP : String := ""
  hostname : String := ""
  podCIDR : String := ""
  labels : Labels := ∅
  uid : String := ""
  deriving DecidableEq

namespace NodeRecord

/-- The names of the fields as written, in the order of the array form. -/
def fieldNames : List String :=
  ["namespace", "name", "internalip", "hostname", "podCIDR", "labels", "uid"]

/-- Reads a record from its named parts, with readers for a text and for labels. -/
def ofFields? (text? : α → Option String) (labels? : α → Option Labels)
    (fields : List (String × α)) : Option NodeRecord := do
  let text (key : String) : Option String := orDefault? text? "" key fields
  return {
    «namespace» := ← text "namespace"
    name := ← text "name"
    internalIP := ← text "internalip"
    hostname := ← text "hostname"
    podCIDR := ← text "podCIDR"
    labels := ← orDefault? labels? ∅ "labels" fields
    uid := ← text "uid" }

/-- Reads a record from a value. -/
def ofJson? (j : Json) : Option NodeRecord :=
  (j.recordFields? fieldNames).bind (ofFields? Json.text? Json.labels?)

/-- Reads a record from text. A field written twice is refused, and so is nothing in fields of
other names. -/
def ofText? (text : String) : Option NodeRecord := do
  let tree ← Tree.ofText? text
  ofFields? Tree.text? Tree.labels? (← tree.recordFields? fieldNames)

def toJson (r : NodeRecord) : Json :=
  object <|
    textField "namespace" r.namespace
    ++ textField "name" r.name
    ++ textField "internalip" r.internalIP
    ++ textField "hostname" r.hostname
    ++ textField "podCIDR" r.podCIDR
    ++ (if r.labels = ∅ then [] else [("labels", ofLabels r.labels)])
    ++ textField "uid" r.uid

end NodeRecord

end ClusterSync

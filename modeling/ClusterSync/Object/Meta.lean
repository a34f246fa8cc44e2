import ClusterSync.Json.Record
import ClusterSync.Object.Name
import ClusterSync.Object.Timestamp

/-!
# Object metadata

What every watched object says about itself. A part that is missing or null is absent; every part
that is present is kept and written again, even if it is empty.
-/

namespace ClusterSync

open Json

/-- A reference to an object that another one depends on. -/
structure OwnerReference where
  apiVersion : String
  blockOwnerDeletion : Option Bool
  controller : Option Bool
  kind : String
  name : String
  uid : String
  deriving DecidableEq

/-- What one of those who write an object has written of it. -/
structure ManagedFields where
  apiVersion : Option String := none
  fieldsType : Option String := none
  /-- The set of the fields, which may be any value. -/
  fieldSet : Option Json := none
  manager : Option String := none
  operation : Option String := none
  subresource : Option String := none
  time : Option Timestamp := none

structure ObjectMeta where
  annotations : Option Labels := none
  creationTimestamp : Option Timestamp := none
  deletionGracePeriodSeconds : Option Int := none
  deletionTimestamp : Option Timestamp := none
  finalizers : Option (List String) := none
  generateName : Option String := none
  generation : Option Int := none
  labels : Option Labels := none
  managedFields : Option (List ManagedFields) := none
  name : Option String := none
  «namespace» : Option String := none
  ownerReferences : Option (List OwnerReference) := none
  resourceVersion : Option String := none
  selfLink : Option String := none
  uid : Option String := none

namespace OwnerReference

/-- Reads a reference; texts that are missing are empty. -/
def ofJson? (j : Json) : Option OwnerReference := do
  let fields ← j.objectFields?
  let text (key : String) : Option String := (optional? text? key fields).map (·.getD "")
  return {
    apiVersion := ← text "apiVersion"
    blockOwnerDeletion := ← optional? bool? "blockOwnerDeletion" fields
    controller := ← optional? bool? "controller" fields
    kind := ← text "kind"
    name := ← text "name"
    uid := ← text "uid" }

def toJson (r : OwnerReference) : Json :=
  object <|
    [("apiVersion", .str r.apiVersion), ("kind", .str r.kind), ("name", .str r.name),
      ("uid", .str r.uid)]
    ++ optionalField "blockOwnerDeletion" .bool r.blockOwnerDeletion
    ++ optionalField "controller" .bool r.controller

end OwnerReference

/-- The timestamp that a text is. -/
def Timestamp.ofJson? (j : Json) : Option Timestamp := j.text?.bind ofString?

def Timestamp.toJson (t : Timestamp) : Json := .str t.toString

namespace ManagedFields

def ofJson? (j : Json) : Option ManagedFields := do
  let fields ← j.objectFields?
  return {
    apiVersion := ← optional? text? "apiVersion" fields
    fieldsType := ← optional? text? "fieldsType" fields
    fieldSet := ← optional? reread? "fieldsV1" fields
    manager := ← optional? text? "manager" fields
    operation := ← optional? text? "operation" fields
    subresource := ← optional? text? "subresource" fields
    time := ← optional? Timestamp.ofJson? "time" fields }

def toJson (m : ManagedFields) : Json :=
  object <|
    optionalField "apiVersion" .str m.apiVersion
    ++ optionalField "fieldsType" .str m.fieldsType
    ++ optionalField "fieldsV1" id m.fieldSet
    ++ optionalField "manager" .str m.manager
    ++ optionalField "operation" .str m.operation
    ++ optionalField "subresource" .str m.subresource
    ++ optionalField "time" Timestamp.toJson m.time

end ManagedFields

namespace ObjectMeta

/-- Reads metadata from an object; fields of other names are passed over. -/
def ofJson? (j : Json) : Option ObjectMeta := do
  let fields ← j.objectFields?
  return {
    annotations := ← optional? labels? "annotations" fields
    creationTimestamp := ← optional? Timestamp.ofJson? "creationTimestamp" fields
    deletionGracePeriodSeconds := ← optional? int64? "deletionGracePeriodSeconds" fields
    deletionTimestamp := ← optional? Timestamp.ofJson? "deletionTimestamp" fields
    finalizers := ← optional? (list? text?) "finalizers" fields
    generateName := ← optional? text? "generateName" fields
    generation := ← optional? int64? "generation" fields
    labels := ← optional? labels? "labels" fields
    managedFields := ← optional? (list? ManagedFields.ofJson?) "managedFields" fields
    name := ← optional? text? "name" fields
    «namespace» := ← optional? text? "namespace" fields
    ownerReferences := ← optional? (list? OwnerReference.ofJson?) "ownerReferences" fields
    resourceVersion := ← optional? text? "resourceVersion" fields
    selfLink := ← optional? text? "selfLink" fields
    uid := ← optional? text? "uid" fields }

def toJson (m : ObjectMeta) : Json :=
  object <|
    optionalField "annotations" ofLabels m.annotations
    ++ optionalField "creationTimestamp" Timestamp.toJson m.creationTimestamp
    ++ optionalField "deletionGracePeriodSeconds" (.num ∘ .int) m.deletionGracePeriodSeconds
    ++ optionalField "deletionTimestamp" Timestamp.toJson m.deletionTimestamp
    ++ optionalField "finalizers" ofTexts m.finalizers
    ++ optionalField "generateName" .str m.generateName
    ++ optionalField "generation" (.num ∘ .int) m.generation
    ++ optionalField "labels" ofLabels m.labels
    ++ optionalField "managedFields" (.arr ∘ List.map ManagedFields.toJson) m.managedFields
    ++ optionalField "name" .str m.name
    ++ optionalField "namespace" .str m.namespace
    ++ optionalField "ownerReferences" (.arr ∘ List.map OwnerReference.toJson) m.ownerReferences
    ++ optionalField "resourceVersion" .str m.resourceVersion
    ++ optionalField "selfLink" .str m.selfLink
    ++ optionalField "uid" .str m.uid

/-- The name under which work on the object is queued. An object without a name has none, and an
empty namespace counts as none. -/
def objectName? (m : ObjectMeta) : Option ObjectName :=
  match m.name with
  | none | some "" => none
  | some name => some ⟨m.namespace.filter (· ≠ ""), name⟩

/-- The name under which the object is cached: its own name and namespace as they stand. -/
def cacheName? (m : ObjectMeta) : Option ObjectName := m.name.map fun name => ⟨m.namespace, name⟩

end ObjectMeta

end ClusterSync

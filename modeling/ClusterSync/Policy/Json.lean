import ClusterSync.Policy.Basic

/-!
# Policies in JSON

Reading and writing policies. In the spec and the status a missing part takes its default and null
is an error. Every record but the metadata may also be given as the array of its fields. Fields of
other names are dropped.
-/

namespace ClusterSync

open Json

namespace LabelRequirement

def ofJson? (j : Json) : Option LabelRequirement := do
  let fields ← j.recordFields? ["key", "operator", "values"]
  return {
    key := ← required? text? "key" fields
    operator := ← required? text? "operator" fields
    values := ← orDefault? (list? text?) [] "values" fields }

def toJson (r : LabelRequirement) : Json :=
  object <|
    [("key", .str r.key), ("operator", .str r.operator)]
    ++ (if r.values = [] then [] else [("values", ofTexts r.values)])

end LabelRequirement

namespace LabelSelector

def ofJson? (j : Json) : Option LabelSelector := do
  let fields ← j.recordFields? ["matchLabels", "matchExpressions"]
  return {
    matchLabels := ← orDefault? labels? ∅ "matchLabels" fields
    matchExpressions := ← orDefault? (list? LabelRequirement.ofJson?) [] "matchExpressions" fields }

def toJson (s : LabelSelector) : Json :=
  object <|
    (if s.matchLabels = ∅ then [] else [("matchLabels", ofLabels s.matchLabels)])
    ++ (if s.matchExpressions = [] then []
        else [("matchExpressions", .arr (s.matchExpressions.map LabelRequirement.toJson))])

end LabelSelector

namespace UrlFilter

def ofJson? (j : Json) : Option UrlFilter := do
  let fields ← j.recordFields? ["urls", "action", "podSelector", "network"]
  return {
    urls := ← orDefault? (list? text?) [] "urls" fields
    action := ← orDefault? text? "" "action" fields
    podSelector := ← orDefault? LabelSelector.ofJson? {} "podSelector" fields
    network := ← orDefault? text? "" "network" fields }

def toJson (f : UrlFilter) : Json :=
  object <|
    [("podSelector", f.podSelector.toJson)]
    ++ (if f.urls = [] then [] else [("urls", ofTexts f.urls)])
    ++ textField "action" f.action
    ++ textField "network" f.network

end UrlFilter

namespace RequestRule

/-- The default action, which stands in a record of its own. -/
def action? (j : Json) : Option String := do
  orDefault? text? "" "action" (← j.recordFields? ["action"])

def ofJson? (j : Json) : Option RequestRule := do
  let fields ← j.recordFields? ["default", "urlFilter"]
  return {
    defaultAction := ← orDefault? action? "" "default" fields
    urlFilter := ← orDefault? UrlFilter.ofJson? {} "urlFilter" fields }

def toJson (r : RequestRule) : Json :=
  object [("default", object (textField "action" r.defaultAction)),
    ("urlFilter", r.urlFilter.toJson)]

end RequestRule

namespace PolicySpec

def ofJson? (j : Json) : Option PolicySpec := do
  let fields ← j.recordFields? ["l7Policies", "podSelector", "network", "attributes"]
  return {
    rules := ← orDefault? (list? RequestRule.ofJson?) [] "l7Policies" fields
    podSelector := ← orDefault? LabelSelector.ofJson? {} "podSelector" fields
    network := ← orDefault? text? "" "network" fields
    attributes := ← orDefault? text? "" "attributes" fields }

def toJson (s : PolicySpec) : Json :=
  object [("l7Policies", .arr (s.rules.map RequestRule.toJson)),
    ("podSelector", s.podSelector.toJson), ("network", .str s.network),
    ("attributes", .str s.attributes)]

end PolicySpec

namespace PolicyStatus

def ofJson? (j : Json) : Option PolicyStatus := do
  let fields ← j.recordFields? ["state", "message"]
  return {
    state := ← orDefault? text? "" "state" fields
    message := ← orDefault? text? "" "message" fields }

def toJson (s : PolicyStatus) : Json :=
  object (textField "state" s.state ++ textField "message" s.message)

end PolicyStatus

namespace NetworkPolicy

/-- Reads a policy. Its version and kind may say anything; metadata and spec have to be there, and
in an array so does the status, which may be null. -/
def ofJson? (j : Json) : Option NetworkPolicy := do
  let fields ← j.allFields? ["metadata", "spec", "status"]
  return {
    metadata := ← required? ObjectMeta.ofJson? "metadata" fields
    spec := ← required? PolicySpec.ofJson? "spec" fields
    status := ← optional? PolicyStatus.ofJson? "status" fields }

def toJson (p : NetworkPolicy) : Json :=
  object <|
    [("apiVersion", .str (policyKind.group ++ "/" ++ policyKind.version)),
      ("kind", .str policyKind.kind), ("metadata", p.metadata.toJson), ("spec", p.spec.toJson)]
    ++ optionalField "status" PolicyStatus.toJson p.status

end NetworkPolicy

end ClusterSync

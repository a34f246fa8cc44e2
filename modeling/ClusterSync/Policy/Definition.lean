import ClusterSync.Policy.Json
import ClusterSync.Policy.Schema
import ClusterSync.Yaml.Block

/-!
# The definition of policies

What makes the cluster know policies: their names, and the schema that they have to meet. The
defaults in the schema are those of a policy that is read with the parts missing.
-/

namespace ClusterSync

open Json

namespace LabelRequirement

def schema : Schema :=
  .record [("key", .text), ("operator", .text), ("values", .list .text)] ["key", "operator"]

end LabelRequirement

namespace LabelSelector

def schema : Schema :=
  .described "Label selector in the Kubernetes `matchLabels` / `matchExpressions` form" <|
    .record [("matchLabels", .mapping .text), ("matchExpressions", .list LabelRequirement.schema)]
      []

end LabelSelector

namespace UrlFilter

def schema : Schema :=
  .record
    [("urls", .list .text), ("action", .text),
      ("podSelector", .withDefault (LabelSelector.toJson {}) LabelSelector.schema),
      ("network", .text)]
    []

end UrlFilter

namespace RequestRule

def schema : Schema :=
  .described "An L7 rule: a default action plus an optional URL filter" <|
    .record
      [("default", .withDefault (object []) (.record [("action", .text)] [])),
        ("urlFilter", .withDefault (UrlFilter.toJson {}) UrlFilter.schema)]
      []

end RequestRule

namespace PolicySpec

/-- The description of policies, with an example. -/
def description : String :=
  "\n".intercalate [
    policyKind.kind ++ " Custom Resource Definition", "",
    "Reconciled into the datastore under `/nimbess/unp/<namespace>/<name>`.", "",
    "# Example", "",
    "```yaml",
    "apiVersion: " ++ policyKind.group ++ "/" ++ policyKind.version,
    "kind: " ++ policyKind.kind,
    "metadata:",
    "  name: block-ads",
    "  namespace: default",
    "spec:",
    "  network: default",
    "  attributes: \"\"",
    "  podSelector:",
    "    matchLabels:",
    "      app: web",
    "  l7Policies:",
    "    - default:",
    "        action: allow",
    "      urlFilter:",
    "        urls: [\"ads.example.com\"]",
    "        action: deny",
    "```"]

def schema : Schema :=
  .described description <|
    .record
      [("l7Policies", .withDefault (.arr []) (.list RequestRule.schema)),
        ("podSelector", .withDefault (LabelSelector.toJson {}) LabelSelector.schema),
        ("network", .withDefault (.str "") .text),
        ("attributes", .withDefault (.str "") .text)]
      []

end PolicySpec

namespace PolicyStatus

def schema : Schema := .nullable (.record [("state", .text), ("message", .text)] [])

end PolicyStatus

namespace NetworkPolicy

def schema : Schema :=
  .titled policyKind.kind <|
    .described
      ("Auto-generated derived type for " ++ policyKind.kind ++ "Spec via `CustomResource`") <|
      .record [("spec", PolicySpec.schema), ("status", PolicyStatus.schema)] ["spec"]

/-- The version under which the cluster serves policies. -/
def servedVersion : Json :=
  object [("name", .str policyKind.version), ("served", .bool true), ("storage", .bool true),
    ("schema", object [("openAPIV3Schema", schema.toJson)]),
    ("subresources", object [("status", object [])]), ("additionalPrinterColumns", .arr [])]

/-- The definition to be given to the cluster. -/
def definition : Json :=
  object [
    ("apiVersion", .str "apiextensions.k8s.io/v1"),
    ("kind", .str "CustomResourceDefinition"),
    ("metadata", object [("name", .str (policyKind.plural ++ "." ++ policyKind.group))]),
    ("spec", object [
      ("group", .str policyKind.group),
      ("names", object [
        ("categories", .arr []), ("kind", .str policyKind.kind),
        ("plural", .str policyKind.plural), ("singular", .str policyKind.singular),
        ("shortNames", .arr [.str policyKind.shortName])]),
      ("scope", .str "Namespaced"),
      ("versions", .arr [servedVersion])])]

/-- The file that holds the definition. -/
def definitionFile : String :=
  "# This file is auto-generated by crdgen\n# DO NOT EDIT THIS FILE MANUALLY\n---\n"
    ++ Yaml.document definition

end NetworkPolicy

end ClusterSync

import ClusterSync.Object.Meta

/-!
# Network policies

The policies of the cluster: which pods they select, on which network, and the rules they apply to
requests.
-/

namespace ClusterSync

/-- A condition on one label: a key, an operator and values. -/
structure LabelRequirement where
  key : String
  operator : String
  values : List String := []
  deriving DecidableEq

/-- Which pods are meant: labels they have to carry and further conditions. -/
structure LabelSelector where
  matchLabels : Labels := ∅
  matchExpressions : List LabelRequirement := []
  deriving DecidableEq

/-- A rule for a set of URLs. -/
structure UrlFilter where
  urls : List String := []
  action : String := ""
  podSelector : LabelSelector := {}
  network : String := ""
  deriving DecidableEq

/-- A request rule: the action to take by default, and a filter on URLs. -/
structure RequestRule where
  defaultAction : String := ""
  urlFilter : UrlFilter := {}
  deriving DecidableEq

structure PolicySpec where
  rules : List RequestRule := []
  podSelector : LabelSelector := {}
  network : String := ""
  attributes : String := ""
  deriving DecidableEq

structure PolicyStatus where
  state : String := ""
  message : String := ""
  deriving DecidableEq

structure NetworkPolicy where
  metadata : ObjectMeta
  spec : PolicySpec
  status : Option PolicyStatus := none

/-- The group, version and kind under which the cluster knows policies. -/
structure PolicyKind where
  group : String
  version : String
  kind : String
  plural : String
  singular : String
  shortName : String

def policyKind : PolicyKind :=
  ⟨"nimbess.com", "v1", "UnifiedNetworkPolicy", "unifiednetworkpolicies", "unifiednetworkpolicy",
    "unp"⟩

end ClusterSync

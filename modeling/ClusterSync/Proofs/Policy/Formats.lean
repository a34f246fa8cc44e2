import ClusterSync.Policy.Json
import ClusterSync.Proofs.Object.Metadata
import Mathlib.Tactic.Tauto

/-!
# The formats of policies

Each record of a policy with its fields: what is written for them, and what they are when they are
missing.

**Theorem (`NetworkPolicy.plain_format`).** What is written for a policy can be read back exactly if
all the labels in it pass, those of its metadata and those that it selects pods by, and the sets of
fields in its metadata are kept.
-/

namespace ClusterSync

open Json

namespace LabelRequirement

def fields : List (RecordField LabelRequirement) :=
  [.required "key" .text key, .required "operator" .text operator,
    .omitted "values" (.list .text) [] (by simp) (by simp) values]

def format : Format LabelRequirement :=
  .record fields ofJson? toJson (Json.recordFields? ["key", "operator", "values"])
    (by decide) (by decide) (fun _ => rfl)
    (fun r => by
      rw [toJson, unless_eq_present]
      rfl)
    (fun j r => by
      obtain ⟨_, _, _⟩ := r
      simp [ofJson?, fields, Option.bind_eq_some_iff])

@[simp]
theorem read_format : format.read = ofJson? := rfl

@[simp]
theorem valid_format (r : LabelRequirement) : format.Valid r := by
  simp [format, Format.record, fields]

@[simp]
theorem plain_format (medium : Medium) (r : LabelRequirement) : format.Plain medium r := by
  simp [format, Format.record, fields]

end LabelRequirement

namespace LabelSelector

def fields : List (RecordField LabelSelector) :=
  [.labels "matchLabels" matchLabels,
    .omitted "matchExpressions" (.list LabelRequirement.format) [] (by simp) (by simp)
      matchExpressions]

def format : Format LabelSelector :=
  .record fields ofJson? toJson (Json.recordFields? ["matchLabels", "matchExpressions"])
    (by decide) (by decide) (fun _ => rfl)
    (fun s => by
      rw [toJson, unless_eq_present, unless_eq_present, present_append]
      rfl)
    (fun j s => by
      obtain ⟨_, _⟩ := s
      simp [ofJson?, fields, Option.bind_eq_some_iff])

@[simp]
theorem read_format : format.read = ofJson? := rfl

@[simp]
theorem valid_format (s : LabelSelector) : format.Valid s := by
  simp [format, Format.record, fields]

@[simp]
theorem plain_format {medium : Medium} (s : LabelSelector) :
    format.Plain medium s ↔ medium.Passes s.matchLabels := by
  simp [format, Format.record, fields]

end LabelSelector

namespace UrlFilter

def fields : List (RecordField UrlFilter) :=
  [.defaulted "podSelector" LabelSelector.format {} (by simp) podSelector,
    .omitted "urls" (.list .text) [] (by simp) (by simp) urls, .text "action" action,
    .text "network" network]

def format : Format UrlFilter :=
  .record fields ofJson? toJson
    (Json.recordFields? ["urls", "action", "podSelector", "network"])
    (by decide) (by decide) (fun _ => rfl)
    (fun f => by
      simp only [toJson, unless_eq_present, textField_eq_present, List.append_assoc,
        present_append]
      rfl)
    (fun j f => by
      obtain ⟨_, _, _, _⟩ := f
      simp [ofJson?, fields, Option.bind_eq_some_iff, and_left_comm])

@[simp]
theorem read_format : format.read = ofJson? := rfl

@[simp]
theorem valid_format (f : UrlFilter) : format.Valid f := by
  simp [format, Format.record, fields]

@[simp]
theorem plain_format {medium : Medium} (f : UrlFilter) :
    format.Plain medium f ↔ medium.Passes f.podSelector.matchLabels := by
  simp [format, Format.record, fields]

end UrlFilter

namespace RequestRule

/-- The default action, in a record of its own. -/
def actionFormat : Format String :=
  .record [.text "action" id] action? (fun action => object (textField "action" action))
    (Json.recordFields? ["action"]) (by decide) (by decide) (fun _ => rfl)
    (fun action => by
      rw [textField_eq_present]
      rfl)
    (fun j action => by simp [action?, Option.bind_eq_some_iff])

@[simp]
theorem read_actionFormat : actionFormat.read = action? := rfl

@[simp]
theorem valid_actionFormat (action : String) : actionFormat.Valid action := by
  simp [actionFormat, Format.record]

@[simp]
theorem plain_actionFormat (medium : Medium) (action : String) :
    actionFormat.Plain medium action := by
  simp [actionFormat, Format.record]

def fields : List (RecordField RequestRule) :=
  [.defaulted "default" actionFormat "" (by simp) defaultAction,
    .defaulted "urlFilter" UrlFilter.format {} (by simp) urlFilter]

def format : Format RequestRule :=
  .record fields ofJson? toJson (Json.recordFields? ["default", "urlFilter"])
    (by decide) (by decide) (fun _ => rfl) (fun _ => rfl)
    (fun j r => by
      obtain ⟨_, _⟩ := r
      simp [ofJson?, fields, Option.bind_eq_some_iff])

@[simp]
theorem read_format : format.read = ofJson? := rfl

@[simp]
theorem valid_format (r : RequestRule) : format.Valid r := by
  simp [format, Format.record, fields]

@[simp]
theorem plain_format {medium : Medium} (r : RequestRule) :
    format.Plain medium r ↔ medium.Passes r.urlFilter.podSelector.matchLabels := by
  simp [format, Format.record, fields]

end RequestRule

namespace PolicySpec

def fields : List (RecordField PolicySpec) :=
  [.defaulted "l7Policies" (.list RequestRule.format) [] (by simp) rules,
    .defaulted "podSelector" LabelSelector.format {} (by simp) podSelector,
    .defaulted "network" .text "" (Format.valid_text "") network,
    .defaulted "attributes" .text "" (Format.valid_text "") attributes]

def format : Format PolicySpec :=
  .record fields ofJson? toJson
    (Json.recordFields? ["l7Policies", "podSelector", "network", "attributes"])
    (by decide) (by decide) (fun _ => rfl) (fun _ => rfl)
    (fun j s => by
      obtain ⟨_, _, _, _⟩ := s
      simp [ofJson?, fields, Option.bind_eq_some_iff])

@[simp]
theorem read_format : format.read = ofJson? := rfl

@[simp]
theorem valid_format (s : PolicySpec) : format.Valid s := by
  simp [format, Format.record, fields]

@[simp]
theorem plain_format {medium : Medium} (s : PolicySpec) : format.Plain medium s ↔
    (∀ r ∈ s.rules, medium.Passes r.urlFilter.podSelector.matchLabels) ∧
      medium.Passes s.podSelector.matchLabels := by
  simp [format, Format.record, fields]

end PolicySpec

namespace PolicyStatus

def fields : List (RecordField PolicyStatus) := [.text "state" state, .text "message" message]

def format : Format PolicyStatus :=
  .record fields ofJson? toJson (Json.recordFields? ["state", "message"])
    (by decide) (by decide) (fun _ => rfl)
    (fun s => by
      simp only [toJson, textField_eq_present, present_append]
      rfl)
    (fun j s => by
      obtain ⟨_, _⟩ := s
      simp [ofJson?, fields, Option.bind_eq_some_iff])

@[simp]
theorem read_format : format.read = ofJson? := rfl

@[simp]
theorem write_format_ne_null (s : PolicyStatus) : format.write s ≠ .null := nofun

@[simp]
theorem valid_format (s : PolicyStatus) : format.Valid s := by
  simp [format, Format.record, fields]

@[simp]
theorem plain_format (medium : Medium) (s : PolicyStatus) : format.Plain medium s := by
  simp [format, Format.record, fields]

end PolicyStatus

namespace NetworkPolicy

def fields : List (RecordField NetworkPolicy) :=
  [.constant "apiVersion" (policyKind.group ++ "/" ++ policyKind.version),
    .constant "kind" policyKind.kind, .required "metadata" ObjectMeta.format metadata,
    .required "spec" PolicySpec.format spec,
    .optional "status" PolicyStatus.format status]

def format : Format NetworkPolicy :=
  .record fields ofJson? toJson (allFields? ["metadata", "spec", "status"])
    (by decide) (by decide) (fun _ => rfl)
    (fun p => by
      rw [toJson, optionalField_eq_present]
      rfl)
    (fun j p => by
      obtain ⟨_, _, _⟩ := p
      simp [ofJson?, fields, Option.bind_eq_some_iff])

/-- The labels of a policy: those of its metadata, and those by which it and its rules select
pods. -/
def labelMaps (p : NetworkPolicy) : List Labels :=
  p.metadata.annotations.toList ++ p.metadata.labels.toList ++
    p.spec.podSelector.matchLabels :: p.spec.rules.map (·.urlFilter.podSelector.matchLabels)

theorem forall_mem_labelMaps {P : Labels → Prop} {p : NetworkPolicy} :
    (∀ l ∈ p.labelMaps, P l) ↔
      (∀ l ∈ p.metadata.annotations, P l) ∧ (∀ l ∈ p.metadata.labels, P l) ∧
        P p.spec.podSelector.matchLabels ∧
          ∀ r ∈ p.spec.rules, P r.urlFilter.podSelector.matchLabels := by
  simp only [labelMaps, List.mem_append, List.mem_cons, or_imp, forall_and, forall_eq,
    List.forall_mem_map, Option.mem_toList, Option.mem_def, and_assoc]

theorem plain_format {medium : Medium} (p : NetworkPolicy) : format.Plain medium p ↔
    (∀ l ∈ p.labelMaps, medium.Passes l) ∧
      ∀ f ∈ p.metadata.fieldSets, f ≠ .null ∧ medium.inside.inside.inside.inside.Keeps f := by
  rw [forall_mem_labelMaps]
  simp [format, Format.record, fields, ObjectMeta.plain_format]
  tauto

end NetworkPolicy

end ClusterSync

import ClusterSync.Datastore.NodeRecord
import ClusterSync.Proofs.Json.Format

/-!
# The format of node records

**Theorem (`NodeRecord.plain_format`).** What is written for a record can be read back from its text
exactly if its labels are plain.

**Theorem (`NodeRecord.ofText?_render`).** The reader of records in a text knows no embedded texts,
so it reads back whatever has been written.
-/

namespace ClusterSync.NodeRecord

open Json

def fields : List (RecordField NodeRecord) :=
  [.text "namespace" «namespace», .text "name" name, .text "internalip" internalIP,
    .text "hostname" hostname, .text "podCIDR" podCIDR,
    .labels "labels" labels, .text "uid" uid]

theorem toJson_eq (r : NodeRecord) :
    r.toJson = object (present (fields.map fun f => (f.key, f.part r))) := by
  simp only [toJson, unless_eq_present, textField_eq_present, present_append]
  rfl

def format : Format NodeRecord :=
  .record fields ofJson? toJson (Json.recordFields? fieldNames)
    (by decide) (by decide) (fun _ => rfl) toJson_eq
    (fun j r => by
      obtain ⟨_, _, _, _, _, _, _⟩ := r
      simp [ofJson?, ofFields?, fields, Option.bind_eq_some_iff])

theorem valid_format (r : NodeRecord) : format.Valid r := by
  simp [format, Format.record, fields]

theorem plain_format {medium : Medium} (r : NodeRecord) :
    format.Plain medium r ↔ medium.Passes r.labels := by
  simp [format, Format.record, fields]

theorem ofJson?_toJson (r : NodeRecord) : ofJson? r.toJson = some r :=
  (format.read_write_iff (valid_format r)).2 ((plain_format r).2 trivial)

/-! ## Reading from text -/

/-- Reading the trees of the parts of a record gives the record. -/
theorem ofFields?_trees {r : NodeRecord} {known : List (String × Tree)}
    (h : ∀ f ∈ fields, field? f.key known = (f.part r).map Json.tree) :
    ofFields? Tree.text? Tree.labels? known = some r := by
  have htext (key : String) (get : NodeRecord → String)
      (hf : RecordField.text key get ∈ fields) :
      orDefault? Tree.text? "" key known = some (get r) :=
    orDefault?_unless ((h _ hf).trans (apply_ite (Option.map Json.tree) _ _ _)) (Tree.text?_tree _)
  have hlabels : orDefault? Tree.labels? ∅ "labels" known = some r.labels := by
    have hfield := h (.labels "labels" labels) (by simp [fields])
    exact orDefault?_unless (hfield.trans (apply_ite (Option.map Json.tree) _ _ _))
      (Tree.labels?_tree _)
  simp only [ofFields?, htext "namespace" «namespace» (by simp [fields]),
    htext "name" name (by simp [fields]), htext "internalip" internalIP (by simp [fields]),
    htext "hostname" hostname (by simp [fields]), htext "podCIDR" podCIDR (by simp [fields]),
    htext "uid" uid (by simp [fields]), hlabels, Option.bind_eq_bind, Option.bind_some]
  rfl

theorem ofText?_render (r : NodeRecord) : ofText? r.toJson.render = some r := by
  let parts := fields.map fun f => (f.key, f.part r)
  have hkeys : parts.map Prod.fst = fieldNames := rfl
  have hnodup : (parts.map Prod.fst).Nodup := by
    rw [hkeys]
    decide
  have hnames : ∀ f ∈ sortFields (present parts), f.1 ∈ fieldNames := fun f hf =>
    hkeys ▸ List.mem_map.2 ⟨_, mem_present.1 (mem_sortFields hf), rfl⟩
  obtain ⟨known, hrecord, hknown⟩ := Tree.recordFields?_tree (increasing_sortFields _) hnames
  have hjson : r.toJson = .obj (sortFields (present parts)) := toJson_eq r
  rw [ofText?, Tree.ofText?_render, Option.bind_eq_bind, Option.bind_some, hjson, hrecord]
  refine ofFields?_trees fun f hf => ?_
  rw [hknown, field?_present hnodup (List.mem_map.2 ⟨f, hf, rfl⟩)]

end ClusterSync.NodeRecord

import ClusterSync.Object.Meta
import ClusterSync.Proofs.Json.Format
import ClusterSync.Proofs.Object.Timestamp

/-!
# The format of metadata

**Theorem (`ObjectMeta.ofJson?_toJson_iff`).** Metadata that has been read is read back from what is
written for it exactly if no set of fields in it is null or has an object that begins with the key
that marks an embedded text.
-/

namespace ClusterSync

open Json

/-- A timestamp is written as its text. -/
@[simps -fullyApplied]
def Timestamp.format : Format Timestamp where
  read := Timestamp.ofJson?
  write := Timestamp.toJson
  Valid := IsProper
  Plain _ _ := True
  depth := 0
  valid_of_read h :=
    have ⟨_, _, ht⟩ := Option.bind_eq_some_iff.1 h
    isProper_of_ofString? ht
  read_write {_ t} h _ := by
    have hread := ofString?_toString h
    rwa [← Option.bind_some t.toString ofString?] at hread
  regular _ _ := regular_str _
  plain_of_readsAs _ _ _ := trivial

@[simp]
theorem Timestamp.toJson_ne_null (t : Timestamp) : t.toJson ≠ .null := nofun

namespace OwnerReference

/-- A text that is always written; missing or null it is empty. -/
@[simps]
def textOrEmpty (key : String) (get : OwnerReference → String) : RecordField OwnerReference where
  key := key
  part r := some (.str (get r))
  Reads fields r := (optional? text? key fields).map (·.getD "") = some (get r)
  Valid _ := True
  Plain _ _ := True
  depth := 0
  valid_of_reads _ := trivial
  reads_of_field? _ _ h := by
    rw [optional?, h]
    rfl
  regular _ hj _ := by
    cases hj
    exact regular_str _
  plain_of_readsAs _ _ _ := trivial

def fields : List (RecordField OwnerReference) :=
  [textOrEmpty "apiVersion" apiVersion, textOrEmpty "kind" kind, textOrEmpty "name" name,
    textOrEmpty "uid" uid,
    .optional "blockOwnerDeletion" .bool blockOwnerDeletion,
    .optional "controller" .bool controller]

theorem ofJson?_eq_some_iff {j : Json} {r : OwnerReference} : ofJson? j = some r ↔
    ∃ values, objectFields? j = some values ∧ ∀ f ∈ fields, f.Reads values r := by
  obtain ⟨_, _, _, _, _, _⟩ := r
  simp only [ofJson?, Option.bind_eq_bind, Option.bind_eq_some_iff, Option.pure_def,
    Option.some.injEq, mk.injEq, fields, List.forall_mem_cons]
  constructor
  · rintro ⟨values, hvalues, _, hversion, _, hblock, _, hcontroller, _, hkind, _, hname, _, huid,
      rfl, rfl, rfl, rfl, rfl, rfl⟩
    exact ⟨values, hvalues, hversion, hkind, hname, huid, hblock, hcontroller,
      List.forall_mem_nil _⟩
  · rintro ⟨values, hvalues, hversion, hkind, hname, huid, hblock, hcontroller, -⟩
    exact ⟨values, hvalues, _, hversion, _, hblock, _, hcontroller, _, hkind, _, hname, _, huid,
      rfl, rfl, rfl, rfl, rfl, rfl⟩

def format : Format OwnerReference :=
  .record fields ofJson? toJson objectFields? (by decide) (by decide) objectFields?_obj
    (fun r => by
      simp only [toJson, optionalField_eq_present, List.append_assoc, present_append]
      rfl)
    (fun _ _ => ofJson?_eq_some_iff)

@[simp]
theorem read_format : format.read = ofJson? := rfl

@[simp]
theorem valid_format (r : OwnerReference) : format.Valid r := by
  simp [format, Format.record, fields]

@[simp]
theorem plain_format (medium : Medium) (r : OwnerReference) : format.Plain medium r := by
  simp [format, Format.record, fields]

end OwnerReference

namespace ManagedFields

def fields : List (RecordField ManagedFields) :=
  [.optional "apiVersion" .text apiVersion, .optional "fieldsType" .text fieldsType,
    .optional "fieldsV1" .anything fieldSet, .optional "manager" .text manager,
    .optional "operation" .text operation, .optional "subresource" .text subresource,
    .optional "time" Timestamp.format time]

theorem ofJson?_eq_some_iff {j : Json} {m : ManagedFields} : ofJson? j = some m ↔
    ∃ values, objectFields? j = some values ∧ ∀ f ∈ fields, f.Reads values m := by
  obtain ⟨_, _, _, _, _, _, _⟩ := m
  simp only [ofJson?, Option.bind_eq_bind, Option.bind_eq_some_iff, Option.pure_def,
    Option.some.injEq, mk.injEq, fields, List.forall_mem_cons]
  constructor
  · rintro ⟨values, hvalues, _, hversion, _, htype, _, hset, _, hmanager, _, hoperation, _,
      hsubresource, _, htime, rfl, rfl, rfl, rfl, rfl, rfl, rfl⟩
    exact ⟨values, hvalues, hversion, htype, hset, hmanager, hoperation, hsubresource, htime,
      List.forall_mem_nil _⟩
  · rintro ⟨values, hvalues, hversion, htype, hset, hmanager, hoperation, hsubresource, htime, -⟩
    exact ⟨values, hvalues, _, hversion, _, htype, _, hset, _, hmanager, _, hoperation, _,
      hsubresource, _, htime, rfl, rfl, rfl, rfl, rfl, rfl, rfl⟩

def format : Format ManagedFields :=
  .record fields ofJson? toJson objectFields? (by decide) (by decide) objectFields?_obj
    (fun m => by
      simp only [toJson, optionalField_eq_present, List.append_assoc, present_append]
      rfl)
    (fun _ _ => ofJson?_eq_some_iff)

@[simp]
theorem read_format : format.read = ofJson? := rfl

/-- A set of fields is the only part that can be in the way. -/
@[simp]
theorem plain_format {medium : Medium} (m : ManagedFields) : format.Plain medium m ↔
    ∀ f ∈ m.fieldSet, f ≠ .null ∧ medium.inside.Keeps f := by
  simp [format, Format.record, fields]

end ManagedFields

namespace ObjectMeta

def fields : List (RecordField ObjectMeta) :=
  [.optional "annotations" .labels annotations,
    .optional "creationTimestamp" Timestamp.format creationTimestamp,
    .optional "deletionGracePeriodSeconds" .int64 deletionGracePeriodSeconds,
    .optional "deletionTimestamp" Timestamp.format deletionTimestamp,
    .optional "finalizers" (.list .text) finalizers,
    .optional "generateName" .text generateName,
    .optional "generation" .int64 generation,
    .optional "labels" .labels labels,
    .optional "managedFields" (.list ManagedFields.format) managedFields,
    .optional "name" .text name, .optional "namespace" .text «namespace»,
    .optional "ownerReferences" (.list OwnerReference.format) ownerReferences,
    .optional "resourceVersion" .text resourceVersion,
    .optional "selfLink" .text selfLink,
    .optional "uid" .text uid]

theorem ofJson?_eq_some_iff {j : Json} {m : ObjectMeta} : ofJson? j = some m ↔
    ∃ values, objectFields? j = some values ∧ ∀ f ∈ fields, f.Reads values m := by
  simp only [fields, List.forall_mem_cons]
  constructor
  · intro h
    unfold ofJson? at h
    obtain ⟨values, hvalues, h⟩ := Option.bind_eq_some_iff.1 h
    obtain ⟨_, hannotations, h⟩ := Option.bind_eq_some_iff.1 h
    obtain ⟨_, hcreation, h⟩ := Option.bind_eq_some_iff.1 h
    obtain ⟨_, hgrace, h⟩ := Option.bind_eq_some_iff.1 h
    obtain ⟨_, hdeletion, h⟩ := Option.bind_eq_some_iff.1 h
    obtain ⟨_, hfinalizers, h⟩ := Option.bind_eq_some_iff.1 h
    obtain ⟨_, hgenerateName, h⟩ := Option.bind_eq_some_iff.1 h
    obtain ⟨_, hgeneration, h⟩ := Option.bind_eq_some_iff.1 h
    obtain ⟨_, hlabels, h⟩ := Option.bind_eq_some_iff.1 h
    obtain ⟨_, hmanaged, h⟩ := Option.bind_eq_some_iff.1 h
    obtain ⟨_, hname, h⟩ := Option.bind_eq_some_iff.1 h
    obtain ⟨_, hnamespace, h⟩ := Option.bind_eq_some_iff.1 h
    obtain ⟨_, howners, h⟩ := Option.bind_eq_some_iff.1 h
    obtain ⟨_, hversion, h⟩ := Option.bind_eq_some_iff.1 h
    obtain ⟨_, hlink, h⟩ := Option.bind_eq_some_iff.1 h
    obtain ⟨_, huid, h⟩ := Option.bind_eq_some_iff.1 h
    cases h
    exact ⟨values, hvalues, hannotations, hcreation, hgrace, hdeletion, hfinalizers,
      hgenerateName, hgeneration, hlabels, hmanaged, hname, hnamespace, howners, hversion, hlink,
      huid, List.forall_mem_nil _⟩
  · rintro ⟨values, hvalues, hannotations, hcreation, hgrace, hdeletion, hfinalizers,
      hgenerateName, hgeneration, hlabels, hmanaged, hname, hnamespace, howners, hversion, hlink,
      huid, -⟩
    unfold ofJson?
    refine Option.bind_eq_some_iff.2 ⟨_, hvalues, ?_⟩
    refine Option.bind_eq_some_iff.2 ⟨_, hannotations, ?_⟩
    refine Option.bind_eq_some_iff.2 ⟨_, hcreation, ?_⟩
    refine Option.bind_eq_some_iff.2 ⟨_, hgrace, ?_⟩
    refine Option.bind_eq_some_iff.2 ⟨_, hdeletion, ?_⟩
    refine Option.bind_eq_some_iff.2 ⟨_, hfinalizers, ?_⟩
    refine Option.bind_eq_some_iff.2 ⟨_, hgenerateName, ?_⟩
    refine Option.bind_eq_some_iff.2 ⟨_, hgeneration, ?_⟩
    refine Option.bind_eq_some_iff.2 ⟨_, hlabels, ?_⟩
    refine Option.bind_eq_some_iff.2 ⟨_, hmanaged, ?_⟩
    refine Option.bind_eq_some_iff.2 ⟨_, hname, ?_⟩
    refine Option.bind_eq_some_iff.2 ⟨_, hnamespace, ?_⟩
    refine Option.bind_eq_some_iff.2 ⟨_, howners, ?_⟩
    refine Option.bind_eq_some_iff.2 ⟨_, hversion, ?_⟩
    refine Option.bind_eq_some_iff.2 ⟨_, hlink, ?_⟩
    refine Option.bind_eq_some_iff.2 ⟨_, huid, ?_⟩
    rfl

def format : Format ObjectMeta :=
  .record fields ofJson? toJson objectFields? (by decide) (by decide) objectFields?_obj
    (fun m => by
      simp only [toJson, optionalField_eq_present, present_append]
      rfl)
    (fun _ _ => ofJson?_eq_some_iff)

@[simp]
theorem read_format : format.read = ofJson? := rfl

/-- The sets of fields in the metadata. -/
def fieldSets (m : ObjectMeta) : List Json := (m.managedFields.getD []).filterMap (·.fieldSet)

theorem mem_fieldSets {m : ObjectMeta} {f : Json} : f ∈ m.fieldSets ↔
    ∃ entries ∈ m.managedFields, ∃ entry ∈ entries, f ∈ entry.fieldSet := by
  rw [fieldSets]
  cases m.managedFields <;> simp

theorem plain_format {medium : Medium} (m : ObjectMeta) : format.Plain medium m ↔
    (∀ l ∈ m.annotations, medium.Passes l) ∧ (∀ l ∈ m.labels, medium.Passes l) ∧
      ∀ f ∈ m.fieldSets, f ≠ .null ∧ medium.inside.inside.inside.Keeps f := by
  have hsets {P : Json → Prop} : (∀ f ∈ m.fieldSets, P f) ↔
      ∀ entries ∈ m.managedFields, ∀ entry ∈ entries, ∀ f ∈ entry.fieldSet, P f := by
    simp only [mem_fieldSets, forall_exists_index, and_imp]
    exact ⟨fun h entries he entry hm f => h f entries he entry hm,
      fun h f entries he entry hm => h entries he entry hm f⟩
  rw [hsets]
  simp [format, Format.record, fields, ofLabels_eq]

/-- Metadata that has been read is read back, but for sets of fields that are null or hold an object
which begins with the marking key. -/
theorem ofJson?_toJson_iff {j : Json} {m : ObjectMeta} (h : ofJson? j = some m) :
    ofJson? m.toJson = some m ↔ ∀ f ∈ m.fieldSets, f ≠ .null ∧ f.Unmarked := by
  have hplain := format.read_write_iff (format.valid_of_read h)
  rw [plain_format] at hplain
  exact hplain.trans
    ⟨fun hm => hm.2.2, fun hm => ⟨fun _ _ => trivial, fun _ _ => trivial, hm⟩⟩

end ObjectMeta

end ClusterSync

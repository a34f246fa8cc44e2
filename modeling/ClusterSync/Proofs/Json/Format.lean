import ClusterSync.Proofs.Json.Records
import Mathlib.Data.List.MinMax
import Mathlib.Data.List.Nodup
import Mathlib.Tactic.Simps.Basic
import Mathlib.Tactic.SplitIfs

/-!
# Formats of records

A format says how the values of a type are written and how they are read, and carries the laws of
the two. The format of a record is made of its fields, each of which says what is written for it
and when it has been read.

**Theorem (`Json.Format.read_write_iff`, `Json.Format.parse?_render_iff`).** What is valid is read
back from the value, or from the text, that is written for it exactly if it is plain there, which is
up to the labels somewhere in it and to the parts that may be any value.
-/

namespace ClusterSync.Json

/-! ## Formats -/

/-- A way to write and to read the values of a type. -/
structure Format (α : Type) where
  read : Json → Option α
  write : α → Json
  /-- What holds of all values that have been read. -/
  Valid : α → Prop
  /-- That nothing which is written is in the way of reading it. -/
  Plain : Medium → α → Prop
  /-- How deep containers nest in what is written, but for parts that may be any value. -/
  depth : Nat
  valid_of_read {j : Json} {a : α} : read j = some a → Valid a
  read_write {medium : Medium} {a : α} : Valid a → Plain medium a → read (write a) = some a
  regular {a : α} {room : Nat} : Valid a → depth ≤ room →
    (write a).Regular room (Plain (.text room) a)
  plain_of_readsAs {medium : Medium} {a : α} {v : Json} : Valid a → (write a).ReadsAs v medium →
    read v = some a → Plain medium a

namespace Format

variable {α : Type}

/-- What is valid is read back from the value that is written for it exactly if it is plain. -/
theorem read_write_iff (f : Format α) {a : α} (ha : f.Valid a) :
    f.read (f.write a) = some a ↔ f.Plain .value a := by
  have hself : (f.write a).ReadsAs (f.write a) .value := rfl
  exact ⟨f.plain_of_readsAs ha hself, f.read_write ha⟩

theorem parse?_render_iff (f : Format α) (hdepth : f.depth ≤ maxDepth) {a : α} (ha : f.Valid a) :
    (parse? (f.write a).render).bind f.read = some a ↔ f.Plain (.text maxDepth) a := by
  have hregular := f.regular ha hdepth
  constructor
  · intro h
    obtain ⟨v, hv, hread⟩ := Option.bind_eq_some_iff.1 h
    exact f.plain_of_readsAs ha (readsAs_of_parse? hv) hread
  · intro hplain
    rw [(Json.parse?_render_iff hregular.canonical).2 (hregular.intact hplain), Option.bind_some,
      f.read_write ha hplain]

/-- Text is written as it is. -/
@[simps -fullyApplied]
def text : Format String where
  read := text?
  write := .str
  Valid _ := True
  Plain _ _ := True
  depth := 0
  valid_of_read _ := trivial
  read_write _ _ := rfl
  regular _ _ := regular_str _
  plain_of_readsAs _ _ _ := trivial

theorem valid_text (s : String) : text.Valid s := trivial

theorem plain_text (medium : Medium) (s : String) : text.Plain medium s := trivial

@[simps -fullyApplied]
def bool : Format Bool where
  read := bool?
  write := .bool
  Valid _ := True
  Plain _ _ := True
  depth := 0
  valid_of_read _ := trivial
  read_write _ _ := rfl
  regular _ _ := regular_bool _
  plain_of_readsAs _ _ _ := trivial

theorem isInteger_of_int64 {i : Int}
    (h : -9223372036854775808 ≤ i ∧ i ≤ 9223372036854775807) : Number.IsInteger (.int i) := by
  simp only [Number.IsInteger]
  omega

/-- The integers of 64 bits with a sign. -/
@[simps -fullyApplied]
def int64 : Format Int where
  read := int64?
  write := .num ∘ .int
  Valid i := -9223372036854775808 ≤ i ∧ i ≤ 9223372036854775807
  Plain _ _ := True
  depth := 0
  valid_of_read {j i} h := by
    unfold int64? at h
    split at h
    · split at h
      · cases h
        assumption
      · cases h
    · cases h
  read_write h _ := if_pos h
  regular h _ := regular_int (isInteger_of_int64 h)
  plain_of_readsAs _ _ _ := trivial

@[simps -fullyApplied]
def labels : Format Labels where
  read := labels?
  write := ofLabels
  Valid _ := True
  Plain medium l := medium.Passes l
  depth := 1
  valid_of_read _ := trivial
  read_write _ _ := labels?_ofLabels _
  regular {_ room} _ hroom := by
    obtain ⟨room, rfl⟩ := Nat.exists_eq_add_of_le' hroom
    exact regular_ofLabels _
  plain_of_readsAs _ := ReadsAs.passes

theorem valid_labels (l : Labels) : labels.Valid l := trivial

theorem plain_labels_empty (medium : Medium) : labels.Plain medium ∅ := medium.passes_empty

/-- A part that may be any value. -/
@[simps -fullyApplied]
def anything : Format Json where
  read := reread?
  write := id
  Valid := Canonical
  Plain medium j := medium.Keeps j
  depth := 0
  valid_of_read := canonical_of_reread?
  read_write {medium j} hj hplain := by
    refine (reread?_self_iff hj).2 ?_
    cases medium with
    | value => exact hplain
    | text depth => exact hplain.2.1
  regular hj _ := ⟨hj, id⟩
  plain_of_readsAs := ReadsAs.keeps

/-- A list is written as the array of its items. -/
@[simps -fullyApplied]
def list (f : Format α) : Format (List α) where
  read := list? f.read
  write as := .arr (as.map f.write)
  Valid as := ∀ a ∈ as, f.Valid a
  Plain medium as := ∀ a ∈ as, f.Plain medium.inside a
  depth := f.depth + 1
  valid_of_read {j as} h := by
    cases j with
    | arr items =>
      exact Tree.forall_mem_of_forall₂ (mapM_eq_some_iff.1 h) fun _ _ _ hread =>
        f.valid_of_read hread
    | null | bool | num | str | obj => cases h
  read_write h hplain := mapM_eq_some_iff.2 <|
    List.forall₂_map_left_iff.2 <|
      List.forall₂_same.2 fun a ha => f.read_write (h a ha) (hplain a ha)
  regular {as room} h hroom := by
    obtain ⟨room, rfl⟩ := Nat.exists_eq_add_of_le' (Nat.le_of_add_left_le hroom)
    refine regular_arr fun j hj => ?_
    obtain ⟨a, ha, rfl⟩ := List.mem_map.1 hj
    exact (f.regular (h a ha) (Nat.le_of_add_le_add_right hroom)).mono fun hplain => hplain a ha
  plain_of_readsAs {medium as v} has h hread := by
    obtain ⟨vs, rfl, hvs⟩ := h.items
    rw [List.forall₂_map_left_iff] at hvs
    have hreads : List.Forall₂ (fun v a => f.read v = some a) vs as := mapM_eq_some_iff.1 hread
    clear h hread
    induction hvs with
    | nil => exact List.forall_mem_nil _
    | cons hv _ ih =>
      obtain ⟨ha, has⟩ := List.forall_mem_cons.1 has
      cases hreads with
      | cons hr hreads =>
        exact List.forall_mem_cons.2 ⟨f.plain_of_readsAs ha hv hr, ih has hreads⟩

end Format

/-! ## Fields -/

/-- A field of a record: what is written for it, if anything, and when it has been read from the
fields of an object as the record has it. -/
structure RecordField (α : Type) where
  key : String
  part : α → Option Json
  Reads : List (String × Json) → α → Prop
  Valid : α → Prop
  Plain : Medium → α → Prop
  depth : Nat
  valid_of_reads {fields : List (String × Json)} {a : α} : Reads fields a → Valid a
  reads_of_field? {medium : Medium} {fields : List (String × Json)} {a : α} :
    Valid a → Plain medium a → field? key fields = part a → Reads fields a
  regular {a : α} {j : Json} {room : Nat} : Valid a → part a = some j → depth ≤ room →
    j.Regular room (Plain (.text room) a)
  plain_of_readsAs {medium : Medium} {fields : List (String × Json)} {a : α} : Valid a →
    (∀ j, part a = some j → ∃ v, field? key fields = some v ∧ j.ReadsAs v medium) →
      Reads fields a → Plain medium a

theorem Format.valid_of_orDefault? {β : Type} (f : Format β) {default b : β} {key : String}
    {fields : List (String × Json)} (hvalid : f.Valid default)
    (h : orDefault? f.read default key fields = some b) : f.Valid b := by
  unfold orDefault? at h
  split at h
  · cases h
    exact hvalid
  · exact f.valid_of_read h

/-- A part that is left out if it is the default is read back, if the part itself is. -/
theorem orDefault?_unless {β γ : Type} [DecidableEq γ] {read : β → Option γ} {default c : γ}
    {part : β} {key : String} {fields : List (String × β)}
    (h : field? key fields = if c = default then none else some part)
    (hread : read part = some c) : orDefault? read default key fields = some c := by
  rw [orDefault?, h]
  split_ifs with hdefault
  · rw [hdefault]
  · exact hread

theorem exists_of_optional? {β : Type} {read : Json → Option β} {key : String}
    {fields : List (String × Json)} {b : β} (h : optional? read key fields = some (some b)) :
    ∃ v, v ≠ .null ∧ field? key fields = some v ∧ read v = some b := by
  unfold optional? at h
  split at h
  · cases h
  · cases h
  · rename_i v hnull hv
    obtain ⟨_, hread, heq⟩ := Option.map_eq_some_iff.1 h
    cases heq
    exact ⟨v, hnull, hv, hread⟩

namespace RecordField

variable {α β : Type}

/-- A field that is always written and has to be there. -/
@[simps]
def required (key : String) (f : Format β) (get : α → β) : RecordField α where
  key := key
  part a := some (f.write (get a))
  Reads fields a := required? f.read key fields = some (get a)
  Valid a := f.Valid (get a)
  Plain medium a := f.Plain medium (get a)
  depth := f.depth
  valid_of_reads h :=
    have ⟨_, _, hread⟩ := Option.bind_eq_some_iff.1 h
    f.valid_of_read hread
  reads_of_field? ha hplain h := by rw [required?, h, Option.bind_some, f.read_write ha hplain]
  regular ha hj hroom := by
    cases hj
    exact f.regular ha hroom
  plain_of_readsAs ha h hreads := by
    obtain ⟨v, hv, hvs⟩ := h _ rfl
    rw [required?, hv, Option.bind_some] at hreads
    exact f.plain_of_readsAs ha hvs hreads

/-- A field that is always written but may be missing. -/
@[simps]
def defaulted (key : String) (f : Format β) (default : β) (hvalid : f.Valid default)
    (get : α → β) : RecordField α where
  key := key
  part a := some (f.write (get a))
  Reads fields a := orDefault? f.read default key fields = some (get a)
  Valid a := f.Valid (get a)
  Plain medium a := f.Plain medium (get a)
  depth := f.depth
  valid_of_reads := f.valid_of_orDefault? hvalid
  reads_of_field? ha hplain h := by
    rw [orDefault?, h]
    exact f.read_write ha hplain
  regular ha hj hroom := by
    cases hj
    exact f.regular ha hroom
  plain_of_readsAs ha h hreads := by
    obtain ⟨v, hv, hvs⟩ := h _ rfl
    rw [orDefault?, hv] at hreads
    exact f.plain_of_readsAs ha hvs hreads

/-- A field that is written unless it has its default. -/
@[simps]
def omitted [DecidableEq β] (key : String) (f : Format β) (default : β) (hvalid : f.Valid default)
    (hplain : ∀ medium, f.Plain medium default) (get : α → β) : RecordField α where
  key := key
  part a := if get a = default then none else some (f.write (get a))
  Reads fields a := orDefault? f.read default key fields = some (get a)
  Valid a := f.Valid (get a)
  Plain medium a := f.Plain medium (get a)
  depth := f.depth
  valid_of_reads := f.valid_of_orDefault? hvalid
  reads_of_field? ha hplain h := orDefault?_unless h (f.read_write ha hplain)
  regular ha hj hroom := by
    split at hj <;> cases hj
    exact f.regular ha hroom
  plain_of_readsAs {medium fields a} ha h hreads := by
    by_cases hdefault : get a = default
    · rw [hdefault]
      exact hplain medium
    · obtain ⟨v, hv, hvs⟩ := h _ (if_neg hdefault)
      rw [orDefault?, hv] at hreads
      exact f.plain_of_readsAs ha hvs hreads

/-- A text that is written unless it is empty. -/
abbrev text (key : String) (get : α → String) : RecordField α :=
  omitted key .text "" (Format.valid_text "") (fun medium => Format.plain_text medium "") get

/-- Labels that are written unless there are none. -/
abbrev labels (key : String) (get : α → Labels) : RecordField α :=
  omitted key .labels ∅ (Format.valid_labels ∅) Format.plain_labels_empty get

/-- A field that is written if there is a value for it, and is absent if it is missing or null. -/
@[simps]
def optional (key : String) (f : Format β) (get : α → Option β) : RecordField α where
  key := key
  part a := (get a).map f.write
  Reads fields a := optional? f.read key fields = some (get a)
  Valid a := ∀ b ∈ get a, f.Valid b
  Plain medium a := ∀ b ∈ get a, f.write b ≠ .null ∧ f.Plain medium b
  depth := f.depth
  valid_of_reads h b hb :=
    have ⟨_, _, _, hread⟩ := exists_of_optional? (h.trans (congrArg some hb))
    f.valid_of_read hread
  reads_of_field? {medium fields a} ha hplain h := by
    cases hget : get a with
    | none =>
      rw [hget] at h
      rw [optional?, h]
      rfl
    | some b =>
      obtain ⟨hnull, hb⟩ := hplain b hget
      rw [hget, Option.map_some] at h
      unfold optional?
      split
      · rename_i hnone
        cases h.symm.trans hnone
      · rename_i hsome
        exact absurd (Option.some.inj (h.symm.trans hsome)) hnull
      · rename_i v hv
        cases h.symm.trans hv
        rw [f.read_write (ha b hget) hb, Option.map_some]
  regular {a j room} ha hj hroom := by
    obtain ⟨b, hb, rfl⟩ := Option.map_eq_some_iff.1 hj
    exact (f.regular (ha b hb) hroom).mono fun hplain => (hplain b hb).2
  plain_of_readsAs {medium fields a} ha h hreads b hb := by
    obtain ⟨v, hv, hvs⟩ := h (f.write b) (by rw [hb, Option.map_some])
    obtain ⟨w, hnull, hw, hread⟩ := exists_of_optional? (hreads.trans (congrArg some hb))
    cases hv.symm.trans hw
    refine ⟨fun heq => hnull ?_, f.plain_of_readsAs (ha b hb) hvs hread⟩
    rw [heq] at hvs
    exact hvs.eq_null

/-- A text that is always written and never looked at. -/
@[simps]
def constant (key s : String) : RecordField α where
  key := key
  part _ := some (.str s)
  Reads _ _ := True
  Valid _ := True
  Plain _ _ := True
  depth := 0
  valid_of_reads _ := trivial
  reads_of_field? _ _ _ := trivial
  regular _ hj _ := by
    cases hj
    exact regular_str _
  plain_of_readsAs _ _ _ := trivial

end RecordField

/-! ## Records -/

/-- The fields for which there is a value. -/
def present (parts : List (String × Option Json)) : List (String × Json) :=
  parts.filterMap fun p => p.2.map (p.1, ·)

section Present

variable {parts : List (String × Option Json)} {key : String}

theorem mem_present {f : String × Json} : f ∈ present parts ↔ (f.1, some f.2) ∈ parts := by
  obtain ⟨key, j⟩ := f
  simp only [present, List.mem_filterMap, Option.map_eq_some_iff, Prod.mk.injEq]
  constructor
  · rintro ⟨⟨_, _⟩, hp, j', rfl, rfl, rfl⟩
    exact hp
  · exact fun hp => ⟨_, hp, j, rfl, rfl, rfl⟩

theorem present_append (parts parts' : List (String × Option Json)) :
    present parts ++ present parts' = present (parts ++ parts') := List.filterMap_append.symm

theorem unless_eq_present (c : Prop) [Decidable c] (key : String) (j : Json) :
    (if c then [] else [(key, j)]) = present [(key, if c then none else some j)] := by
  split <;> rfl

theorem textField_eq_present (key s : String) :
    textField key s = present [(key, if s = "" then none else some (.str s))] :=
  unless_eq_present _ key (.str s)

theorem optionalField_eq_present {β : Type} (key : String) (write : β → Json) (value : Option β) :
    optionalField key write value = present [(key, value.map write)] := by
  cases value <;> rfl

theorem field?_present (hkeys : (parts.map Prod.fst).Nodup) {part : Option Json}
    (h : (key, part) ∈ parts) : field? key (sortFields (present parts)) = part := by
  have hunique : ∀ part', (key, part') ∈ parts → part' = part := fun part' h' =>
    congrArg Prod.snd (List.inj_on_of_nodup_map hkeys h' h rfl)
  rw [field?_sortFields]
  cases hfield : field? key (present parts).reverse with
  | none =>
    cases part with
    | none => rfl
    | some j =>
      have hmem : (key, j) ∈ (present parts).reverse := List.mem_reverse.2 (mem_present.2 h)
      exact absurd hfield (field?_ne_none_iff.2 ⟨_, hmem, rfl⟩)
  | some j =>
    obtain ⟨before, after, hsplit, -⟩ := List.lookup_eq_some_iff.1 hfield
    have hmem : (key, j) ∈ (present parts).reverse := by
      rw [hsplit]
      exact List.mem_append_right _ List.mem_cons_self
    exact hunique _ (mem_present.1 (List.mem_reverse.1 hmem))

theorem head?_present (h : key ∉ parts.map Prod.fst) :
    (sortFields (present parts)).head?.map Prod.fst ≠ some key := by
  intro heq
  obtain ⟨f, hf, rfl⟩ := Option.map_eq_some_iff.1 heq
  have hpresent := mem_present.1 (mem_sortFields (List.mem_of_mem_head? hf))
  exact h (List.mem_map_of_mem hpresent)

end Present

namespace Format

variable {α : Type}

/-- The format of a record with the given fields. -/
def record (fields : List (RecordField α)) (read : Json → Option α) (write : α → Json)
    (unpack? : Json → Option (List (String × Json)))
    (hkeys : (fields.map RecordField.key).Nodup)
    (hmark : embeddedKey ∉ fields.map RecordField.key)
    (hunpack : ∀ values, unpack? (.obj values) = some values)
    (hwrite : ∀ a, write a = object (present (fields.map fun f => (f.key, f.part a))))
    (hread : ∀ j a, read j = some a ↔ ∃ values, unpack? j = some values ∧
      ∀ f ∈ fields, f.Reads values a) : Format α where
  read := read
  write := write
  Valid a := ∀ f ∈ fields, f.Valid a
  Plain medium a := ∀ f ∈ fields, f.Plain medium.inside a
  depth := (fields.map RecordField.depth).foldr max 0 + 1
  valid_of_read h f hf :=
    have ⟨_, _, hreads⟩ := (hread _ _).1 h
    f.valid_of_reads (hreads f hf)
  read_write {medium a} ha hplain := by
    have hnodup : ((fields.map fun f => (f.key, f.part a)).map Prod.fst).Nodup := by
      rwa [List.map_map]
    refine (hread _ a).2 ⟨_, by rw [hwrite]; exact hunpack _, fun f hf => ?_⟩
    exact f.reads_of_field? (ha f hf) (hplain f hf)
      (field?_present hnodup (List.mem_map_of_mem hf))
  regular {a room} ha hroom := by
    obtain ⟨room, rfl⟩ := Nat.exists_eq_add_of_le' (Nat.le_of_add_left_le hroom)
    rw [hwrite]
    refine regular_obj (increasing_sortFields _) (fun _ => head?_present ?_) fun g hg => ?_
    · rwa [List.map_map]
    · obtain ⟨f, hf, heq⟩ := List.mem_map.1 (mem_present.1 (mem_sortFields hg))
      obtain ⟨-, hpart⟩ := Prod.mk.inj heq
      have hdepth : f.depth ≤ room := (List.le_max_of_le' 0 (List.mem_map_of_mem hf) le_rfl).trans
        (Nat.le_of_add_le_add_right hroom)
      exact (f.regular (ha f hf) hpart hdepth).mono fun hplain => hplain f hf
  plain_of_readsAs {medium a v} ha h hv f hf := by
    have hnodup : ((fields.map fun f => (f.key, f.part a)).map Prod.fst).Nodup := by
      rwa [List.map_map]
    rw [hwrite] at h
    obtain ⟨vs, rfl, hvs⟩ := h.fields (increasing_sortFields _)
      (head?_present (by rwa [List.map_map]))
    obtain ⟨values, hvalues, hreads⟩ := (hread _ a).1 hv
    cases (hunpack vs).symm.trans hvalues
    refine f.plain_of_readsAs (ha f hf) (fun j hj => hvs f.key j ?_) (hreads f hf)
    rw [field?_present hnodup (List.mem_map_of_mem hf), hj]

end Format

end ClusterSync.Json

import ClusterSync.Json.Reader
import Mathlib.Data.String.Basic

/-!
# The shape of JSON values

What holds of a value and of everything inside it, how deep a value is, and in which order it has
its fields.

**Theorem (`sortFields_eq_self`, `increasing_sortFields`).** Sorting fields orders them strictly by
their keys, and leaves fields in that order alone.
-/

namespace ClusterSync.Json

/-! ## Inside a value -/

/-- What holds of every value that holds of its items and fields holds of all values. -/
@[elab_as_elim]
theorem induct_parts {motive : Json → Prop} (null : motive .null) (bool : ∀ b, motive (.bool b))
    (num : ∀ n, motive (.num n)) (str : ∀ s, motive (.str s))
    (arr : ∀ items, (∀ j ∈ items, motive j) → motive (.arr items))
    (obj : ∀ fields, (∀ f ∈ fields, motive f.2) → motive (.obj fields)) (j : Json) : motive j :=
  match j with
  | .null => null
  | .bool b => bool b
  | .num n => num n
  | .str s => str s
  | .arr items => arr items fun j _ => induct_parts null bool num str arr obj j
  | .obj fields => obj fields fun f _ => induct_parts null bool num str arr obj f.2
termination_by sizeOf j
decreasing_by
  · have hlt : sizeOf j < sizeOf items := List.sizeOf_lt_of_mem ‹_›
    simp only [Json.arr.sizeOf_spec]
    omega
  · have hlt : sizeOf f < sizeOf fields := List.sizeOf_lt_of_mem ‹_›
    obtain ⟨key, j⟩ := f
    simp only [Prod.mk.sizeOf_spec, Json.obj.sizeOf_spec] at hlt ⊢
    omega

mutual

/-- Something holds of a value and of all values inside it. -/
def Each (P : Json → Prop) : Json → Prop
  | .arr items => P (.arr items) ∧ EachItem P items
  | .obj fields => P (.obj fields) ∧ EachField P fields
  | j => P j

def EachItem (P : Json → Prop) : List Json → Prop
  | [] => True
  | j :: rest => Each P j ∧ EachItem P rest

def EachField (P : Json → Prop) : List (String × Json) → Prop
  | [] => True
  | (_, j) :: rest => Each P j ∧ EachField P rest

end

section Each

variable {P Q : Json → Prop} {items : List Json} {fields : List (String × Json)}

theorem each_arr : Each P (.arr items) ↔ P (.arr items) ∧ ∀ j ∈ items, Each P j := by
  have hitems : EachItem P items ↔ ∀ j ∈ items, Each P j := by
    induction items with
    | nil => simp [EachItem]
    | cons j rest ih => simp [EachItem, ih]
  rw [Each, hitems]

theorem each_obj : Each P (.obj fields) ↔ P (.obj fields) ∧ ∀ f ∈ fields, Each P f.2 := by
  have hfields : EachField P fields ↔ ∀ f ∈ fields, Each P f.2 := by
    induction fields with
    | nil => simp [EachField]
    | cons f rest ih => simp [EachField, ih]
  rw [Each, hfields]

theorem Each.self {j : Json} (h : Each P j) : P j := by
  cases j with
  | arr items => exact (each_arr.1 h).1
  | obj fields => exact (each_obj.1 h).1
  | null | bool | num | str => exact h

theorem Each.mono {j : Json} (h : Each P j) (hPQ : ∀ j, P j → Q j) : Each Q j := by
  induction j using induct_parts with
  | arr items ih =>
    obtain ⟨hself, hitems⟩ := each_arr.1 h
    exact each_arr.2 ⟨hPQ _ hself, fun j hj => ih j hj (hitems j hj)⟩
  | obj fields ih =>
    obtain ⟨hself, hfields⟩ := each_obj.1 h
    exact each_obj.2 ⟨hPQ _ hself, fun f hf => ih f hf (hfields f hf)⟩
  | null | bool | num | str => exact hPQ _ h

end Each

/-! ## Depth -/

mutual

/-- How deep containers are nested in a value. -/
def nesting : Json → Nat
  | .arr items => itemsNesting items + 1
  | .obj fields => fieldsNesting fields + 1
  | _ => 0

def itemsNesting : List Json → Nat
  | [] => 0
  | j :: rest => max (nesting j) (itemsNesting rest)

def fieldsNesting : List (String × Json) → Nat
  | [] => 0
  | (_, j) :: rest => max (nesting j) (fieldsNesting rest)

end

theorem nesting_arr_le {items : List Json} {depth : Nat} :
    (arr items).nesting ≤ depth + 1 ↔ ∀ j ∈ items, j.nesting ≤ depth := by
  have hitems : itemsNesting items ≤ depth ↔ ∀ j ∈ items, j.nesting ≤ depth := by
    induction items with
    | nil => simp [itemsNesting]
    | cons j rest ih => simp [itemsNesting, ih]
  rw [nesting, Nat.add_le_add_iff_right, hitems]

theorem nesting_obj_le {fields : List (String × Json)} {depth : Nat} :
    (obj fields).nesting ≤ depth + 1 ↔ ∀ f ∈ fields, f.2.nesting ≤ depth := by
  have hfields : fieldsNesting fields ≤ depth ↔ ∀ f ∈ fields, f.2.nesting ≤ depth := by
    induction fields with
    | nil => simp [fieldsNesting]
    | cons f rest ih => simp [fieldsNesting, ih]
  rw [nesting, Nat.add_le_add_iff_right, hfields]

/-! ## Fields in order -/

section Fields

variable {α : Type} {key : String} {value : α} {fields : List (String × α)}

/-- The keys of fields strictly increase. -/
def Increasing (fields : List (String × α)) : Prop := fields.Pairwise fun a b => a.1 < b.1

theorem increasing_of_keys_eq {values : List (String × α)}
    (h : values.map Prod.fst = fields.map Prod.fst) (hfields : Increasing fields) :
    Increasing values := by
  rw [Increasing, ← List.pairwise_map, h, List.pairwise_map]
  exact hfields

/-- A field that is greater than all others comes last. -/
theorem insertField_of_forall_lt (h : ∀ f ∈ fields, f.1 < key) :
    insertField key value fields = fields ++ [(key, value)] := by
  induction fields with
  | nil => rfl
  | cons f rest ih =>
    have hlt := h f List.mem_cons_self
    rw [insertField, if_neg (lt_asymm hlt), if_neg (ne_of_gt hlt),
      ih fun g hg => h g (List.mem_cons_of_mem _ hg)]
    rfl

theorem sortFields_eq_self (h : Increasing fields) : sortFields fields = fields := by
  suffices hfold : ∀ done : List (String × α), Increasing (done ++ fields) →
      fields.foldl (fun acc f => insertField f.1 f.2 acc) done = done ++ fields from hfold [] h
  intro done
  induction fields generalizing done with
  | nil => intro _; simp
  | cons f rest ih =>
    intro hall
    have hlt : ∀ g ∈ done, g.1 < f.1 := fun g hg =>
      (List.pairwise_append.1 hall).2.2 g hg f List.mem_cons_self
    rw [List.foldl_cons, insertField_of_forall_lt hlt,
      ih (List.pairwise_cons.1 h).2 _ (by simpa using hall)]
    simp

theorem object_eq_obj {fields : List (String × Json)} (h : Increasing fields) :
    object fields = .obj fields := by
  rw [object, sortFields_eq_self h]

/-- What is in a list of fields after an insertion. -/
theorem mem_insertField {f : String × α} (h : f ∈ insertField key value fields) :
    f = (key, value) ∨ f ∈ fields := by
  induction fields with
  | nil => exact .inl (List.mem_singleton.1 h)
  | cons g rest ih =>
    unfold insertField at h
    split at h
    · exact List.mem_cons.1 h
    · split at h
      · exact (List.mem_cons.1 h).imp_right (List.mem_cons_of_mem _)
      · rcases List.mem_cons.1 h with rfl | h
        · exact .inr List.mem_cons_self
        · exact (ih h).imp_right (List.mem_cons_of_mem _)

theorem increasing_insertField (h : Increasing fields) :
    Increasing (insertField key value fields) := by
  induction fields with
  | nil => exact List.pairwise_singleton _ _
  | cons g rest ih =>
    obtain ⟨hg, hrest⟩ := List.pairwise_cons.1 h
    unfold insertField
    split
    · rename_i hlt
      refine List.pairwise_cons.2 ⟨fun f hf => ?_, h⟩
      rcases List.mem_cons.1 hf with rfl | hf
      · exact hlt
      · exact lt_trans hlt (hg f hf)
    · rename_i hnlt
      split
      · rename_i heq
        exact List.pairwise_cons.2 ⟨fun f hf => heq ▸ hg f hf, hrest⟩
      · rename_i hne
        refine List.pairwise_cons.2 ⟨fun f hf => ?_, ih hrest⟩
        rcases mem_insertField hf with rfl | hf
        · exact lt_of_le_of_ne (not_lt.1 hnlt) (Ne.symm hne)
        · exact hg f hf

theorem increasing_sortFields (fields : List (String × α)) : Increasing (sortFields fields) := by
  suffices h : ∀ done : List (String × α), Increasing done →
      Increasing (fields.foldl (fun acc f => insertField f.1 f.2 acc) done) from
    h [] List.Pairwise.nil
  induction fields with
  | nil => exact fun done h => h
  | cons f rest ih => exact fun done h => ih _ (increasing_insertField h)

theorem mem_sortFields {f : String × α} (h : f ∈ sortFields fields) : f ∈ fields := by
  suffices hfold : ∀ done : List (String × α),
      f ∈ fields.foldl (fun acc f => insertField f.1 f.2 acc) done → f ∈ done ∨ f ∈ fields from
    (hfold [] h).resolve_left List.not_mem_nil
  clear h
  induction fields with
  | nil => exact fun done h => .inl h
  | cons g rest ih =>
    intro done h
    rcases ih _ h with h | h
    · exact (mem_insertField h).elim (fun heq => .inr (heq ▸ List.mem_cons_self)) .inl
    · exact .inr (List.mem_cons_of_mem _ h)

theorem field?_cons (other : String) (f : String × α) (rest : List (String × α)) :
    field? other (f :: rest) = if other = f.1 then some f.2 else field? other rest := by
  obtain ⟨key, value⟩ := f
  rw [field?, List.lookup_cons]
  by_cases h : other = key
  · rw [if_pos h, beq_iff_eq.2 h]
  · rw [if_neg h, beq_false_of_ne h]
    rfl

theorem field?_insertField (other : String) :
    field? other (insertField key value fields) =
      if other = key then some value else field? other fields := by
  induction fields with
  | nil => exact field?_cons other (key, value) []
  | cons f rest ih =>
    unfold insertField
    split
    · exact field?_cons other (key, value) _
    · split
      · rename_i heq
        rw [field?_cons, field?_cons]
        by_cases h : other = key
        · rw [if_pos h, if_pos h]
        · rw [if_neg h, if_neg h, if_neg fun h' => h (h'.trans heq.symm)]
      · rename_i hne
        rw [field?_cons, field?_cons, ih]
        by_cases h : other = f.1
        · rw [if_pos h, if_pos h, if_neg fun h' => hne (h'.symm.trans h)]
        · rw [if_neg h, if_neg h]

/-- Of equal keys the last one wins. -/
theorem field?_sortFields (other : String) (fields : List (String × α)) :
    field? other (sortFields fields) = field? other fields.reverse := by
  suffices h : ∀ done : List (String × α),
      field? other (fields.foldl (fun acc f => insertField f.1 f.2 acc) done) =
        (field? other fields.reverse).or (field? other done) from
    (h []).trans (by rw [show field? other ([] : List (String × α)) = none from rfl, Option.or_none])
  induction fields with
  | nil => exact fun done => rfl
  | cons f rest ih =>
    intro done
    rw [List.foldl_cons, ih, field?_insertField, List.reverse_cons, field?, field?, field?,
      List.lookup_append, Option.or_assoc]
    congr 1
    have hsingle := field?_cons other f []
    rw [field?] at hsingle
    rw [hsingle]
    split <;> rfl

theorem field?_ne_none_iff {other : String} {fields : List (String × α)} :
    field? other fields ≠ none ↔ ∃ f ∈ fields, other = f.1 := by
  rw [field?, ne_eq, List.lookup_eq_none_iff]
  simp

/-- Fields of which one is left all have its key. -/
theorem key_eq_of_sortFields {f : String × α} (h : sortFields (f :: fields) = [(key, value)]) :
    f.1 = key := by
  have hfield : field? f.1 (sortFields (f :: fields)) ≠ none := by
    rw [field?_sortFields, field?_ne_none_iff]
    exact ⟨f, by simp, rfl⟩
  rw [h, field?_ne_none_iff] at hfield
  obtain ⟨g, hg, heq⟩ := hfield
  rw [heq, List.mem_singleton.1 hg]

end Fields

/-- A canonical value has increasing keys in all its objects. -/
theorem canonical_iff {j : Json} :
    j.Canonical ↔ j.Each fun i => ∀ fields, i = .obj fields → Increasing fields := by
  induction j using induct_parts with
  | arr items ih =>
    have hitems : CanonicalItems items ↔ ∀ j ∈ items, Canonical j := by
      clear ih
      induction items with
      | nil => simp [CanonicalItems]
      | cons j rest ih => simp [CanonicalItems, ih]
    rw [Canonical, hitems, each_arr]
    exact ⟨fun h => ⟨nofun, fun j hj => (ih j hj).1 (h j hj)⟩,
      fun h j hj => (ih j hj).2 (h.2 j hj)⟩
  | obj fields ih =>
    have hfields : CanonicalFields fields ↔ ∀ f ∈ fields, Canonical f.2 := by
      clear ih
      induction fields with
      | nil => simp [CanonicalFields]
      | cons f rest ih => simp [CanonicalFields, ih]
    rw [Canonical, hfields, each_obj]
    refine and_congr ⟨?_, fun h => h fields rfl⟩
      ⟨fun h f hf => (ih f hf).1 (h f hf), fun h f hf => (ih f hf).2 (h f hf)⟩
    rintro h _ ⟨⟩
    exact h
  | null | bool | num | str => simp [Canonical, Each]

end ClusterSync.Json

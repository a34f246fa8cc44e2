import ClusterSync.Proofs.Json.Sound

/-!
# Values taken over from values

A value that is taken over is read once more, so that an object which begins with the marking key
becomes the value of the text it holds.

**Theorem (`reread?_self_iff`).** A value is taken over as it is exactly if none of its objects
begins with the key that marks an embedded text.

**Theorem (`eq_of_reread?`).** What has been read from a value's text is taken over as the value
itself only if it is the value already.
-/

namespace ClusterSync.Json

variable {j v : Json} {items found : List Json} {fields values : List (String × Json)}

theorem rereadItems?_eq_some_iff : rereadItems? items = some found ↔
    List.Forall₂ (fun i j => reread? i = some j) items found := by
  induction items generalizing found with
  | nil => simp [rereadItems?, eq_comm]
  | cons i items ih =>
    simp only [rereadItems?, Option.bind_eq_bind, Option.pure_def, Option.bind_eq_some_iff,
      Option.some.injEq, ih, List.forall₂_cons_left_iff]
    exact ⟨fun ⟨j, hj, js, hjs, heq⟩ => ⟨j, js, hj, hjs, heq.symm⟩,
      fun ⟨j, js, hj, hjs, heq⟩ => ⟨j, hj, js, hjs, heq.symm⟩⟩

theorem rereadFields?_eq_some_iff : rereadFields? fields = some values ↔
    List.Forall₂ (fun f g => f.1 = g.1 ∧ reread? f.2 = some g.2) fields values := by
  induction fields generalizing values with
  | nil => simp [rereadFields?, eq_comm]
  | cons f fields ih =>
    obtain ⟨key, i⟩ := f
    simp only [rereadFields?, Option.bind_eq_bind, Option.pure_def, Option.bind_eq_some_iff,
      Option.some.injEq, ih, List.forall₂_cons_left_iff]
    exact ⟨fun ⟨j, hj, js, hjs, heq⟩ => ⟨(key, j), js, ⟨rfl, hj⟩, hjs, heq.symm⟩,
      fun ⟨(_, j), js, ⟨hkey, hj⟩, hjs, heq⟩ => ⟨j, hj, js, hjs, hkey ▸ heq.symm⟩⟩

theorem keys_rereadFields? (h : rereadFields? fields = some values) :
    values.map Prod.fst = fields.map Prod.fst := by
  have hkeys : List.Forall₂ (· = ·) (fields.map Prod.fst) (values.map Prod.fst) := by
    rw [List.forall₂_map_left_iff, List.forall₂_map_right_iff]
    exact (rereadFields?_eq_some_iff.1 h).imp fun _ _ hfg => hfg.1
  exact (List.forall₂_eq_eq_eq ▸ hkeys).symm

/-- What is taken over is canonical. -/
theorem canonical_of_reread? (h : reread? j = some v) : v.Canonical := by
  rw [canonical_iff]
  induction j using induct_parts generalizing v with
  | arr items ih =>
    rw [reread?] at h
    obtain ⟨found, hfound, rfl⟩ := Option.map_eq_some_iff.1 h
    exact each_arr.2 ⟨nofun,
      Tree.forall_mem_of_forall₂ (rereadItems?_eq_some_iff.1 hfound) fun i hi w hw => ih i hi hw⟩
  | obj fields ih =>
    rw [reread?] at h
    split at h
    · obtain ⟨s, -, hs⟩ := Option.bind_eq_some_iff.1 h
      exact canonical_iff.1 (sound_parse? hs).canonical
    · obtain ⟨values, hvalues, rfl⟩ := Option.map_eq_some_iff.1 h
      have hparts := Tree.forall_mem_of_forall₂ (rereadFields?_eq_some_iff.1 hvalues)
        fun f hf g hg => ih f hf hg.2
      refine each_obj.2 ⟨?_, fun f hf => hparts f (mem_sortFields hf)⟩
      rintro _ ⟨⟩
      exact increasing_sortFields values
  | null | bool | num | str =>
    cases h
    nofun

theorem modest_parse? : Tree.Modest parse? := fun s => modest_parseEmbedding? _ s

theorem isEmbedded_iff : isEmbedded fields = true ↔
    ∃ f rest, fields = f :: rest ∧ f.1 = embeddedKey := by
  cases fields <;> simp [isEmbedded]

theorem isEmbedded_eq_of_keys_eq (h : values.map Prod.fst = fields.map Prod.fst) :
    isEmbedded values = isEmbedded fields := by
  rw [isEmbedded, isEmbedded, ← List.head?_map, ← List.head?_map, h]

theorem isEmbedded_treeFields (fields : List (String × Json)) :
    Tree.isEmbedded (treeFields fields) = isEmbedded fields := by
  rw [Bool.eq_iff_iff, isEmbedded_iff, Tree.isEmbedded_treeFields]

/-- No value is taken over as an object with the marking key alone. -/
theorem reread?_ne (j x : Json) : reread? j ≠ some (.obj [(embeddedKey, x)]) := by
  intro h
  cases j with
  | obj fields =>
    rw [reread?] at h
    split at h
    · obtain ⟨s, -, hs⟩ := Option.bind_eq_some_iff.1 h
      exact modest_parse? s x hs
    · rename_i hplain
      obtain ⟨values, hvalues, heq⟩ := Option.map_eq_some_iff.1 h
      have hsorted : sortFields values = [(embeddedKey, x)] := Json.obj.inj heq
      cases values with
      | nil => cases hsorted
      | cons g rest =>
        obtain ⟨f, _, hkey, -, rfl⟩ :=
          List.forall₂_cons_right_iff.1 (rereadFields?_eq_some_iff.1 hvalues)
        rw [key_eq_of_sortFields hsorted] at hkey
        exact hplain (isEmbedded_iff.2 ⟨f, _, rfl, hkey.1⟩)
  | arr items =>
    rw [reread?] at h
    obtain ⟨_, -, heq⟩ := Option.map_eq_some_iff.1 h
    cases heq
  | null | bool | num | str => cases h

/-- Fields in increasing order are the object that they are taken over as. -/
theorem object_rereadFields? (h : Increasing fields) :
    (rereadFields? fields).map object = some (.obj fields) ↔
      ∀ f ∈ fields, reread? f.2 = some f.2 := by
  have hself : rereadFields? fields = some fields ↔ ∀ f ∈ fields, reread? f.2 = some f.2 := by
    rw [rereadFields?_eq_some_iff, List.forall₂_same]
    simp only [true_and]
  rw [← hself]
  constructor
  · intro hobject
    obtain ⟨values, hvalues, heq⟩ := Option.map_eq_some_iff.1 hobject
    rw [object_eq_obj (increasing_of_keys_eq (keys_rereadFields? hvalues) h)] at heq
    cases heq
    exact hvalues
  · intro hfields
    rw [hfields, Option.map_some, object_eq_obj h]

/-- An object that stands for an embedded text has no other field. -/
theorem eq_nil_of_embedded {f : String × Json} {read : String → Option Json}
    (h : (embeddedText? (f :: fields)).bind read = some v) : fields = [] := by
  cases fields with
  | nil => rfl
  | cons g rest => simp [embeddedText?] at h

theorem reread?_self_iff (hc : j.Canonical) : reread? j = some j ↔ j.Unmarked := by
  rw [canonical_iff] at hc
  induction j using induct_parts with
  | arr items ih =>
    have hitems : ∀ i ∈ items, reread? i = some i ↔ i.Unmarked := fun i hi =>
      ih i hi ((each_arr.1 hc).2 i hi)
    rw [reread?, Unmarked, each_arr, Option.map_eq_some_iff]
    simp only [Json.arr.injEq, exists_eq_right, reduceCtorEq, false_implies, implies_true, true_and]
    rw [rereadItems?_eq_some_iff, List.forall₂_same]
    exact forall₂_congr hitems
  | obj fields ih =>
    have hfields : ∀ f ∈ fields, reread? f.2 = some f.2 ↔ f.2.Unmarked := fun f hf =>
      ih f hf ((each_obj.1 hc).2 f hf)
    have hincreasing := (each_obj.1 hc).1 fields rfl
    rw [Unmarked, each_obj, reread?]
    split
    · rename_i hembedded
      obtain ⟨⟨key, x⟩, rest, rfl, rfl⟩ := isEmbedded_iff.1 hembedded
      refine iff_of_false (fun h => ?_) fun h => h.1 _ _ rfl rfl
      obtain rfl := eq_nil_of_embedded h
      exact reread?_ne (.obj [(embeddedKey, x)]) x (by rwa [reread?, if_pos hembedded])
    · rename_i hplain
      have hfirst : ∀ f rest, Json.obj fields = .obj (f :: rest) → f.1 ≠ embeddedKey := by
        rintro f rest ⟨⟩ hkey
        exact hplain (isEmbedded_iff.2 ⟨f, rest, rfl, hkey⟩)
      rw [object_rereadFields? hincreasing, and_iff_right hfirst]
      exact forall₂_congr hfields
  | null | bool | num | str => simp [reread?, Unmarked, Each]

/-- Two lists are equal if each part of one is taken to its part of the other and back, and this is
only so for equal parts. -/
theorem eq_of_forall₂ {α : Type} {R S : α → α → Prop} {as bs : List α} (h : List.Forall₂ R as bs)
    (h' : List.Forall₂ S bs as) (heq : ∀ a ∈ as, ∀ b, R a b → S b a → b = a) : bs = as := by
  induction h with
  | nil => rfl
  | cons hr _ ih =>
    cases h' with
    | cons hs h' =>
      rw [heq _ List.mem_cons_self _ hr hs, ih h' fun a ha => heq a (List.mem_cons_of_mem _ ha)]

theorem eq_of_reread? (hj : j.Canonical) {n depth : Nat}
    (hv : Tree.value? (parseEmbedding? n) depth j.tree = some v) (h : reread? v = some j) :
    v = j := by
  rw [canonical_iff] at hj
  induction j using induct_parts generalizing v depth with
  | null => exact (Option.some.inj hv).symm
  | bool b => exact (Option.some.inj hv).symm
  | num m =>
    rw [tree, Tree.value?] at hv
    obtain ⟨m', -, rfl⟩ := Option.map_eq_some_iff.1 hv
    exact Option.some.inj h
  | str s =>
    rw [tree, Tree.value?] at hv
    obtain ⟨s', -, rfl⟩ := Option.map_eq_some_iff.1 hv
    exact Option.some.inj h
  | arr items ih =>
    cases depth with
    | zero => cases hv
    | succ depth =>
      rw [tree, Tree.value?] at hv
      obtain ⟨vs, hvs, rfl⟩ := Option.map_eq_some_iff.1 hv
      rw [Tree.values?_eq_some_iff, Tree.treeItems_eq_map, List.forall₂_map_left_iff] at hvs
      rw [reread?] at h
      obtain ⟨_, hitems, ⟨⟩⟩ := Option.map_eq_some_iff.1 h
      rw [rereadItems?_eq_some_iff] at hitems
      exact congrArg arr <| eq_of_forall₂ hvs hitems fun i hi w hw hback =>
        ih i hi ((each_arr.1 hj).2 i hi) hw hback
  | obj fields ih =>
    cases depth with
    | zero => cases hv
    | succ depth =>
      have hincreasing := (each_obj.1 hj).1 fields rfl
      rw [tree, Tree.value?] at hv
      split at hv
      · rename_i hembedded
        obtain ⟨⟨key, x⟩, rest, rfl, rfl⟩ := Tree.isEmbedded_treeFields.1 hembedded
        cases rest with
        | nil => exact absurd h (reread?_ne v x)
        | cons f rest => cases hv
      · rename_i hplain
        obtain ⟨vs, hvs, rfl⟩ := Option.map_eq_some_iff.1 hv
        have hkeys := Tree.keys_fieldValues? hvs
        have hfirst : ¬ isEmbedded vs = true := by
          rwa [isEmbedded_eq_of_keys_eq hkeys, ← isEmbedded_treeFields]
        rw [object_eq_obj (increasing_of_keys_eq hkeys hincreasing), reread?, if_neg hfirst] at h
        obtain ⟨found, hfound, heq⟩ := Option.map_eq_some_iff.1 h
        rw [object_eq_obj (increasing_of_keys_eq ((keys_rereadFields? hfound).trans hkeys)
          hincreasing)] at heq
        cases heq
        rw [Tree.fieldValues?_eq_some_iff, Tree.treeFields_eq_map, List.forall₂_map_left_iff] at hvs
        rw [rereadFields?_eq_some_iff] at hfound
        rw [object_eq_obj (increasing_of_keys_eq hkeys hincreasing)]
        refine congrArg obj <| eq_of_forall₂ hvs hfound fun f hf g hg hback => ?_
        exact Prod.ext hback.1 (ih f hf ((each_obj.1 hj).2 f hf) hg.2 hback.2)

end ClusterSync.Json

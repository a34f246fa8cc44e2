import ClusterSync.Json.Record
import ClusterSync.Proofs.Json.Reread
import Mathlib.Data.Option.Basic

/-!
# Parts of records, and what is read of a value that was written

**Theorem (`Json.eq_ofLabels`, `Json.labels?_ofLabels`).** The fields that are written for labels
are read as those labels, and no other fields are once they are in order.

**Theorem (`Json.ReadsAs.passes`).** Labels that begin with the key that marks an embedded text are
not read back from the text that was written for them, wherever they stand in a value.

**Theorem (`Json.ReadsAs.keeps`).** A part that may be any value is read back as itself only if it is
without marked objects and, in a text, neither nested too deep nor with numbers that change there.
-/

namespace ClusterSync

open Json

/-! ## Labels -/

namespace Labels

/-- The least label is not the key that marks an embedded text. -/
def IsPlain (l : Labels) : Prop := l.minKey? ≠ some embeddedKey

theorem ofList_toList (l : Labels) : Std.ExtTreeMap.ofList l.toList = l := by
  refine Std.ExtTreeMap.ext_getElem? fun k => ?_
  cases h : l[k]? with
  | some s =>
    exact Std.ExtTreeMap.getElem?_ofList_of_mem Std.compare_self
      Std.ExtTreeMap.distinct_keys_toList (Std.ExtTreeMap.mem_toList_iff_getElem?_eq_some.2 h)
  | none =>
    refine Std.ExtTreeMap.getElem?_ofList_of_contains_eq_false ?_
    rw [Std.ExtTreeMap.map_fst_toList_eq_keys, Bool.eq_false_iff, Ne, List.contains_iff_mem,
      Std.ExtTreeMap.mem_keys, Std.ExtTreeMap.mem_iff_isSome_getElem?, h]
    nofun

@[simp]
theorem isPlain_empty : IsPlain ∅ := by
  rw [IsPlain, Std.ExtTreeMap.minKey?_empty]
  nofun

end Labels

namespace Json

theorem objectFields?_obj (fields : List (String × Json)) :
    objectFields? (.obj fields) = some fields := rfl

theorem mapM_eq_some_iff {α β : Type} {f : α → Option β} {as : List α} {bs : List β} :
    as.mapM f = some bs ↔ List.Forall₂ (fun a b => f a = some b) as bs := by
  induction as generalizing bs with
  | nil => simp [eq_comm]
  | cons a as ih =>
    simp only [List.mapM_cons, Option.bind_eq_bind, Option.pure_def, Option.bind_eq_some_iff,
      Option.some.injEq, ih, List.forall₂_cons_left_iff]
    exact ⟨fun ⟨b, hb, bs, hbs, heq⟩ => ⟨b, bs, hb, hbs, heq.symm⟩,
      fun ⟨b, bs, hb, hbs, heq⟩ => ⟨b, hb, bs, hbs, heq.symm⟩⟩

section OfLabels

variable {l : Labels}

/-- The fields of the object of labels. -/
def labelFields (l : Labels) : List (String × Json) := l.toList.map fun f => (f.1, .str f.2)

theorem ofLabels_eq (l : Labels) : ofLabels l = .obj (labelFields l) := rfl

theorem labels?_obj_iff {fields : List (String × Json)} : labels? (.obj fields) = some l ↔
    ∃ pairs, List.Forall₂ (fun f p => f = (p.1, .str p.2)) fields pairs ∧
      Std.ExtTreeMap.ofList pairs = l := by
  have hfield : ∀ (f : String × Json) (p : String × String),
      ((text? f.2).map fun s => (f.1, s)) = some p ↔ f = (p.1, .str p.2) := by
    rintro ⟨key, j⟩ ⟨key', s⟩
    cases j <;> simp [text?, and_comm]
  unfold labels?
  simp only [Option.map_eq_some_iff, mapM_eq_some_iff, hfield]

theorem labels?_ofLabels (l : Labels) : labels? (ofLabels l) = some l := by
  refine labels?_obj_iff.2 ⟨l.toList, ?_, Labels.ofList_toList l⟩
  exact List.forall₂_map_left_iff.2 (List.forall₂_same.2 fun _ _ => rfl)

theorem increasing_labelFields (l : Labels) : Increasing (labelFields l) := by
  rw [Increasing, labelFields, List.pairwise_map]
  exact Std.ExtTreeMap.ordered_keys_toList.imp compare_lt_iff_lt.1

theorem head?_labelFields (l : Labels) : (labelFields l).head?.map Prod.fst = l.minKey? := by
  rw [labelFields, Std.ExtTreeMap.minKey?_eq_head?_keys, ← Std.ExtTreeMap.map_fst_toList_eq_keys]
  cases l.toList <;> rfl

theorem getElem?_ofList_iff {pairs : List (String × String)} (h : Increasing pairs)
    (k s : String) : (Std.ExtTreeMap.ofList pairs : Labels)[k]? = some s ↔ (k, s) ∈ pairs := by
  have hof : ∀ s, (k, s) ∈ pairs → (Std.ExtTreeMap.ofList pairs : Labels)[k]? = some s :=
    fun s hs => Std.ExtTreeMap.getElem?_ofList_of_mem Std.compare_self
      (h.imp fun hlt heq => absurd (Std.LawfulEqCmp.eq_of_compare heq) (ne_of_lt hlt)) hs
  refine ⟨fun hk => ?_, hof s⟩
  have hmem : k ∈ (Std.ExtTreeMap.ofList pairs : Labels) := by
    rw [Std.ExtTreeMap.mem_iff_isSome_getElem?, hk]
    rfl
  have hkey : k ∈ pairs.map Prod.fst := List.contains_iff_mem.1 (Std.ExtTreeMap.mem_ofList.1 hmem)
  obtain ⟨⟨_, s'⟩, hs', rfl⟩ := List.mem_map.1 hkey
  cases Option.some.inj ((hof s' hs').symm.trans hk)
  exact hs'

theorem toList_ofList {pairs : List (String × String)} (h : Increasing pairs) :
    (Std.ExtTreeMap.ofList pairs : Labels).toList = pairs := by
  have hsorted : Increasing (Std.ExtTreeMap.ofList pairs : Labels).toList :=
    Std.ExtTreeMap.ordered_keys_toList.imp compare_lt_iff_lt.1
  have hnodup : ∀ {ps : List (String × String)}, Increasing ps → ps.Nodup := fun hps =>
    hps.imp fun hlt heq => ne_of_lt hlt (congrArg Prod.fst heq)
  have hperm := (List.perm_ext_iff_of_nodup (hnodup hsorted) (hnodup h)).2 fun (k, s) => by
    rw [Std.ExtTreeMap.mem_toList_iff_getElem?_eq_some, getElem?_ofList_iff h]
  exact hperm.eq_of_pairwise (fun a b _ _ hab hba => absurd hab (lt_asymm hba)) hsorted h

/-- Fields in order that are read as labels are those that are written for them. -/
theorem eq_ofLabels {v : Json} (hv : v.Sound) (h : labels? v = some l) : v = ofLabels l := by
  cases v with
  | obj fields =>
    obtain ⟨pairs, hpairs, rfl⟩ := labels?_obj_iff.1 h
    have hfields : fields = pairs.map fun p => (p.1, .str p.2) := by
      rw [← List.forall₂_eq_eq_eq, List.forall₂_map_right_iff]
      exact hpairs
    have hincreasing : Increasing pairs := by
      have hself := hv.self.1 fields rfl
      rwa [hfields, Increasing, List.pairwise_map] at hself
    rw [ofLabels_eq, labelFields, hfields, toList_ofList hincreasing]
  | null | bool | num | str | arr => cases h

end OfLabels

/-! ## What is written -/

/-- A value can be written; if a condition holds, it is read back from its text, in which containers
may nest up to the given depth. -/
structure Regular (depth : Nat) (plain : Prop) (j : Json) : Prop where
  canonical : j.Canonical
  intact : plain → j.nesting ≤ depth ∧ j.Unmarked ∧ j.Kept

section Regular

variable {depth : Nat} {plain : Prop}

theorem Regular.mono {plain' : Prop} {j : Json} (h : j.Regular depth plain)
    (hplain : plain' → plain) : j.Regular depth plain' := ⟨h.canonical, h.intact ∘ hplain⟩

theorem regular_str (s : String) : (str s).Regular depth plain :=
  ⟨trivial, fun _ => ⟨Nat.zero_le _, nofun, nofun⟩⟩

theorem regular_bool (b : Bool) : (bool b).Regular depth plain :=
  ⟨trivial, fun _ => ⟨Nat.zero_le _, nofun, nofun⟩⟩

theorem regular_int {i : Int} (h : Number.IsInteger (.int i)) :
    (num (.int i)).Regular depth plain := by
  refine ⟨trivial, fun _ => ⟨Nat.zero_le _, nofun, ?_⟩⟩
  rintro _ ⟨⟩
  exact h.isKept

theorem regular_arr {items : List Json} (h : ∀ j ∈ items, j.Regular depth plain) :
    (arr items).Regular (depth + 1) plain where
  canonical := canonical_iff.2 (each_arr.2 ⟨nofun, fun j hj => canonical_iff.1 (h j hj).canonical⟩)
  intact hp := ⟨nesting_arr_le.2 fun j hj => ((h j hj).intact hp).1,
    each_arr.2 ⟨nofun, fun j hj => ((h j hj).intact hp).2.1⟩,
    each_arr.2 ⟨nofun, fun j hj => ((h j hj).intact hp).2.2⟩⟩

theorem regular_obj {fields : List (String × Json)} (hfields : Increasing fields)
    (hplain : plain → fields.head?.map Prod.fst ≠ some embeddedKey)
    (h : ∀ f ∈ fields, f.2.Regular depth plain) : (obj fields).Regular (depth + 1) plain where
  canonical := canonical_iff.2 <| each_obj.2
    ⟨by rintro _ ⟨⟩; exact hfields, fun f hf => canonical_iff.1 (h f hf).canonical⟩
  intact hp := ⟨nesting_obj_le.2 fun f hf => ((h f hf).intact hp).1,
    each_obj.2 ⟨by rintro f rest ⟨⟩ heq; exact hplain hp (congrArg some heq),
      fun f hf => ((h f hf).intact hp).2.1⟩,
    each_obj.2 ⟨nofun, fun f hf => ((h f hf).intact hp).2.2⟩⟩

theorem regular_ofLabels (l : Labels) : (ofLabels l).Regular (depth + 1) l.IsPlain := by
  rw [ofLabels_eq]
  refine regular_obj (increasing_labelFields l) (fun hl => ?_) fun f hf => ?_
  · rwa [head?_labelFields]
  · obtain ⟨p, -, rfl⟩ := List.mem_map.1 hf
    exact regular_str p.2

end Regular

/-! ## What it is read as -/

/-- What is read: a value itself, or the text as which it is written, in which containers may nest
up to the given depth. -/
inductive Medium
  | value
  | text (depth : Nat)

/-- The medium of the parts of a container. -/
def Medium.inside : Medium → Medium
  | .value => .value
  | .text depth => .text (depth - 1)

/-- What a value may be read as. -/
def ReadsAs (j v : Json) : Medium → Prop
  | .value => v = j
  | .text depth => ∃ n, Tree.value? (parseEmbedding? n) depth j.tree = some v

section ReadsAs

variable {medium : Medium} {j v : Json}

theorem readsAs_of_parse? (h : parse? j.render = some v) : j.ReadsAs v (.text maxDepth) := by
  rw [parse?, parseEmbedding?, Tree.ofText?_render] at h
  exact ⟨_, h⟩

theorem ReadsAs.eq_null (h : null.ReadsAs v medium) : v = .null := by
  cases medium with
  | value => exact h
  | text depth =>
    obtain ⟨n, h⟩ := h
    exact (Option.some.inj h).symm

theorem ReadsAs.items {items : List Json} (h : (arr items).ReadsAs v medium) :
    ∃ vs, v = .arr vs ∧ List.Forall₂ (ReadsAs · · medium.inside) items vs := by
  cases medium with
  | value => exact ⟨items, h, List.forall₂_same.2 fun _ _ => rfl⟩
  | text depth =>
    obtain ⟨n, h⟩ := h
    cases depth with
    | zero => cases h
    | succ depth =>
      rw [tree, Tree.value?] at h
      obtain ⟨vs, hvs, rfl⟩ := Option.map_eq_some_iff.1 h
      rw [Tree.values?_eq_some_iff, Tree.treeItems_eq_map, List.forall₂_map_left_iff] at hvs
      exact ⟨vs, rfl, hvs.imp fun _ _ hw => ⟨n, hw⟩⟩

theorem ReadsAs.fields {fields : List (String × Json)} (h : (obj fields).ReadsAs v medium)
    (hfields : Increasing fields) (hplain : fields.head?.map Prod.fst ≠ some embeddedKey) :
    ∃ vs, v = .obj vs ∧ ∀ key i, field? key fields = some i →
      ∃ w, field? key vs = some w ∧ i.ReadsAs w medium.inside := by
  cases medium with
  | value => exact ⟨fields, h, fun key i hi => ⟨i, hi, rfl⟩⟩
  | text depth =>
    obtain ⟨n, h⟩ := h
    cases depth with
    | zero => cases h
    | succ depth =>
      have hfirst : Tree.isEmbedded (treeFields fields) = false := by
        rw [isEmbedded_treeFields]
        exact decide_eq_false hplain
      rw [tree, Tree.value?, hfirst] at h
      obtain ⟨vs, hvs, rfl⟩ := Option.map_eq_some_iff.1 h
      refine ⟨vs, object_eq_obj (increasing_of_keys_eq (Tree.keys_fieldValues? hvs) hfields),
        fun key i hi => ?_⟩
      rw [Tree.fieldValues?_eq_some_iff, Tree.treeFields_eq_map, List.forall₂_map_left_iff] at hvs
      clear hfields hplain hfirst h
      induction hvs with
      | nil => cases hi
      | @cons f g fields vs hfg _ ih =>
        obtain ⟨hkey, hvalue⟩ := hfg
        rw [Piece.text?_ofText] at hkey
        rw [field?_cons] at hi ⊢
        rw [← Option.some.inj hkey]
        split at hi
        · cases hi
          exact ⟨g.2, if_pos ‹_›, n, hvalue⟩
        · rw [if_neg ‹_›]
          exact ih hi

end ReadsAs

/-- Nothing in the way of reading labels: in a text the least one is not the marking key. -/
def Medium.Passes (l : Labels) : Medium → Prop
  | .value => True
  | .text _ => l.IsPlain

@[simp]
theorem Medium.passes_inside {l : Labels} {medium : Medium} :
    medium.inside.Passes l ↔ medium.Passes l := by
  cases medium <;> rfl

@[simp]
theorem Medium.passes_empty (medium : Medium) : medium.Passes ∅ := by
  cases medium with
  | value => trivial
  | text depth => exact Labels.isPlain_empty

/-- Labels are read back from what is written for them only if nothing is in the way. -/
theorem ReadsAs.passes {medium : Medium} {l : Labels} {v : Json}
    (h : (ofLabels l).ReadsAs v medium) (hl : labels? v = some l) : medium.Passes l := by
  cases medium with
  | value => trivial
  | text depth =>
    obtain ⟨n, h⟩ := h
    obtain rfl := eq_ofLabels (Tree.sound_value? (sound_parseEmbedding? n) h) hl
    have hregular : (ofLabels l).Regular 1 l.IsPlain := regular_ofLabels l
    have hunmarked :=
      ((Tree.value?_tree_iff (modest_parseEmbedding? n) hregular.canonical depth).1 h).2.1
    rw [Medium.Passes, Labels.IsPlain, ← head?_labelFields]
    cases hfields : labelFields l with
    | nil => nofun
    | cons f rest =>
      have hfirst := hunmarked.self f rest (by rw [ofLabels_eq, hfields])
      exact fun heq => hfirst (Option.some.inj heq)

/-- Nothing in the way of reading a value of any form. -/
def Medium.Keeps (j : Json) : Medium → Prop
  | .value => j.Unmarked
  | .text depth => j.nesting ≤ depth ∧ j.Unmarked ∧ j.Kept

theorem ReadsAs.keeps {medium : Medium} {j v : Json} (hj : j.Canonical) (h : j.ReadsAs v medium)
    (hv : reread? v = some j) : medium.Keeps j := by
  cases medium with
  | value =>
    rw [show v = j from h] at hv
    exact (reread?_self_iff hj).1 hv
  | text depth =>
    obtain ⟨n, h⟩ := h
    rw [eq_of_reread? hj h hv] at h
    exact (Tree.value?_tree_iff (modest_parseEmbedding? n) hj depth).1 h

/-! ## Records in trees -/

theorem field?_map {α β : Type} (g : α → β) (key : String) (fields : List (String × α)) :
    field? key (fields.map fun f => (f.1, g f.2)) = (field? key fields).map g := by
  induction fields with
  | nil => rfl
  | cons f fields ih =>
    rw [List.map_cons, field?_cons, field?_cons, ih]
    split <;> rfl

namespace Tree

theorem text?_tree (s : String) : text? (Json.str s).tree = some s := Piece.text?_ofText s

theorem labels?_tree (l : Labels) : labels? (ofLabels l).tree = some l := by
  have hpairs : (l.toList.map fun f => (Piece.ofText f.1, (Json.str f.2).tree)).mapM
      (fun f => (Piece.text? f.1).bind fun key => (text? f.2).bind fun s => some (key, s)) =
      some l.toList := by
    refine mapM_eq_some_iff.2 (List.forall₂_map_left_iff.2 (List.forall₂_same.2 fun f _ => ?_))
    rw [Piece.text?_ofText, text?_tree]
    rfl
  rw [ofLabels_eq, Json.tree, treeFields_eq_map, labelFields, List.map_map]
  refine Option.bind_eq_some_iff.2 ⟨l.toList, hpairs, ?_⟩
  rw [Labels.ofList_toList]
  rfl

variable {names : List String} {fields : List (String × Json)}

theorem knownFields?_treeFields (hfields : Increasing fields) (hnames : ∀ f ∈ fields, f.1 ∈ names)
    (known : List (String × Tree)) (hknown : ∀ f ∈ fields, field? f.1 known = none) :
    recordFields?.knownFields? names (treeFields fields) known =
      some ((fields.map fun f => (f.1, f.2.tree)).reverse ++ known) := by
  induction fields generalizing known with
  | nil => rfl
  | cons f fields ih =>
    obtain ⟨key, j⟩ := f
    obtain ⟨hfirst, hrest⟩ := List.pairwise_cons.1 hfields
    have hname : names.contains key = true := List.contains_iff_mem.2 (hnames _ List.mem_cons_self)
    have hnew : field? key known = none := hknown _ List.mem_cons_self
    have hlater : ∀ g ∈ fields, field? g.1 ((key, j.tree) :: known) = none := fun g hg => by
      rw [field?_cons, if_neg (ne_of_gt (hfirst g hg))]
      exact hknown g (List.mem_cons_of_mem _ hg)
    rw [treeFields, recordFields?.knownFields?, Piece.text?_ofText]
    simp only [Option.bind_eq_bind, Option.bind_some, hname, if_true, hnew, Option.isNone_none,
      guard]
    rw [List.map_cons, List.reverse_cons, List.append_assoc, List.singleton_append]
    exact ih hrest (fun g hg => hnames g (List.mem_cons_of_mem _ hg)) _ hlater

/-- The parts of a record in a tree are the trees of its fields. -/
theorem recordFields?_tree (hfields : Increasing fields) (hnames : ∀ f ∈ fields, f.1 ∈ names) :
    ∃ known, recordFields? names (Json.obj fields).tree = some known ∧
      ∀ key, field? key known = (field? key fields).map Json.tree := by
  refine ⟨_, knownFields?_treeFields hfields hnames [] fun _ _ => rfl, fun key => ?_⟩
  have hmapped : Increasing (fields.map fun f => (f.1, f.2.tree)) := List.pairwise_map.2 hfields
  rw [List.append_nil, ← field?_sortFields, sortFields_eq_self hmapped, field?_map]

end Tree

end Json

end ClusterSync

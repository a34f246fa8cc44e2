import ClusterSync.Proofs.Json.Roundtrip

/-!
# What is read is well-formed

**Theorem (`sound_parse?`).** However a text is written, with fields in any order, repeated keys,
escapes and embedded texts, its value is canonical, and its integers fit 64 bits. So a value without
floating-point numbers that has been read can be written and read again like any other.
-/

namespace ClusterSync.Json

/-- The form of the values that are read: keys increase, and integers fit 64 bits. -/
def Sound (j : Json) : Prop :=
  j.Each fun i => (∀ fields, i = .obj fields → Increasing fields) ∧
    ∀ n, i = .num (.int n) → Number.IsInteger (.int n)

theorem Sound.canonical {j : Json} (h : j.Sound) : j.Canonical :=
  canonical_iff.2 (h.mono fun _ hi => hi.1)

/-- A value without floating-point numbers. -/
def IsExact (j : Json) : Prop := j.Each fun i => ∀ x, i ≠ .num (.real x)

theorem Sound.integral {j : Json} (h : j.Sound) (hx : j.IsExact) : j.Integral := by
  induction j using induct_parts with
  | num n =>
    rintro _ ⟨⟩
    cases n with
    | int i => exact h.self.2 i rfl
    | real x => exact absurd rfl (hx.self x)
  | arr items ih =>
    exact each_arr.2 ⟨nofun, fun j hj => ih j hj ((each_arr.1 h).2 j hj) ((each_arr.1 hx).2 j hj)⟩
  | obj fields ih =>
    exact each_obj.2 ⟨nofun, fun f hf => ih f hf ((each_obj.1 h).2 f hf) ((each_obj.1 hx).2 f hf)⟩
  | null | bool | str => exact nofun

theorem Integral.isExact {j : Json} (h : j.Integral) : j.IsExact :=
  h.mono fun _ hi x heq => hi (.real x) heq

theorem Numeral.isInteger_of_integer? {n : Numeral} {i : Int} (h : n.integer? = some i) :
    Number.IsInteger (.int i) := by
  unfold integer? at h
  dsimp only at h
  split at h
  · cases h
  · split at h
    · split at h
      · cases h
      · cases h
        simp only [Number.IsInteger]
        omega
    · split at h
      · rename_i hlt
        cases h
        have hlt : List.foldl (fun a d => a * 10 + d) 0 n.whole < 18446744073709551616 := hlt
        simp only [Number.IsInteger]
        omega
      · cases h

theorem Numeral.isInteger_of_number? {n : Numeral} {i : Int} (h : n.number? = some (.int i)) :
    Number.IsInteger (.int i) := by
  unfold number? at h
  split at h
  · rename_i hi
    cases h
    exact isInteger_of_integer? hi
  · obtain ⟨x, -, heq⟩ := Option.map_eq_some_iff.1 h
    cases heq

namespace Tree

variable {embedded? : String → Option Json} {depth : Nat}

/-- What holds of whatever is read in a place holds of all that is read. -/
theorem forall_mem_of_forall₂ {α β : Type} {R : α → β → Prop} {Q : β → Prop} {as : List α}
    {bs : List β} (h : List.Forall₂ R as bs) (hq : ∀ a ∈ as, ∀ b, R a b → Q b) :
    ∀ b ∈ bs, Q b := by
  induction h with
  | nil => exact fun _ hb => absurd hb List.not_mem_nil
  | cons hr _ ih =>
    exact List.forall_mem_cons.2 ⟨hq _ List.mem_cons_self _ hr,
      ih fun a ha => hq a (List.mem_cons_of_mem _ ha)⟩

theorem sound_null : Json.null.Sound := ⟨nofun, nofun⟩

theorem sound_bool (b : Bool) : (Json.bool b).Sound := ⟨nofun, nofun⟩

theorem sound_str (s : String) : (Json.str s).Sound := ⟨nofun, nofun⟩

theorem sound_num {n : Numeral} {number : Number} (h : n.number? = some number) :
    (Json.num number).Sound := by
  refine ⟨nofun, fun i heq => ?_⟩
  cases heq
  exact Numeral.isInteger_of_number? h

theorem sound_arr {items : List Json} (h : ∀ j ∈ items, j.Sound) : (Json.arr items).Sound :=
  each_arr.2 ⟨⟨nofun, nofun⟩, h⟩

theorem sound_object {fields : List (String × Json)} (h : ∀ f ∈ fields, f.2.Sound) :
    (object fields).Sound := by
  refine each_obj.2 ⟨⟨?_, nofun⟩, fun f hf => h f (mem_sortFields hf)⟩
  rintro _ ⟨⟩
  exact increasing_sortFields fields

theorem sound_value? (he : ∀ s j, embedded? s = some j → j.Sound) {t : Tree} {j : Json}
    (h : value? embedded? depth t = some j) : j.Sound := by
  induction t using induct_parts generalizing depth j with
  | null =>
    cases h
    exact sound_null
  | bool b =>
    cases h
    exact sound_bool b
  | num n =>
    rw [value?] at h
    obtain ⟨number, hn, rfl⟩ := Option.map_eq_some_iff.1 h
    exact sound_num hn
  | str pieces =>
    rw [value?] at h
    obtain ⟨s, -, rfl⟩ := Option.map_eq_some_iff.1 h
    exact sound_str s
  | arr items ih =>
    cases depth with
    | zero => cases h
    | succ depth =>
      rw [value?] at h
      obtain ⟨found, hfound, rfl⟩ := Option.map_eq_some_iff.1 h
      exact sound_arr <|
        forall_mem_of_forall₂ (values?_eq_some_iff.1 hfound) fun t ht j hj => ih t ht hj
  | obj fields ih =>
    cases depth with
    | zero => cases h
    | succ depth =>
      rw [value?] at h
      split at h
      · obtain ⟨s, -, hs⟩ := Option.bind_eq_some_iff.1 h
        exact he s j hs
      · obtain ⟨found, hfound, rfl⟩ := Option.map_eq_some_iff.1 h
        exact sound_object (forall_mem_of_forall₂ (fieldValues?_eq_some_iff.1 hfound)
          fun f hf g hg => ih f hf hg.2)

end Tree

theorem sound_parseEmbedding? (n : Nat) (text : String) (j : Json)
    (h : parseEmbedding? n text = some j) : j.Sound := by
  induction n generalizing text j with
  | zero => cases h
  | succ n ih =>
    obtain ⟨t, -, ht⟩ := Option.bind_eq_some_iff.1 h
    exact Tree.sound_value? ih ht

theorem sound_parse? {text : String} {j : Json} (h : parse? text = some j) : j.Sound :=
  sound_parseEmbedding? _ _ _ h

/-! ## Texts without embedded texts -/

/-- The value of a text in which no other is embedded. -/
def parseDirect? (text : String) : Option Json :=
  (Tree.ofText? text).bind (Tree.value? (fun _ => none) maxDepth)

namespace Tree

theorem value?_direct {depth : Nat} {t : Tree} {j : Json}
    (h : value? (fun _ => none) depth t = some j) :
    j.nesting ≤ depth ∧ ∀ embedded?, value? embedded? depth t = some j := by
  induction t using induct_parts generalizing depth j with
  | null | bool =>
    cases h
    exact ⟨Nat.zero_le _, fun _ => rfl⟩
  | num n =>
    rw [value?] at h
    obtain ⟨number, hn, rfl⟩ := Option.map_eq_some_iff.1 h
    exact ⟨Nat.zero_le _, fun _ => by rw [value?, hn]; rfl⟩
  | str pieces =>
    rw [value?] at h
    obtain ⟨s, hs, rfl⟩ := Option.map_eq_some_iff.1 h
    exact ⟨Nat.zero_le _, fun _ => by rw [value?, hs]; rfl⟩
  | arr items ih =>
    cases depth with
    | zero => cases h
    | succ depth =>
      rw [value?] at h
      obtain ⟨found, hfound, rfl⟩ := Option.map_eq_some_iff.1 h
      have hall := values?_eq_some_iff.1 hfound
      refine ⟨nesting_arr_le.2 (forall_mem_of_forall₂ hall fun t ht j hj => (ih t ht hj).1),
        fun embedded? => ?_⟩
      have hvalues : values? embedded? depth items = some found := values?_eq_some_iff.2 <|
        ((List.forall₂_and_left _ _).2 ⟨fun _ ht => ht, hall⟩).imp
          fun t j h => (ih t h.1 h.2).2 embedded?
      rw [value?, hvalues]
      rfl
  | obj fields ih =>
    cases depth with
    | zero => cases h
    | succ depth =>
      rw [value?] at h
      split at h
      · obtain ⟨s, -, hs⟩ := Option.bind_eq_some_iff.1 h
        cases hs
      · rename_i hplain
        obtain ⟨found, hfound, rfl⟩ := Option.map_eq_some_iff.1 h
        have hall := fieldValues?_eq_some_iff.1 hfound
        have hnesting := forall_mem_of_forall₂ hall fun f hf g hg => (ih f hf hg.2).1
        refine ⟨nesting_obj_le.2 fun f hf => hnesting f (mem_sortFields hf), fun embedded? => ?_⟩
        have hvalues : fieldValues? embedded? depth fields = some found :=
          fieldValues?_eq_some_iff.2 <|
            ((List.forall₂_and_left _ _).2 ⟨fun _ hf => hf, hall⟩).imp
              fun f g h => ⟨h.2.1, (ih f h.1 h.2.2).2 embedded?⟩
        rw [value?, if_neg hplain, hvalues]
        rfl

end Tree

theorem nesting_parseDirect? {text : String} {j : Json} (h : parseDirect? text = some j) :
    j.nesting ≤ maxDepth := by
  obtain ⟨t, -, ht⟩ := Option.bind_eq_some_iff.1 h
  exact (Tree.value?_direct ht).1

theorem parse?_of_parseDirect? {text : String} {j : Json} (h : parseDirect? text = some j) :
    parse? text = some j := by
  obtain ⟨t, htext, ht⟩ := Option.bind_eq_some_iff.1 h
  rw [parse?, parseEmbedding?, htext]
  exact (Tree.value?_direct ht).2 _

end ClusterSync.Json

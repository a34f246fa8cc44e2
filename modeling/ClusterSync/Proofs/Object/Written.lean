import ClusterSync.Proofs.Object.Scope
import Mathlib.Data.List.Basic

/-!
# Written names

A name is written as `namespace/name` or, without a namespace, as the name alone. Which texts are
written names is said here by their slashes, with no regard to how a text is read, and so is what
keeps the others from being one. A text is taken apart at its first slash, if it has one, and each
of the two forms is read in one line.

**Theorem (`ObjectName.ofString_spec`).** Exactly the written names are read, and what is read is
the one plain name that is written so. A text that lacks a name is reported as that, and any other
is reported as malformed, as a whole.
-/

namespace ClusterSync.ObjectName

variable {cs before after : List Char} {text : String} {n : ObjectName}

/-! ## The first slash -/

theorem splitSlash_eq_none (h : '/' ∉ cs) : splitSlash cs = none := by
  induction cs with
  | nil => rfl
  | cons c cs ih =>
    obtain ⟨hc, hcs⟩ := not_or.1 (mt List.mem_cons.2 h)
    rw [splitSlash, if_neg (Ne.symm hc), ih hcs]
    rfl

/-- A text has no slash, or it comes apart at its first. -/
theorem slashless_or_slash (text : String) : '/' ∉ text.toList ∨
    ∃ space name : String, '/' ∉ space.toList ∧ text = space ++ "/" ++ name := by
  rw [or_iff_not_imp_left, not_not]
  intro h
  obtain ⟨before, after, heq, hbefore⟩ := List.eq_append_cons_of_mem h
  refine ⟨String.ofList before, String.ofList after, by rwa [String.toList_ofList], ?_⟩
  rw [← String.toList_inj, heq]
  simp

/-- Texts with a slash agree if they agree before and after their first. -/
theorem slash_inj {space name space' name' : String} (h : '/' ∉ space.toList)
    (h' : '/' ∉ space'.toList) :
    space ++ "/" ++ name = space' ++ "/" ++ name' ↔ space = space' ∧ name = name' := by
  constructor
  · intro heq
    have hsplit := congrArg (splitSlash ·.toList) heq
    simp only [String.toList_append, List.append_assoc, show "/".toList = ['/'] from rfl,
      List.singleton_append, splitSlash_append h, splitSlash_append h', Option.some.injEq,
      Prod.mk.injEq, String.toList_inj] at hsplit
    exact hsplit
  · rintro ⟨rfl, rfl⟩
    rfl

theorem slash_mem (space name : String) : '/' ∈ (space ++ "/" ++ name).toList := by simp

/-! ## Reading each form -/

theorem ofString_slashless (h : '/' ∉ text.toList) :
    ofString text = if text ≠ "" then .ok (cluster text) else .error .emptyName := by
  rw [ofString, splitSlash_eq_none h, ite_not]

theorem ofString_slash {space name : String} (h : '/' ∉ space.toList) :
    ofString (space ++ "/" ++ name) =
      if space ≠ "" ∧ IsPart name then .ok (namespaced space name)
      else if name = "" then .error .emptyName
      else .error (.malformed (space ++ "/" ++ name)) := by
  have hsplit : splitSlash (space ++ "/" ++ name).toList = some (space.toList, name.toList) := by
    rw [String.toList_append, String.toList_append, List.append_assoc]
    exact splitSlash_append h name.toList
  unfold ofString
  rw [hsplit]
  by_cases hname : name = ""
  · subst hname
    simp [IsPart]
  · cases hlist : name.toList with
    | nil => exact absurd (String.toList_eq_nil_iff.1 hlist) hname
    | cons c cs =>
      have hparts : (space ≠ "" ∧ IsPart name) ↔ ¬ (space = "" ∨ '/' ∈ name.toList) := by
        rw [IsPart, not_or, and_iff_right hname]
      simp only [hparts, ite_not, if_neg hname, ← hlist, String.toList_eq_nil_iff,
        String.ofList_toList]

/-! ## What is written -/

/-- The written names: texts without a slash that are not empty, and texts with one slash and
something on both sides of it. -/
def IsWritten (text : String) : Prop :=
  text ≠ "" ∧ ('/' ∉ text.toList ∨ text.toList.count '/' = 1 ∧
    ∃ space name : String, space ≠ "" ∧ name ≠ "" ∧ text = space ++ "/" ++ name)

/-- The texts that are empty or have nothing after their first slash. -/
def LacksName (text : String) : Prop :=
  text = "" ∨ ∃ space : String, '/' ∉ space.toList ∧ text = space ++ "/"

/-- Names whose parts can stand between two slashes. -/
def IsPlain (n : ObjectName) : Prop := (∀ space ∈ n.space?, IsPart space) ∧ IsPart n.name

theorem isWritten_slashless (h : '/' ∉ text.toList) : IsWritten text ↔ text ≠ "" :=
  and_iff_left (.inl h)

theorem count_slash {space name : String} (h : '/' ∉ space.toList) :
    (space ++ "/" ++ name).toList.count '/' = 1 ↔ '/' ∉ name.toList := by
  simp [List.count_append, List.count_eq_zero_of_not_mem h, ← List.count_eq_zero]

theorem isWritten_slash {space name : String} (h : '/' ∉ space.toList) :
    IsWritten (space ++ "/" ++ name) ↔ space ≠ "" ∧ IsPart name := by
  constructor
  · rintro ⟨-, hnone | ⟨hcount, space', name', hspace, hname, heq⟩⟩
    · exact absurd (slash_mem space name) hnone
    · have hname₀ : '/' ∉ name.toList := (count_slash h).1 hcount
      -- the one slash is where the text comes apart, so nothing before it holds another
      have hspace₀ : '/' ∉ space'.toList := by
        rw [heq] at hcount
        simp only [String.toList_append, List.count_append,
          show "/".toList.count '/' = 1 from rfl] at hcount
        exact List.count_eq_zero.1 (by omega)
      obtain ⟨rfl, rfl⟩ := (slash_inj h hspace₀).1 heq
      exact ⟨hspace, hname, hname₀⟩
  · rintro ⟨hspace, hname, hslash⟩
    refine ⟨fun hempty => ?_, .inr ⟨(count_slash h).2 hslash, space, name, hspace, hname, rfl⟩⟩
    have hmem := slash_mem space name
    rw [hempty] at hmem
    cases hmem

theorem lacksName_slashless (h : '/' ∉ text.toList) : LacksName text ↔ text = "" := by
  refine or_iff_left ?_
  rintro ⟨space, -, rfl⟩
  exact h (by simp)

theorem lacksName_slash {space name : String} (h : '/' ∉ space.toList) :
    LacksName (space ++ "/" ++ name) ↔ name = "" := by
  constructor
  · rintro (hempty | ⟨space', h', heq⟩)
    · exact (String.append_eq_empty_iff.1 hempty).2
    · rw [← String.append_empty (s := space' ++ "/")] at heq
      exact ((slash_inj h h').1 heq).2
  · rintro rfl
    exact .inr ⟨space, h, String.append_empty⟩

theorem isPlain_toString_slashless (h : '/' ∉ text.toList) :
    n.IsPlain ∧ n.toString = text ↔ text ≠ "" ∧ cluster text = n := by
  obtain ⟨_ | space, name⟩ := n
  · constructor
    · rintro ⟨⟨-, hne, -⟩, rfl⟩
      exact ⟨hne, rfl⟩
    · rintro ⟨hne, heq⟩
      cases heq
      exact ⟨⟨nofun, hne, h⟩, rfl⟩
  · constructor
    · rintro ⟨-, rfl⟩
      exact absurd (slash_mem space name) h
    · rintro ⟨-, heq⟩
      cases heq

theorem isPlain_toString_slash {space name : String} (h : '/' ∉ space.toList) :
    n.IsPlain ∧ n.toString = space ++ "/" ++ name ↔
      (space ≠ "" ∧ IsPart name) ∧ namespaced space name = n := by
  obtain ⟨_ | space', name'⟩ := n
  · constructor
    · rintro ⟨⟨-, -, hslash⟩, heq⟩
      have heq : name' = space ++ "/" ++ name := heq
      rw [heq] at hslash
      exact absurd (slash_mem space name) hslash
    · rintro ⟨-, heq⟩
      cases heq
  · constructor
    · rintro ⟨⟨hspace, hname⟩, heq⟩
      have hspace : IsPart space' := hspace space' rfl
      obtain ⟨rfl, rfl⟩ := (slash_inj hspace.2 h).1 heq
      exact ⟨⟨hspace.1, hname⟩, rfl⟩
    · rintro ⟨⟨hspace, hname⟩, heq⟩
      cases heq
      refine ⟨⟨fun other hother => ?_, hname⟩, rfl⟩
      cases hother
      exact ⟨hspace, h⟩

/-! ## What is read -/

/-- What is read from a text is the plain name that is written so. -/
theorem ofString_eq_ok_iff : ofString text = .ok n ↔ n.IsPlain ∧ n.toString = text := by
  rcases slashless_or_slash text with h | ⟨space, name, h, rfl⟩
  · rw [ofString_slashless h, isPlain_toString_slashless h]
    split <;> simp [*]
  · rw [ofString_slash h, isPlain_toString_slash h]
    by_cases hparts : space ≠ "" ∧ IsPart name
    · simp [hparts]
    · rw [if_neg hparts]
      simp only [hparts, false_and, iff_false]
      split <;> nofun

theorem exists_ofString_iff : (∃ n, ofString text = .ok n) ↔ IsWritten text := by
  rcases slashless_or_slash text with h | ⟨space, name, h, rfl⟩
  · rw [ofString_slashless h, isWritten_slashless h]
    split <;> simp [*]
  · rw [ofString_slash h, isWritten_slash h]
    by_cases hparts : space ≠ "" ∧ IsPart name
    · simp [hparts]
    · rw [if_neg hparts]
      simp only [hparts, iff_false, not_exists]
      intro n
      split <;> nofun

theorem ofString_eq_emptyName_iff : ofString text = .error .emptyName ↔ LacksName text := by
  rcases slashless_or_slash text with h | ⟨space, name, h, rfl⟩
  · rw [ofString_slashless h, lacksName_slashless h]
    split <;> simp_all
  · rw [ofString_slash h, lacksName_slash h]
    split_ifs with hparts
    · simp [hparts.2.1]
    · simp [*]
    · simp [*]

/-- What is reported as malformed is the whole text, if it neither is written nor lacks a name. -/
theorem ofString_eq_malformed_iff {other : String} :
    ofString text = .error (.malformed other) ↔
      other = text ∧ ¬ IsWritten text ∧ ¬ LacksName text := by
  rcases slashless_or_slash text with h | ⟨space, name, h, rfl⟩
  · rw [ofString_slashless h, isWritten_slashless h, lacksName_slashless h]
    split <;> simp_all
  · rw [ofString_slash h, isWritten_slash h, lacksName_slash h]
    split_ifs <;> simp [*, eq_comm]

/-- A name that is read from a text is written as that text. -/
theorem toString_of_ofString (h : ofString text = .ok n) : n.toString = text :=
  (ofString_eq_ok_iff.1 h).2

theorem ne_empty_of_ofString (h : ofString text = .ok n) : text ≠ "" :=
  (exists_ofString_iff.1 ⟨n, h⟩).1

/-- A text is read if it is a written name, and then as the one plain name that is written so;
whatever else it is, the error says which way it fails to be one. -/
theorem ofString_spec (text : String) :
    ((∃ n, ofString text = .ok n) ↔ IsWritten text) ∧
      (∀ n, ofString text = .ok n ↔ n.IsPlain ∧ n.toString = text) ∧
      (ofString text = .error .emptyName ↔ LacksName text) ∧
      ∀ other, ofString text = .error (.malformed other) ↔
        other = text ∧ ¬ IsWritten text ∧ ¬ LacksName text :=
  ⟨exists_ofString_iff, fun _ => ofString_eq_ok_iff, ofString_eq_emptyName_iff,
    fun _ => ofString_eq_malformed_iff⟩

-- a missing name is reported before an empty namespace, and an empty namespace as malformed
example : ofString "/" = .error .emptyName ∧ ofString "/a" = .error (.malformed "/a") ∧
    ofString "a//" = .error (.malformed "a//") := by decide

end ClusterSync.ObjectName

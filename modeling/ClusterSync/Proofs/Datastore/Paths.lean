import ClusterSync.Proofs.Object.Written
import Mathlib.Data.List.Basic

/-!
# Paths stand for keys

A path says which key it belongs to: what comes first tells nodes, policies and the ready flag
apart, and a hostname ends at the first slash, so that a setting of a node is not taken for a node.
The name of a policy may hold slashes, but nothing comes after it.

**Theorem (`Key.IsProper.exists_path`).** A proper key has a path, and `Key.ofPath?` reads the key back from
it. Hence no two proper keys share a path.
-/

namespace ClusterSync

namespace Key

variable {key key' : Key} {path : String}

/-- A key that stands for one resource: its hostname can stand between two slashes, and its name is
that of an object, in written form, or not empty. -/
def IsProper : Key → Prop
  | .node hostname => IsPart hostname
  | .hostConfig hostname name => IsPart hostname ∧ name ≠ ""
  | .policy name => ∃ text n, ObjectName.ofString text = .ok n ∧ name = n.toString
  | .ready => True

/-! ## Reading paths -/

/-- The key whose path is what follows the root of all nodes. -/
def ofHostPart? (chars : List Char) : Option Key :=
  match ObjectName.splitSlash chars with
  | none => some (.node (String.ofList chars))
  | some (hostname, rest) =>
    (rest.dropPrefix? "config/".toList).map fun name =>
      .hostConfig (String.ofList hostname) (String.ofList name)

/-- The key that has a path. -/
def ofPath? (path : String) : Option Key :=
  match path.toList.dropPrefix? hostRoot.toList with
  | some chars => ofHostPart? chars
  | none =>
    match path.toList.dropPrefix? policyRoot.toList with
    | some chars => some (.policy (String.ofList chars))
    | none => if path = readyPath then some .ready else none

theorem ofPath?_hostRoot (rest : String) : ofPath? (hostRoot ++ rest) = ofHostPart? rest.toList := by
  rw [ofPath?, String.toList_append, List.dropPrefix?_append_of_beq _ (beq_self_eq_true _)]

theorem ofPath?_policyRoot (rest : String) :
    ofPath? (policyRoot ++ rest) = some (.policy rest) := by
  have hroot : (policyRoot.toList ++ rest.toList).dropPrefix? hostRoot.toList = none := rfl
  rw [ofPath?, String.toList_append, hroot, List.dropPrefix?_append_of_beq _ (beq_self_eq_true _)]
  exact congrArg (some ∘ Key.policy) (String.ofList_toList)

theorem ofHostPart?_node {hostname : String} (h : IsPart hostname) :
    ofHostPart? hostname.toList = some (.node hostname) := by
  rw [ofHostPart?, ObjectName.splitSlash_eq_none h.2]
  exact congrArg (some ∘ Key.node) (String.ofList_toList)

theorem ofHostPart?_hostConfig {hostname : String} (h : IsPart hostname) (name : String) :
    ofHostPart? (hostname ++ "/config/" ++ name).toList = some (.hostConfig hostname name) := by
  have hchars : (hostname ++ "/config/" ++ name).toList =
      hostname.toList ++ '/' :: ("config/".toList ++ name.toList) := by simp
  rw [ofHostPart?, hchars, ObjectName.splitSlash_append h.2]
  dsimp only
  rw [List.dropPrefix?_append_of_beq _ (beq_self_eq_true _), Option.map_some, String.ofList_toList,
    String.ofList_toList]

theorem ofPath?_readyPath : ofPath? readyPath = some .ready := by decide

/-- A proper key has a path from which it is read back. -/
theorem IsProper.exists_path (h : key.IsProper) :
    ∃ path, key.path = .ok path ∧ ofPath? path = some key := by
  cases key with
  | node hostname =>
    exact ⟨_, if_neg h.1, (ofPath?_hostRoot _).trans (ofHostPart?_node h)⟩
  | hostConfig hostname name =>
    refine ⟨_, (if_neg h.1.1).trans (if_neg h.2), ?_⟩
    rw [String.append_assoc, String.append_assoc, ofPath?_hostRoot, ← String.append_assoc,
      ofHostPart?_hostConfig h.1]
  | policy name =>
    obtain ⟨text, n, hread, rfl⟩ := h
    have hne : n.toString ≠ "" := by
      rw [ObjectName.toString_of_ofString hread]
      exact ObjectName.ne_empty_of_ofString hread
    exact ⟨_, if_neg hne, ofPath?_policyRoot _⟩
  | ready => exact ⟨_, rfl, ofPath?_readyPath⟩

theorem IsProper.eq_of_path_eq (h : key.IsProper) (h' : key'.IsProper) (hp : key.path = key'.path) :
    key = key' := by
  obtain ⟨path, hpath, hread⟩ := h.exists_path
  obtain ⟨path', hpath', hread'⟩ := h'.exists_path
  cases hpath.symm.trans (hp.trans hpath')
  exact Option.some.inj (hread.symm.trans hread')

end Key

end ClusterSync

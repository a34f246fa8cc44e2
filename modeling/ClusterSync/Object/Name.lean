import Std.Data.ExtTreeMap

/-!
# Object names

The name of a watched object: a namespace, unless the object belongs to the whole cluster, and a
name inside it. Names are ordered by namespace first, the cluster's own objects before all others.
Written down, a name is `namespace/name` or just `name`; `ObjectName.ofString` reads that form back.
-/

namespace ClusterSync

structure ObjectName where
  space? : Option String
  name : String
  deriving DecidableEq, Repr

namespace ObjectName

/-- The name of an object of the whole cluster. -/
def cluster (name : String) : ObjectName := ⟨none, name⟩

/-- The name of an object in a namespace. -/
def namespaced (space name : String) : ObjectName := ⟨some space, name⟩

/-- Compares the namespaces and, if they agree, the names. -/
def order : ObjectName → ObjectName → Ordering :=
  compareLex (compareOn space?) (compareOn name)

instance : Ord ObjectName := ⟨order⟩

instance : Std.TransOrd ObjectName :=
  inferInstanceAs (Std.TransCmp (compareLex (compareOn space?) (compareOn name)))

instance : Std.LawfulEqOrd ObjectName where
  eq_of_compare {a b} h := by
    obtain ⟨_, _⟩ := a
    obtain ⟨_, _⟩ := b
    have h := compareLex_eq_eq.mp h
    simp only [compareOn, Std.LawfulEqCmp.compare_eq_iff_eq] at h
    simp [h]

/-- The written form. -/
def toString (n : ObjectName) : String :=
  match n.space? with
  | some space => space ++ "/" ++ n.name
  | none => n.name

instance : ToString ObjectName := ⟨toString⟩

/-- What keeps a text from being an object's name. -/
inductive ParseError
  | emptyName
  | malformed (text : String)
  deriving DecidableEq, Repr

def ParseError.message : ParseError → String
  | .emptyName => "resource identity has an empty name"
  | .malformed text =>
    s!"invalid resource identity '{text}': expected 'name' or 'namespace/name'"

/-- The parts before and after the first slash; none if there is no slash. -/
def splitSlash : List Char → Option (List Char × List Char)
  | [] => none
  | c :: cs =>
    if c = '/' then some ([], cs)
    else (splitSlash cs).map fun (before, after) => (c :: before, after)

/-- Reads the written form. Nothing after the first slash counts as an empty name; an empty
namespace or a second slash makes the text malformed. -/
def ofString (text : String) : Except ParseError ObjectName :=
  match splitSlash text.toList with
  | none => if text = "" then .error .emptyName else .ok (cluster text)
  | some (_, []) => .error .emptyName
  | some (space, name) =>
    if space = [] ∨ '/' ∈ name then .error (.malformed text)
    else .ok (namespaced (String.ofList space) (String.ofList name))

/-- Names in increasing order, each once. -/
def sorted (names : List ObjectName) : List ObjectName :=
  (Std.ExtTreeMap.ofList (names.map fun n => (n, ()))).keys

end ObjectName

/-- What happened to an object. -/
inductive Change
  | add | update | delete
  deriving DecidableEq, Repr

namespace Change

/-- The word for a change in messages and metrics. -/
def label : Change → String
  | .add => "Add"
  | .update => "Update"
  | .delete => "Delete"

end Change

/-- A piece of work: what happened to the object of some name. The object itself is looked up when
the work is done. -/
structure WorkItem where
  name : ObjectName
  change : Change
  deriving DecidableEq, Repr

end ClusterSync

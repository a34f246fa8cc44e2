import ClusterSync.Json.Reader
import Std.Data.ExtTreeMap

/-!
# Records in JSON

Reading the parts of a record, each from the JSON value at its place. A record is written as an
object; some may also be given as the array of their fields in order of declaration, where fields
may be missing at the end if they have defaults. `Json.recordFields?` and `Json.allFields?` reduce
both to a list of named values.
-/

namespace ClusterSync

/-- Text labelled by text, in the order of the labels. -/
abbrev Labels := Std.ExtTreeMap String String

namespace Json

/-- The text that a value is. -/
def text? : Json → Option String
  | .str s => some s
  | _ => none

def bool? : Json → Option Bool
  | .bool b => some b
  | _ => none

/-- The signed 64-bit integer that a value is. -/
def int64? : Json → Option Int
  | .num (.int i) => if -9223372036854775808 ≤ i ∧ i ≤ 9223372036854775807 then some i else none
  | _ => none

/-- The items of an array, each read in turn. -/
def list? (read : Json → Option α) : Json → Option (List α)
  | .arr items => items.mapM read
  | _ => none

/-- An object whose values are all text. -/
def labels? : Json → Option Labels
  | .obj fields =>
    (fields.mapM fun (f : String × Json) => (text? f.2).map fun s => (f.1, s)).map
      fun pairs => Std.ExtTreeMap.ofList pairs
  | _ => none

/-- The object of labels. -/
def ofLabels (labels : Labels) : Json := .obj (labels.toList.map fun (key, s) => (key, .str s))

/-- The array of texts. -/
def ofTexts (items : List String) : Json := .arr (items.map .str)

/-- The named values of a record given as an object or as the array of its first fields. -/
def recordFields? (names : List String) : Json → Option (List (String × Json))
  | .obj fields => some fields
  | .arr items => if items.length ≤ names.length then some (names.zip items) else none
  | _ => none

/-- The named values of a record given as an object or as the array of all its fields. -/
def allFields? (names : List String) : Json → Option (List (String × Json))
  | .obj fields => some fields
  | .arr items => if items.length = names.length then some (names.zip items) else none
  | _ => none

/-- The fields of an object. -/
def objectFields? : Json → Option (List (String × Json))
  | .obj fields => some fields
  | _ => none

/-- A field that has to be there. -/
def required? (read : Json → Option α) (key : String) (fields : List (String × Json)) : Option α :=
  (field? key fields).bind read

/-- A field that stands for `default` when it is missing. -/
def orDefault? (read : β → Option α) (default : α) (key : String)
    (fields : List (String × β)) : Option α :=
  match field? key fields with
  | none => some default
  | some value => read value

/-- A field that is absent when it is missing or null. -/
def optional? (read : Json → Option α) (key : String) (fields : List (String × Json)) :
    Option (Option α) :=
  match field? key fields with
  | none | some .null => some none
  | some value => (read value).map some

/-- A field to be written if there is a value for it. -/
def optionalField (key : String) (write : α → Json) (value : Option α) : List (String × Json) :=
  match value with
  | none => []
  | some a => [(key, write a)]

/-- A text field to be written unless it is empty. -/
def textField (key : String) (s : String) : List (String × Json) :=
  if s = "" then [] else [(key, .str s)]

namespace Tree

/-- An object whose values are all text, those of repeated keys too; of equal keys the last one
wins. -/
def labels? : Tree → Option Labels
  | .obj fields => do
    let pairs ← fields.mapM fun (f : List Piece × Tree) => do
      return (← Piece.text? f.1, ← text? f.2)
    return Std.ExtTreeMap.ofList pairs
  | _ => none

/-- The named parts of a record written as an object or as the array of its first fields. Fields
of other names are passed over whatever they hold; a field of the record stands once at most. -/
def recordFields? (names : List String) : Tree → Option (List (String × Tree))
  | .obj fields => knownFields? fields []
  | .arr items => if items.length ≤ names.length then some (names.zip items) else none
  | _ => none
where
  knownFields? : List (List Piece × Tree) → List (String × Tree) → Option (List (String × Tree))
    | [], known => some known
    | (key, tree) :: rest, known => do
      let key ← Piece.text? key
      if names.contains key then
        guard (field? key known).isNone
        knownFields? rest ((key, tree) :: known)
      else knownFields? rest known

end Tree

end Json

end ClusterSync

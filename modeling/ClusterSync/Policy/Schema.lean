import ClusterSync.Json.Writer

/-!
# Schemas

What the cluster checks of a custom object before it accepts it: the type of each part, with the
notes that go along with it.
-/

namespace ClusterSync

open Json

inductive Schema
  | text
  | list (item : Schema)
  /-- An object with values of one form under any keys. -/
  | mapping (value : Schema)
  | record (fields : List (String × Schema)) (required : List String)
  | described (description : String) (s : Schema)
  | titled (title : String) (s : Schema)
  /-- With a value that stands for a missing one. -/
  | withDefault (value : Json) (s : Schema)
  | nullable (s : Schema)

namespace Schema

mutual

/-- The fields of a schema as written. -/
def fields : Schema → List (String × Json)
  | .text => [("type", .str "string")]
  | .list item => [("type", .str "array"), ("items", object item.fields)]
  | .mapping value => [("type", .str "object"), ("additionalProperties", object value.fields)]
  | .record parts required =>
    [("type", .str "object"), ("properties", object (properties parts))]
      ++ if required = [] then [] else [("required", .arr (required.map .str))]
  | .described description s => ("description", .str description) :: s.fields
  | .titled title s => ("title", .str title) :: s.fields
  | .withDefault value s => ("default", value) :: s.fields
  | .nullable s => ("nullable", .bool true) :: s.fields

/-- The schemas of named parts. -/
def properties : List (String × Schema) → List (String × Json)
  | [] => []
  | (key, s) :: rest => (key, object s.fields) :: properties rest

end

def toJson (s : Schema) : Json := object s.fields

end Schema

end ClusterSync

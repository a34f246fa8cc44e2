import ClusterSync.Datastore.Key
import ClusterSync.Json.Reader
import ClusterSync.Json.Writer
import ClusterSync.Text.Utf8

/-!
# Datastore values

Values and their bytes. `Value.encode` writes a value under a key and `Value.decode` reads it
back; the key's shape decides the form on both sides.
-/

namespace ClusterSync

open Text

inductive Value
  | structured (value : Json)
  | text (value : String)
  | flag (value : Bool)
  deriving DecidableEq

namespace Value

/-- Whether a value has the form that a shape asks for. -/
def HasShape : Value → Shape → Prop
  | .structured _, .node | .structured _, .policy | .text _, .text | .flag _, .flag => True
  | _, _ => False

/-- The value in words. -/
def describe : Value → String
  | .structured j => "Structured(" ++ j.describe ++ ")"
  | .text s => "RawString(" ++ quoted s ++ ")"
  | .flag b => "RawBool(" ++ (if b then "true" else "false") ++ ")"

/-- The bytes of a truth value. -/
def flagBytes (b : Bool) : Bytes := (if b then "true" else "false").toUTF8

/-- The bytes of a value under a key. A value of another form than the key's is refused. -/
def encode (key : Key) (value : Value) : Except KeyError Bytes :=
  match key.shape, value with
  | .text, .text s => .ok s.toUTF8
  | .flag, .flag b => .ok (flagBytes b)
  | .node, .structured j | .policy, .structured j => .ok j.render.toUTF8
  | shape, value =>
    .error (.encoding key.describe s!"value {value.describe} does not match shape {shape.label}")

/-- What a message says of bytes that are not JSON. -/
def notJson : String := "<json>"

/-- The value that bytes stand for under a key. Any bytes are a truth value, true only if they
spell it. -/
def decode (key : Key) (bytes : Bytes) : Except KeyError Value :=
  match key.shape with
  | .text =>
    match Bytes.text bytes with
    | .ok s => .ok (.text s)
    | .error fault => .error (.encoding key.describe fault.message)
  | .flag => .ok (.flag (decide (bytes = flagBytes true)))
  | .node | .policy =>
    match (String.fromUTF8? bytes).bind Json.parse? with
    | some j => .ok (.structured j)
    | none => .error (.encoding key.describe notJson)

end Value

end ClusterSync

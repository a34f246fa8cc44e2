import ClusterSync.Json.Tree

/-!
# Reading JSON

Values from trees and texts. Strings must be text, numbers must be in range, and containers may
nest up to a limit; of equal keys the last one wins.

**Embedded texts.** An object whose first key is `embeddedKey` stands for the value of the JSON
text that the key holds. It may hold nothing else, and containers in that text nest anew. So it is
in a text, and again where a value is taken over from another (`reread?`).
-/

namespace ClusterSync.Json

/-- The key that marks an embedded text. -/
def embeddedKey : String := "$serde_json::private::RawValue"

namespace Tree

/-- The text that a string is. -/
def text? : Tree → Option String
  | .str pieces => Piece.text? pieces
  | _ => none

/-- Whether an object with the given fields stands for an embedded text. -/
def isEmbedded (fields : List (List Piece × Tree)) : Bool :=
  match fields with
  | [] => false
  | (key, _) :: _ => Piece.text? key = some embeddedKey

/-- The text that an object's only field holds. -/
def embeddedText? : List (List Piece × Tree) → Option String
  | [(_, t)] => text? t
  | _ => none

mutual

/-- The value a tree means, with containers nested up to the given depth, and with a reader for
the embedded texts. -/
def value? (embedded? : String → Option Json) (depth : Nat) : Tree → Option Json
  | .null => some .null
  | .bool b => some (.bool b)
  | .num n => n.number?.map .num
  | .str pieces => (Piece.text? pieces).map .str
  | .arr items =>
    match depth with
    | 0 => none
    | depth + 1 => (values? embedded? depth items).map .arr
  | .obj fields =>
    match depth with
    | 0 => none
    | depth + 1 =>
      if isEmbedded fields then (embeddedText? fields).bind embedded?
      else (fieldValues? embedded? depth fields).map object

/-- The values of a list of trees. -/
def values? (embedded? : String → Option Json) (depth : Nat) : List Tree → Option (List Json)
  | [] => some []
  | t :: rest => do return (← value? embedded? depth t) :: (← values? embedded? depth rest)

/-- The keys and values of a list of fields. -/
def fieldValues? (embedded? : String → Option Json) (depth : Nat) :
    List (List Piece × Tree) → Option (List (String × Json))
  | [] => some []
  | (key, t) :: rest => do
    return (← Piece.text? key, ← value? embedded? depth t)
      :: (← fieldValues? embedded? depth rest)

end

end Tree

/-- How deep containers may nest in a text. -/
def maxDepth : Nat := 127

/-- The value of a text in which texts are embedded one in another less often than given. -/
def parseEmbedding? : Nat → String → Option Json
  | 0, _ => none
  | n + 1, text => (Tree.ofText? text).bind (Tree.value? (parseEmbedding? n) maxDepth)

/-- The value of a text. A text is longer than those embedded in it, so that its length bounds how
often that happens. -/
def parse? (text : String) : Option Json := parseEmbedding? (text.length + 1) text

/-! ## Values from values -/

/-- Whether an object with the given fields stands for an embedded text. -/
def isEmbedded (fields : List (String × Json)) : Bool :=
  fields.head?.map Prod.fst = some embeddedKey

/-- The text that an object's only field holds. -/
def embeddedText? : List (String × Json) → Option String
  | [(_, .str s)] => some s
  | _ => none

mutual

/-- The value that a value is taken over as, however deep its containers nest. -/
def reread? : Json → Option Json
  | .arr items => (rereadItems? items).map .arr
  | .obj fields =>
    if isEmbedded fields then (embeddedText? fields).bind parse?
    else (rereadFields? fields).map object
  | .null => some .null
  | .bool b => some (.bool b)
  | .num n => some (.num n)
  | .str s => some (.str s)

def rereadItems? : List Json → Option (List Json)
  | [] => some []
  | j :: rest => do return (← reread? j) :: (← rereadItems? rest)

def rereadFields? : List (String × Json) → Option (List (String × Json))
  | [] => some []
  | (key, j) :: rest => do return (key, ← reread? j) :: (← rereadFields? rest)

end

end ClusterSync.Json

import ClusterSync.Decimal.Unsigned
import ClusterSync.Json.Basic
import ClusterSync.Text.Blank

/-!
# JSON pointers

Parts of a value by their path: a slash before each key or index, `~1` for a slash in a key and
`~0` for a tilde.
-/

namespace ClusterSync.Json

open Text

/-- A step of a path with its escapes resolved. -/
def unescapeStep : List Char → List Char
  | '~' :: '1' :: rest => '/' :: unescapeStep rest
  | '~' :: '0' :: rest => '~' :: unescapeStep rest
  | c :: rest => c :: unescapeStep rest
  | [] => []

/-- An index in decimal, without leading zeros. -/
def index? (cs : List Char) : Option Nat :=
  match cs with
  | [] => none
  | c :: rest =>
    if cs.all Char.isDigit ∧ (c ≠ '0' ∨ rest = []) then some (Decimal.ofDigits cs) else none

/-- The part of a value that one step leads to. -/
def step? (j : Json) (step : List Char) : Option Json :=
  match j with
  | .obj fields => field? (String.ofList step) fields
  | .arr items => (index? step).bind fun i => items[i]?
  | _ => none

/-- The part of a value that a path leads to. -/
def pointer? (j : Json) (path : String) : Option Json :=
  match path.toList with
  | [] => some j
  | '/' :: rest => ((splitAt '/' rest).map unescapeStep).foldlM step? j
  | _ => none

end ClusterSync.Json

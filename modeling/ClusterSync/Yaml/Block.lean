import ClusterSync.Json.Reader
import ClusterSync.Json.Writer
import ClusterSync.Text.Blank

/-!
# YAML in block layout

JSON values written as YAML: one field or item per line, indented by two spaces for each object
around it; a list stands at the indentation of its key. A text is written plain where that is
unambiguous, in single quotes where it is not, and line by line if it has line ends.
-/

namespace ClusterSync.Yaml

/-- Characters with which a plain text does not begin. -/
def indicators : List Char := "-?:,[]\x7b\x7d#&*!|>'\"%@`".toList

/-- Words that stand for something else than themselves. -/
def reserved : List String :=
  ["null", "Null", "NULL", "~", "true", "True", "TRUE", "false", "False", "FALSE"]

/-- Whether a text looks like a number. -/
def looksNumeric (cs : List Char) : Bool :=
  (Json.parse? (String.ofList cs)).any fun j => j matches .num _

/-- Whether somewhere a colon or a blank could be misread. -/
def misleading : List Char → Bool
  | [] | [' '] | [':'] => false
  | ':' :: ' ' :: _ | ' ' :: '#' :: _ => true
  | _ :: rest => misleading rest

/-- Whether a text is understood without quotes. -/
def isPlain (s : String) : Bool :=
  match s.toList, s.toList.getLast? with
  | c :: rest, some last =>
    !indicators.contains c && c ≠ ' ' && last ≠ ' ' && last ≠ ':' && !reserved.contains s
      && !looksNumeric (c :: rest) && !misleading (c :: rest)
      && (c :: rest).all fun c => 32 ≤ c.toNat && c.toNat ≠ 127
  | _, _ => false

/-- A text in single quotes, each quote inside it written twice. -/
def singleQuoted (s : String) : String :=
  "'" ++ String.ofList (s.toList.flatMap fun c => if c = '\'' then ['\'', '\''] else [c]) ++ "'"

def indent (depth : Nat) (line : String) : String :=
  if line = "" then "" else String.ofList (List.replicate (2 * depth) ' ') ++ line

/-- The lines of a text. -/
def linesOf (s : String) : List String := (Text.splitAt '\n' s.toList).map String.ofList

/-- A text: what stands on the line of its key, and the lines after it. -/
def textForm (depth : Nat) (s : String) : String × List String :=
  if '\n' ∈ s.toList then ("|-", (linesOf s).map (indent depth))
  else (if isPlain s then s else singleQuoted s, [])

mutual

/-- A value: what stands on the line of its key or dash, and the lines after it. The depths are
those of the items and of the fields inside it. -/
def form (itemDepth depth : Nat) : Json → String × List String
  | .obj [] => ("\x7b\x7d", [])
  | .obj (f :: fields) => ("", fieldLines depth (f :: fields))
  | .arr [] => ("[]", [])
  | .arr (j :: items) => ("", itemLines itemDepth (j :: items))
  | .str s => textForm depth s
  | .null => ("null", [])
  | .bool b => (if b then "true" else "false", [])
  | .num n => (String.ofList n.chars, [])

/-- The lines of fields at a depth. -/
def fieldLines (depth : Nat) : List (String × Json) → List String
  | [] => []
  | (key, j) :: rest =>
    let (here, below) := form depth (depth + 1) j
    let label := (textForm depth key).1 ++ ":"
    indent depth (if here = "" then label else label ++ " " ++ here) :: below
      ++ fieldLines depth rest

/-- The lines of items at a depth. The first line of an item stands after its dash. -/
def itemLines (depth : Nat) : List Json → List String
  | [] => []
  | j :: rest =>
    let (here, below) := form (depth + 1) (depth + 1) j
    let lines :=
      if here ≠ "" then indent depth ("- " ++ here) :: below
      else
        match below with
        | [] => [indent depth "-"]
        | first :: others =>
          indent depth ("- " ++ String.ofList (first.toList.dropWhile (· = ' '))) :: others
    lines ++ itemLines depth rest

end

/-- The document of a value. -/
def document (j : Json) : String :=
  let (here, below) := form 0 0 j
  String.join ((if here = "" then below else here :: below).map (· ++ "\n"))

end ClusterSync.Yaml

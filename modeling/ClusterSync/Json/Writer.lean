import ClusterSync.Json.Basic
import ClusterSync.Decimal.Shortest
import ClusterSync.Text.Quoted

/-!
# Writing JSON

The compact form: no spaces, fields in the order they are kept, strings with the short escapes
and everything from the space on verbatim, floating-point numbers with the fewest digits that
read back.
-/

namespace ClusterSync.Json

open Decimal Text

/-- How one character stands in a string. -/
def escapeChar (c : Char) : List Char :=
  match c with
  | '"' => ['\\', '"']
  | '\\' => ['\\', '\\']
  | '\x08' => ['\\', 'b']
  | '\x0c' => ['\\', 'f']
  | '\n' => ['\\', 'n']
  | '\r' => ['\\', 'r']
  | '\t' => ['\\', 't']
  | c =>
    if c.toNat < 32 then
      ['\\', 'u', '0', '0', Nat.digitChar (c.toNat / 16), Nat.digitChar (c.toNat % 16)]
    else [c]

/-- A string in quotes. -/
def stringChars (s : String) : List Char := '"' :: s.toList.flatMap escapeChar ++ ['"']

/-- A number in decimal. -/
def natChars (n : Nat) : List Char := Nat.toDigits 10 n

def intChars : Int → List Char
  | .ofNat n => natChars n
  | .negSucc n => '-' :: natChars (n + 1)

/-- Where plain notation ends: the exponents of scientific notation for which the point is
written in its place. -/
structure FloatLayout where
  leastPlain : Int
  greatestPlain : Int

/-- Plain notation from `0.00001` to the last number below `10 ^ 16`. -/
def layout : FloatLayout := ⟨-5, 15⟩

/-- Digits with the point in its place, and at least one digit after it. -/
def plainChars (ds : List Char) (point : Int) : List Char :=
  if point ≤ 0 then ['0', '.'] ++ List.replicate (-point).toNat '0' ++ ds
  else if ds.length ≤ point.toNat then
    ds ++ List.replicate (point.toNat - ds.length) '0' ++ ['.', '0']
  else ds.take point.toNat ++ ['.'] ++ ds.drop point.toNat

/-- One digit, the others after a point, and a signed exponent. -/
def scientificChars (ds : List Char) (exponent : Int) : List Char :=
  let mantissa :=
    match ds with
    | [] => []
    | [d] => [d]
    | d :: rest => d :: '.' :: rest
  let sign := if exponent < 0 then '-' else '+'
  mantissa ++ ['e', sign] ++ natChars exponent.natAbs

/-- A floating-point number. -/
def floatChars (x : Binary64) : List Char :=
  let d := shortest x
  let ds := d.digits.map Nat.digitChar
  let exponent := d.point - 1
  let unsigned :=
    if layout.leastPlain ≤ exponent ∧ exponent ≤ layout.greatestPlain then plainChars ds d.point
    else scientificChars ds exponent
  if x.negative then '-' :: unsigned else unsigned

def Number.chars : Number → List Char
  | .int i => intChars i
  | .real x => floatChars x

mutual

/-- The characters of a value's compact form. -/
def chars : Json → List Char
  | .null => ['n', 'u', 'l', 'l']
  | .bool true => ['t', 'r', 'u', 'e']
  | .bool false => ['f', 'a', 'l', 's', 'e']
  | .num n => n.chars
  | .str s => stringChars s
  | .arr items => '[' :: itemsChars items ++ [']']
  | .obj fields => '\x7b' :: fieldsChars fields ++ ['\x7d']

/-- Items with commas between them. -/
def itemsChars : List Json → List Char
  | [] => []
  | j :: rest => chars j ++ moreItemsChars rest

/-- Items with a comma before each. -/
def moreItemsChars : List Json → List Char
  | [] => []
  | j :: rest => ',' :: chars j ++ moreItemsChars rest

/-- Fields with commas between them. -/
def fieldsChars : List (String × Json) → List Char
  | [] => []
  | (key, j) :: rest => stringChars key ++ ':' :: chars j ++ moreFieldsChars rest

/-- Fields with a comma before each. -/
def moreFieldsChars : List (String × Json) → List Char
  | [] => []
  | (key, j) :: rest => ',' :: stringChars key ++ ':' :: chars j ++ moreFieldsChars rest

end

/-- The compact form of a value. -/
def render (j : Json) : String := String.ofList (chars j)

mutual

/-- The descriptive form of a value, which names its case. -/
def describe : Json → String
  | .null => "Null"
  | .bool b => "Bool(" ++ (if b then "true" else "false") ++ ")"
  | .num n => "Number(" ++ String.ofList n.chars ++ ")"
  | .str s => "String(" ++ quoted s ++ ")"
  | .arr items => "Array [" ++ ", ".intercalate (describeItems items) ++ "]"
  | .obj fields => "Object \x7b" ++ ", ".intercalate (describeFields fields) ++ "\x7d"

def describeItems : List Json → List String
  | [] => []
  | j :: rest => describe j :: describeItems rest

def describeFields : List (String × Json) → List String
  | [] => []
  | (key, j) :: rest => (quoted key ++ ": " ++ describe j) :: describeFields rest

end

end ClusterSync.Json

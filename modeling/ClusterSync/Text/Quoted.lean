import ClusterSync.Text.Visible

/-!
# Quoted text

The quoted form that messages use for a text they cannot trust: double quotes around it, a
backslash before quotes and backslashes, short names for the usual line and space controls, and
`\u{…}` with the hexadecimal code point for every other character that is not visible.
-/

namespace ClusterSync.Text

/-- The hexadecimal digits of a number, without leading zeros. -/
def hexDigits (n : Nat) : List Char := Nat.toDigits 16 n

/-- How one character stands inside quotes. -/
def quotedChar (c : Char) : List Char :=
  match c with
  | '"' => ['\\', '"']
  | '\\' => ['\\', '\\']
  | '\n' => ['\\', 'n']
  | '\r' => ['\\', 'r']
  | '\t' => ['\\', 't']
  | '\x00' => ['\\', '0']
  | c => if isVisible c then [c] else ['\\', 'u', '\x7b'] ++ hexDigits c.toNat ++ ['\x7d']

/-- A text in quotes. -/
def quoted (s : String) : String :=
  String.ofList ('"' :: s.toList.flatMap quotedChar ++ ['"'])

/-- A list of texts, each in quotes, in square brackets. -/
def quotedList (items : List String) : String :=
  "[" ++ ", ".intercalate (items.map quoted) ++ "]"

example : quoted "a\"\n\x1b'é\u0301" = "\"a\\\"\\n\\u\x7b1b\x7d'é\\u\x7b301\x7d\"" := by
  decide +kernel

end ClusterSync.Text

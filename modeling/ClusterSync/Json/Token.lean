import ClusterSync.Json.Numeral

/-!
# Tokens

The lexical level of JSON: punctuation, the three words, numerals and strings. `Token.scan?` is a
machine that reads one character at a time. A string token keeps the code units of its `\u`
escapes apart from its characters, since only a reader that wants the text cares whether they
pair up.
-/

namespace ClusterSync.Json

/-- A part of a string: a character, or a code unit given by a `\u` escape. -/
inductive Piece
  | char (c : Char)
  | unit (value : Nat)
  deriving DecidableEq, Repr

inductive Token
  | openObject | closeObject | openArray | closeArray | colon | comma
  | null
  | bool (value : Bool)
  | numeral (n : Numeral)
  | text (pieces : List Piece)
  deriving DecidableEq, Repr

namespace Token

/-- Where a scan stands: between tokens, in a word, in a numeral, or in a string. What has been
read of the present token is kept last character first. -/
inductive Mode
  | between
  | word (seen : List Char)
  | numeral (seen : List Char)
  | text (seen : List Piece)
  | escape (seen : List Piece)
  | hex (seen : List Piece) (missing : Nat) (value : Nat)

/-- White space of JSON. -/
def isSpace (c : Char) : Bool := c = ' ' ∨ c = '\t' ∨ c = '\n' ∨ c = '\r'

/-- The characters a numeral may go on with. -/
def inNumeral (c : Char) : Bool :=
  c.isDigit || c = '.' || c = 'e' || c = 'E' || c = '+' || c = '-'

/-- The token a character is by itself, and the mode after it. -/
def enter? (c : Char) : Option (List Token × Mode) :=
  if isSpace c then some ([], .between)
  else
    match c with
    | '\x7b' => some ([.openObject], .between)
    | '\x7d' => some ([.closeObject], .between)
    | '[' => some ([.openArray], .between)
    | ']' => some ([.closeArray], .between)
    | ':' => some ([.colon], .between)
    | ',' => some ([.comma], .between)
    | '"' => some ([], .text [])
    | c =>
      if c = '-' ∨ c.isDigit then some ([], .numeral [c])
      else if c.isLower then some ([], .word [c])
      else none

/-- The token of a finished word. -/
def ofWord? (seen : List Char) : Option Token :=
  if seen.reverse = ['n', 'u', 'l', 'l'] then some .null
  else if seen.reverse = ['t', 'r', 'u', 'e'] then some (.bool true)
  else if seen.reverse = ['f', 'a', 'l', 's', 'e'] then some (.bool false)
  else none

/-- The token of a finished numeral. -/
def ofNumeral? (seen : List Char) : Option Token :=
  (Numeral.ofChars? seen.reverse).map .numeral

/-- The character that a short escape stands for. -/
def shortEscape? : Char → Option Char
  | '"' => some '"'
  | '\\' => some '\\'
  | '/' => some '/'
  | 'b' => some '\x08'
  | 'f' => some '\x0c'
  | 'n' => some '\n'
  | 'r' => some '\r'
  | 't' => some '\t'
  | _ => none

/-- The value of a hexadecimal digit. -/
def hexValue? (c : Char) : Option Nat :=
  if c.isDigit then some (c.toNat - '0'.toNat)
  else if 'a' ≤ c ∧ c ≤ 'f' then some (c.toNat - 'a'.toNat + 10)
  else if 'A' ≤ c ∧ c ≤ 'F' then some (c.toNat - 'A'.toNat + 10)
  else none

/-- The tokens of a text from a mode on; none where a character cannot stand. -/
def scan? : Mode → List Char → Option (List Token)
  | .between, [] => some []
  | .word seen, [] => (ofWord? seen).map ([·])
  | .numeral seen, [] => (ofNumeral? seen).map ([·])
  | .text _, [] | .escape _, [] | .hex .., [] => none
  | .between, c :: cs => do
    let (here, mode) ← enter? c
    return here ++ (← scan? mode cs)
  | .word seen, c :: cs =>
    if c.isLower then scan? (.word (c :: seen)) cs
    else do
      let word ← ofWord? seen
      let (here, mode) ← enter? c
      return word :: here ++ (← scan? mode cs)
  | .numeral seen, c :: cs =>
    if inNumeral c then scan? (.numeral (c :: seen)) cs
    else do
      let numeral ← ofNumeral? seen
      let (here, mode) ← enter? c
      return numeral :: here ++ (← scan? mode cs)
  | .text seen, c :: cs =>
    if c = '"' then (scan? .between cs).map (.text seen.reverse :: ·)
    else if c = '\\' then scan? (.escape seen) cs
    else if c.toNat < 32 then none
    else scan? (.text (.char c :: seen)) cs
  | .escape seen, c :: cs =>
    if c = 'u' then scan? (.hex seen 4 0) cs
    else
      match shortEscape? c with
      | some d => scan? (.text (.char d :: seen)) cs
      | none => none
  | .hex seen missing value, c :: cs =>
    match hexValue? c with
    | none => none
    | some d =>
      if missing ≤ 1 then scan? (.text (.unit (value * 16 + d) :: seen)) cs
      else scan? (.hex seen (missing - 1) (value * 16 + d)) cs

/-- The tokens of a text. -/
def ofChars? (cs : List Char) : Option (List Token) := scan? .between cs

end Token

/-- The characters of a string token. Code units stand for the character of their value, two
surrogates in a row for one character, and a surrogate alone for nothing. -/
def Piece.chars? : List Piece → Option (List Char)
  | [] => some []
  | .char c :: rest => (chars? rest).map (c :: ·)
  | .unit high :: .unit low :: rest =>
    if 0xD800 ≤ high ∧ high < 0xDC00 then
      if 0xDC00 ≤ low ∧ low < 0xE000 then
        (chars? rest).map (Char.ofNat (0x10000 + (high - 0xD800) * 0x400 + (low - 0xDC00)) :: ·)
      else none
    else if 0xDC00 ≤ high ∧ high < 0xE000 then none
    else (chars? (.unit low :: rest)).map (Char.ofNat high :: ·)
  | .unit u :: rest =>
    if 0xD800 ≤ u ∧ u < 0xE000 then none else (chars? rest).map (Char.ofNat u :: ·)

/-- The text of a string token. -/
def Piece.text? (pieces : List Piece) : Option String := (chars? pieces).map String.ofList

end ClusterSync.Json

import ClusterSync.Decimal.Unsigned

/-!
# Patterns

Regular expressions that the value of a field can be compared with. Only whether a text is one is
decided here: its groups and classes are closed, there is something before each repetition, and a
backslash stands before a character that it can change.
-/

namespace ClusterSync.Pattern

/-- What has been seen of a pattern: how many groups and classes are open, whether something could
be repeated, and where the next character stands: behind a backslash, at the start of a class, at
the start of a group, or in the words about a group. -/
structure Scan where
  groups : Nat := 0
  classes : Nat := 0
  operand : Bool := false
  escaped : Bool := false
  classBegins : Bool := false
  groupBegins : Bool := false
  inWords : Bool := false

/-- The letters that a backslash gives a meaning. -/
def escapeLetters : List Char := "dDsSwWbBAznrtfvaxuUpP".toList

namespace Scan

/-- Takes in a character behind a backslash. -/
def escape? (s : Scan) (c : Char) : Option Scan :=
  if 127 < c.toNat ∨ (c.isAlphanum ∧ ¬ escapeLetters.contains c) then none
  else some { s with escaped := false, operand := true, classBegins := false }

/-- Takes in a character of a class. -/
def inClass (s : Scan) (c : Char) : Scan :=
  if c = '[' then { s with classes := s.classes + 1, classBegins := true }
  else if s.classBegins ∧ c = '^' then s
  else if c = ']' ∧ ¬ s.classBegins then { s with classes := s.classes - 1, operand := true }
  else { s with classBegins := false }

/-- Takes in a character of the words about a group: its name, or how it is read. -/
def inGroupWords? (s : Scan) (c : Char) : Option Scan :=
  if c = ':' ∨ c = '>' then some { s with inWords := false }
  else if c = ')' then
    if s.groups = 0 then none else some { s with inWords := false, groups := s.groups - 1 }
  else if c.isAlphanum ∨ c = '_' ∨ c = '-' ∨ c = '<' then some s
  else none

/-- Takes in a character. -/
def step? (s : Scan) (c : Char) : Option Scan :=
  if s.escaped then s.escape? c
  else if s.inWords then s.inGroupWords? c
  else if c = '\\' then some { s with escaped := true, groupBegins := false }
  else if 0 < s.classes then some (s.inClass c)
  else
    let after := { s with groupBegins := false }
    match c with
    | '[' => some { after with classes := 1, classBegins := true }
    | '(' => some { s with groups := s.groups + 1, operand := false, groupBegins := true }
    | ')' =>
      if s.groups = 0 then none else some { after with groups := s.groups - 1, operand := true }
    | '|' => some { after with operand := false }
    | '?' =>
      if s.groupBegins then some { after with inWords := true }
      else if s.operand then some after
      else none
    | '*' | '+' => if s.operand then some after else none
    | '\x7b' => none
    | _ => some { after with operand := true }

/-- Whether everything that has been opened is closed. -/
def isComplete (s : Scan) : Bool := s.groups = 0 && s.classes = 0 && !s.escaped && !s.inWords

end Scan

/-- Whether a text is a pattern. A number is one, also with its sign. -/
def isPattern (text : String) : Bool :=
  (Decimal.unsigned? Decimal.word64 text).isSome
    || (text.toList.foldlM Scan.step? {}).any Scan.isComplete

example : isPattern "(?i)no[^]]de|\\d+" = true ∧ isPattern "*" = false ∧ isPattern "(" = false := by
  decide +kernel

end ClusterSync.Pattern

/-!
# Plain text

Text without what a terminal would take for a command: control characters other than line breaks
and tabs, and control sequences, which begin with an escape character. `plain` reads the text with
a machine that knows what kind of sequence it is in.
-/

namespace ClusterSync.Text

/-- Where a text stands: outside of all sequences, right behind an escape character, in a sequence
whose kind is not settled yet, in one with parameters, in a command to the operating system, or in
another text that is meant for the terminal. -/
inductive Sequence
  | outside | escape | intermediate | parameters | command | string
  deriving DecidableEq, Repr

/-- The character that begins a sequence. -/
def escapeChar : Char := '\x1b'

/-- The controls that a text may hold. -/
def isBreak (c : Char) : Bool := c = '\t' || c = '\n' || c = '\x0c' || c = '\r'

/-- Whether a character stands for itself outside of sequences. -/
def isPlain (c : Char) : Bool := (32 ≤ c.toNat && c.toNat ≠ 127) || isBreak c

namespace Sequence

/-- The sequence after a character that does not belong to the text. -/
def next (s : Sequence) (c : Char) : Sequence :=
  if c = escapeChar then .escape
  else if c = '\x18' ∨ c = '\x1a' then .outside
  else
    match s with
    | .outside => .outside
    | .escape =>
      if c = '[' then .parameters
      else if c = ']' then .command
      else if c = 'P' ∨ c = 'X' ∨ c = '^' ∨ c = '_' then .string
      else if ' ' ≤ c ∧ c ≤ '/' then .intermediate
      else if '0' ≤ c ∧ c ≤ '~' then .outside
      else .escape
    | .intermediate => if '0' ≤ c ∧ c ≤ '~' then .outside else .intermediate
    | .parameters => if '@' ≤ c ∧ c ≤ '~' then .outside else .parameters
    | .command => if c = '\x07' then .outside else .command
    | .string => .string

/-- Whether a character belongs to the text although it stands in a sequence. -/
def lets (s : Sequence) (c : Char) : Bool :=
  match s with
  | .outside => isPlain c
  | .escape | .intermediate | .parameters => isBreak c
  | .command | .string => false

end Sequence

/-- The plain text of characters that begin in a sequence. A character that belongs to the text
ends the sequence. -/
def plainFrom : Sequence → List Char → List Char
  | _, [] => []
  | s, c :: cs => if s.lets c then c :: plainFrom .outside cs else plainFrom (s.next c) cs

/-- The plain text of a text. -/
def plain (text : String) : String := String.ofList (plainFrom .outside text.toList)

theorem isPlain_of_mem_plainFrom {s : Sequence} {cs : List Char} {c : Char}
    (h : c ∈ plainFrom s cs) : isPlain c = true := by
  fun_induction plainFrom s cs with
  | case1 => simp at h
  | case2 s d cs hd ih =>
    rcases List.mem_cons.1 h with rfl | h
    · cases s <;> simp_all [Sequence.lets, isPlain]
    · exact ih h
  | case3 s d cs hd ih => exact ih h

end ClusterSync.Text

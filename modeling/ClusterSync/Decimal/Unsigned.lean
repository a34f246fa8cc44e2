/-!
# Unsigned numbers

Numbers as they are typed: digits with an optional plus sign in front, and nothing else.
-/

namespace ClusterSync.Decimal

/-- The number of values of a 16-bit word. -/
def word16 : Nat := 65536

/-- The number of values of a 32-bit word. -/
def word32 : Nat := 4294967296

/-- The number of values of a 64-bit word. -/
def word64 : Nat := 18446744073709551616

/-- The value of digits, the first the most significant. -/
def ofDigits (digits : List Char) : Nat :=
  digits.foldl (fun n c => n * 10 + (c.toNat - '0'.toNat)) 0

/-- Reads a number below a bound. -/
def unsigned? (bound : Nat) (text : String) : Option Nat :=
  let digits :=
    match text.toList with
    | '+' :: cs => cs
    | cs => cs
  if digits = [] ∨ ¬ digits.all Char.isDigit then none
  else if ofDigits digits < bound then some (ofDigits digits) else none

end ClusterSync.Decimal

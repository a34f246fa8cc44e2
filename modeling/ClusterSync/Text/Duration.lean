/-!
# Durations

Lengths of time in nanoseconds and the short text form of messages: the largest unit that leaves a
whole part, with the rest as a decimal fraction.
-/

namespace ClusterSync

/-- A length of time in nanoseconds. -/
structure Duration where
  nanos : Nat
  deriving DecidableEq, Repr, Ord

namespace Duration

def ofMillis (n : Nat) : Duration := ⟨n * 1000000⟩

def ofSecs (n : Nat) : Duration := ⟨n * 1000000000⟩

instance : OfNat Duration 0 := ⟨⟨0⟩⟩

instance : Add Duration := ⟨fun a b => ⟨a.nanos + b.nanos⟩⟩

instance : Max Duration := ⟨fun a b => ⟨max a.nanos b.nanos⟩⟩

instance : Min Duration := ⟨fun a b => ⟨min a.nanos b.nanos⟩⟩

instance : LE Duration := ⟨fun a b => a.nanos ≤ b.nanos⟩

instance : DecidableLE Duration := fun a b => inferInstanceAs (Decidable (a.nanos ≤ b.nanos))

/-- The digits of `rest / 10 ^ width` after the point, without zeros at the end. -/
def fractionDigits (width rest : Nat) : List Char :=
  let ds := Nat.toDigits 10 rest
  ((List.replicate (width - ds.length) '0' ++ ds).reverse.dropWhile (· = '0')).reverse

/-- A count of units that are `10 ^ width` nanoseconds each. -/
def inUnits (nanos width : Nat) (unit : String) : String :=
  let size := Nat.pow 10 width
  let rest := nanos % size
  let fraction := if rest = 0 then "" else "." ++ String.ofList (fractionDigits width rest)
  toString (nanos / size) ++ fraction ++ unit

/-- The text form: seconds, milliseconds, microseconds or nanoseconds. -/
def text (d : Duration) : String :=
  if 1000000000 ≤ d.nanos then inUnits d.nanos 9 "s"
  else if 1000000 ≤ d.nanos then inUnits d.nanos 6 "ms"
  else if 1000 ≤ d.nanos then inUnits d.nanos 3 "µs"
  else inUnits d.nanos 0 "ns"

end Duration

end ClusterSync

import ClusterSync.Decimal.Binary64

/-!
# Shortest decimal digits

The fewest decimal digits that round back to a given binary number, and of those the nearest.
-/

namespace ClusterSync.Decimal

/-- Digits with the place of the first one: `0.d₁d₂… · 10 ^ (point)`, so `point - 1` is the
exponent of scientific notation. -/
structure Digits where
  digits : List Nat
  point : Int
  deriving DecidableEq, Repr

namespace Shortest

/-- The decimal digits of a number, most significant first. -/
def decimalDigits (n : Nat) : List Nat := (Nat.toDigits 10 n).map fun c => c.toNat - '0'.toNat

/-- The `k` with `10 ^ k ≤ num / den < 10 ^ (k + 1)`, searched upwards from `k`. -/
def leadingDigit (num den : Nat) (k : Int) : Nat → Int
  | 0 => k
  | tries + 1 =>
    if num * Nat.pow 10 (-(k + 1)).toNat < den * Nat.pow 10 (k + 1).toNat then k
    else leadingDigit num den (k + 1) tries

/-- The interval of the numbers that round to `x`, in quarters of its last place, and whether its
ends belong to it. -/
def interval (x : Binary64) : Nat × Nat × Bool :=
  let m := x.mantissa
  let low := if m = Nat.pow 2 52 ∧ Binary64.minExponent < x.exponent then 4 * m - 1 else 4 * m - 2
  (low, 4 * m + 2, m % 2 = 0)

/-- The multiple of `10 ^ step` nearest to `x` among its two neighbours of that form that round
to `x`, as the factor. -/
def onGrid? (x : Binary64) (step : Int) : Option Nat :=
  let (low, high, closed) := interval x
  -- one quarter of the last place is `unitNum / unitDen` grid steps
  let q := x.exponent - 2
  let unitNum := Nat.pow 2 q.toNat * Nat.pow 10 (-step).toNat
  let unitDen := Nat.pow 2 (-q).toNat * Nat.pow 10 step.toNat
  let value := 4 * x.mantissa * unitNum
  let below := value / unitDen
  let inside (d : Nat) : Bool :=
    if closed then low * unitNum ≤ d * unitDen && d * unitDen ≤ high * unitNum
    else low * unitNum < d * unitDen && d * unitDen < high * unitNum
  let distBelow := value - below * unitDen
  let distAbove := (below + 1) * unitDen - value
  match inside below, inside (below + 1) with
  | true, true =>
    if distBelow < distAbove then some below
    else if distAbove < distBelow then some (below + 1)
    else some (if below % 2 = 0 then below else below + 1)
  | true, false => some below
  | false, true => some (below + 1)
  | false, false => none

/-- The first grid with a hit, from coarse to fine. -/
def search (x : Binary64) (lead : Int) : List Nat → Digits
  | [] => ⟨[0], 1⟩
  | n :: finer =>
    let step := lead + 1 - n
    match onGrid? x step with
    | some d =>
      let ds := decimalDigits d
      ⟨(ds.reverse.dropWhile (· = 0)).reverse, step + ds.length⟩
    | none => search x lead finer

end Shortest

/-- The shortest digits of a magnitude; `0` for zero. -/
def shortest (x : Binary64) : Digits :=
  if x.isZero then ⟨[0], 1⟩
  else
    let (num, den) := x.ratio
    Shortest.search x (Shortest.leadingDigit num den (-324) 700)
      ((List.range 17).map (· + 1))

end ClusterSync.Decimal

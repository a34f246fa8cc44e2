/-!
# Binary floating point

Finite numbers of the 64-bit binary format as a sign and `mantissa · 2 ^ exponent`, with exact
rounding of quotients. `Binary64.ofRatio?` rounds to the nearest such number, a tie to the even
mantissa, and refuses what lies beyond the largest one.
-/

namespace ClusterSync.Decimal

/-- A quotient rounded to the nearest integer, a half to the even neighbour. -/
def roundHalfEven (num den : Nat) : Nat :=
  let q := num / den
  let r := num % den
  if 2 * r < den then q
  else if den < 2 * r then q + 1
  else if q % 2 = 0 then q else q + 1

/-- A finite number: `mantissa · 2 ^ exponent`, with a sign of its own. The mantissa has 53 bits
at most, and fewer only at the smallest exponent. -/
structure Binary64 where
  negative : Bool
  mantissa : Nat
  exponent : Int
  deriving DecidableEq, Repr, Inhabited

namespace Binary64

/-- The smallest exponent. -/
def minExponent : Int := -1074

/-- The largest exponent. -/
def maxExponent : Int := 971

def zero : Binary64 := ⟨false, 0, minExponent⟩

def neg (x : Binary64) : Binary64 := { x with negative := !x.negative }

def isZero (x : Binary64) : Bool := x.mantissa = 0

/-- The position of a positive quotient's leading bit: the `k` with
`2 ^ k ≤ num / den < 2 ^ (k + 1)`. -/
def leadingBit (num den : Nat) : Int :=
  let k : Int := (num.log2 : Int) - den.log2
  if den * Nat.pow 2 k.toNat ≤ num * Nat.pow 2 (-k).toNat then k else k - 1

/-- The finite number nearest to a quotient, unless the quotient is too large. -/
def ofRatio? (num den : Nat) : Option Binary64 :=
  if num = 0 then some zero
  else
    let q := max (leadingBit num den - 52) minExponent
    let m := roundHalfEven (num * Nat.pow 2 (-q).toNat) (den * Nat.pow 2 q.toNat)
    let x : Binary64 :=
      if m = Nat.pow 2 53 then ⟨false, Nat.pow 2 52, q + 1⟩ else ⟨false, m, q⟩
    if maxExponent < x.exponent then none else some x

/-- The magnitude as a quotient of integers. -/
def ratio (x : Binary64) : Nat × Nat :=
  (x.mantissa * Nat.pow 2 x.exponent.toNat, Nat.pow 2 (-x.exponent).toNat)

/-- The rounded product of two magnitudes. -/
def mul? (x y : Binary64) : Option Binary64 :=
  ofRatio? (x.ratio.1 * y.ratio.1) (x.ratio.2 * y.ratio.2)

/-- The rounded quotient of two magnitudes. -/
def div? (x y : Binary64) : Option Binary64 :=
  ofRatio? (x.ratio.1 * y.ratio.2) (x.ratio.2 * y.ratio.1)

/-- Whether one number is at most another. -/
def le (x y : Binary64) : Bool :=
  let lhs := x.ratio.1 * y.ratio.2
  let rhs := y.ratio.1 * x.ratio.2
  match x.negative, y.negative with
  | false, false => lhs ≤ rhs
  | true, true => rhs ≤ lhs
  | true, false => true
  | false, true => lhs = 0 ∧ rhs = 0

/-- The power of ten nearest to `10 ^ e`. -/
def tenTo? (e : Nat) : Option Binary64 := ofRatio? (Nat.pow 10 e) 1

/-- Divides by the same number several times, as long as something is left. -/
def divRepeatedly? (x y : Binary64) : Nat → Option Binary64
  | 0 => some x
  | n + 1 => if x.isZero then some x else (x.div? y).bind fun z => divRepeatedly? z y n

/-- A magnitude times a power of ten. The magnitude is rounded first and the result once more;
powers below `10 ^ -308` are taken in steps of that size. None if the result is too large. -/
def scaled? (x : Binary64) (e : Int) : Option Binary64 :=
  if 308 < e then if x.isZero then some x else none
  else if 0 ≤ e then (tenTo? e.toNat).bind x.mul?
  else
    let steps := ((-e).toNat - 1) / 308
    (tenTo? 308).bind fun big => (x.divRepeatedly? big steps).bind fun y =>
      (tenTo? ((-e).toNat - 308 * steps)).bind y.div?

end Binary64

end ClusterSync.Decimal

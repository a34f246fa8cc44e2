import ClusterSync.Json.Basic

/-!
# Numerals

The grammar of JSON numbers and the number a numeral stands for. An integer stays exact if it
fits 64 bits; anything else becomes floating point: the digits enter a 64-bit significand while
they fit, the rest only move the point, and the result is scaled by a power of ten.
-/

namespace ClusterSync.Json

open Decimal

/-- A number as written: an optional sign, digits, optional digits after a point and an optional
exponent with its sign. -/
structure Numeral where
  negative : Bool
  whole : List Nat
  fraction : List Nat
  exponent? : Option (Bool × List Nat)
  deriving DecidableEq, Repr

namespace Numeral

def digitValue (c : Char) : Nat := c.toNat - '0'.toNat

/-- The digits a text starts with, and the rest. -/
def digits (cs : List Char) : List Nat × List Char :=
  ((cs.takeWhile Char.isDigit).map digitValue, cs.dropWhile Char.isDigit)

/-- Digits before the point: no leading zero unless it stands alone. -/
def wholePart? (cs : List Char) : Option (List Nat × List Char) :=
  match digits cs with
  | ([], _) => none
  | (0 :: _ :: _, _) => none
  | found => some found

/-- Digits after a point, at least one if there is a point. -/
def fractionPart? : List Char → Option (List Nat × List Char)
  | '.' :: cs =>
    match digits cs with
    | ([], _) => none
    | found => some found
  | cs => some ([], cs)

/-- The sign of an exponent, if one is written, and the rest. -/
def exponentSign : List Char → Bool × List Char
  | '+' :: cs => (false, cs)
  | '-' :: cs => (true, cs)
  | cs => (false, cs)

/-- An exponent, which has at least one digit and ends the numeral. -/
def exponentPart? : List Char → Option (Option (Bool × List Nat))
  | [] => some none
  | c :: cs =>
    if c = 'e' ∨ c = 'E' then
      let (negative, rest) := exponentSign cs
      match digits rest with
      | ([], _) => none
      | (ds, []) => some (some (negative, ds))
      | _ => none
    else none

/-- The numeral that a text is. -/
def ofChars? (cs : List Char) : Option Numeral :=
  let (negative, unsigned) :=
    match cs with
    | '-' :: rest => (true, rest)
    | _ => (false, cs)
  (wholePart? unsigned).bind fun (whole, rest) =>
    (fractionPart? rest).bind fun (fraction, rest) =>
      (exponentPart? rest).map fun exponent? => ⟨negative, whole, fraction, exponent?⟩

/-- The bound of a 64-bit significand. -/
def wordBound : Nat := 18446744073709551616

/-- Takes digits into a significand while it stays below the bound; the digits left over come
second. -/
def absorb (significand : Nat) : List Nat → Nat × List Nat
  | [] => (significand, [])
  | d :: ds =>
    if significand * 10 + d < wordBound then absorb (significand * 10 + d) ds
    else (significand, d :: ds)

/-- The bound of an exponent as written. -/
def exponentBound : Nat := 2147483648

/-- The floating-point magnitude of a numeral. An exponent out of bounds leaves zero if it is
negative or the significand is zero. -/
def magnitude? (n : Numeral) : Option Binary64 :=
  let (whole, beyond) := absorb 0 n.whole
  let (significand, ignored) := absorb whole n.fraction
  let shift : Int := beyond.length - (n.fraction.length - ignored.length : Nat)
  let scaleBy (e : Int) := (Binary64.ofRatio? significand 1).bind fun x => x.scaled? e
  match n.exponent? with
  | none => scaleBy shift
  | some (negative, ds) =>
    let (e, beyondExponent) := absorbExponent 0 ds
    if beyondExponent then
      if significand = 0 ∨ negative then some Binary64.zero else none
    else scaleBy (if negative then shift - (e : Int) else shift + (e : Int))
where
  /-- The exponent's value, and whether it leaves its bound. -/
  absorbExponent (e : Nat) : List Nat → Nat × Bool
    | [] => (e, false)
    | d :: ds => if e * 10 + d < exponentBound then absorbExponent (e * 10 + d) ds else (e, true)

/-- The integer of a numeral without fraction and exponent, if it fits. There is no negative zero
among the integers. -/
def integer? (n : Numeral) : Option Int :=
  let value : Nat := n.whole.foldl (fun a d => a * 10 + d) 0
  if n.fraction ≠ [] ∨ n.exponent?.isSome then none
  else if n.negative then
    if value = 0 ∨ 9223372036854775808 < value then none else some (-value)
  else if value < wordBound then some value
  else none

/-- The number a numeral stands for; none if it is too large for floating point. -/
def number? (n : Numeral) : Option Number :=
  match n.integer? with
  | some i => some (.int i)
  | none => n.magnitude?.map fun x => .real (if n.negative then x.neg else x)

end Numeral

end ClusterSync.Json

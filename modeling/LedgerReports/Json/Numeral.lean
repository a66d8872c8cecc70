import LedgerReports.Json.Basic
import LedgerReports.Number.Binary64
import LedgerReports.Text.Digits

/-!
# Numbers of JSON

A numeral without a point and an exponent that fits into 64 bits is an integer. Any other is a float,
which is found with a few operations on floats and so need not be the nearest one: as many digits as
fit into 64 bits are taken as an integer, and that is multiplied or divided by a power of ten.
-/

namespace LedgerReports.Numeral

open Text (digitValue)

/-- The greatest number of 64 bits. -/
def maxSignificand : Nat := 2 ^ 64 - 1

/-- Takes up digits behind a number as long as it stays within 64 bits: the number, and the digits that
are left. -/
def accumulate : Nat → List Char → Nat × List Char
  | n, [] => (n, [])
  | n, c :: rest =>
    let next := 10 * n + digitValue c
    if maxSignificand < next then (n, c :: rest) else accumulate next rest

/-- The integer that the numeral is, if it is one. Zero with a minus sign is none. -/
def toInt? (n : Numeral) : Option Int :=
  match n.fraction, n.exponent, accumulate 0 n.whole with
  | none, none, (m, []) =>
    if !n.negative then some m
    else if 1 ≤ m ∧ m ≤ 2 ^ 63 then some (-m)
    else none
  | _, _, _ => none

/-- The integer of 64 bits with a sign that the numeral is, if it is one. -/
def toInt64? (n : Numeral) : Option Int := n.toInt?.filter fun i => -2 ^ 63 ≤ i ∧ i < 2 ^ 63

/-- The greatest power of ten that a float is multiplied with at once. -/
def maxPower : Nat := 308

/-- The float nearest to a power of ten. -/
def powerOfTen (n : Nat) : Float := Binary64.ofDecimal false 1 n

/-- Multiplies a float by a power of ten, by dividing as often as needed if the exponent is negative.
Nothing comes of a product that is infinite. -/
def scale (x : Float) (exponent : Int) : (rounds : Nat) → Option Float
  | 0 => some x
  | rounds + 1 =>
    if exponent.natAbs ≤ maxPower then
      if 0 ≤ exponent then
        let y := x * powerOfTen exponent.toNat
        if y.isInf then none else some y
      else
        some (x / powerOfTen exponent.natAbs)
    else if x == 0.0 then some x
    else if 0 ≤ exponent then none
    else scale (x / powerOfTen maxPower) (exponent + maxPower) rounds

/-- How often a float other than zero can be divided by the greatest power before it is zero. -/
def maxRounds : Nat := 8

/-- The float made of a significand and an exponent. -/
def ofParts (negative : Bool) (significand : Nat) (exponent : Int) : Option Float :=
  let x := Binary64.nearest false significand 1
  (scale x exponent maxRounds).map fun y => if negative then -y else y

/-- The exponent cut to 32 bits. -/
def saturate (n : Int) : Int := max (-2 ^ 31) (min n (2 ^ 31 - 1))

/-- The float that the numeral is read as, unless it is too great. -/
def toFloat? (n : Numeral) : Option Float :=
  match n.toInt? with
  | some i => some (Binary64.ofInt i)
  | none =>
    let (m, left) := accumulate 0 n.whole
    let (m, point) :=
      match n.fraction with
      | none => (m, (left.length : Int))
      | some figures =>
        let (m, rest) := accumulate m figures
        (m, (left.length : Int) - (figures.length - rest.length : Nat))
    match n.exponent with
    | none => ofParts n.negative m point
    | some e =>
      if e.natAbs < 2 ^ 31 then ofParts n.negative m (saturate (point + e))
      else if m ≠ 0 ∧ 0 < e then none
      else some (Binary64.ofSignedBits n.negative 0)

end LedgerReports.Numeral

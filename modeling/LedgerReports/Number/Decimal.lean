import LedgerReports.Number.Binary64

/-!
# Decimal digits of binary floating-point numbers

A positive number is written as `d₁ d₂ … dₖ` digits with a decimal exponent. `significant` rounds to
a given number of digits, and `shortest` finds the fewest digits that are nearer to the number than
to any other number of the binary format, so that they read back as it.

Both work on the exact ratio of the number.
-/

namespace LedgerReports.Decimal

open Binary64 (Finite roundQuotient)

/-- A positive decimal number `digits * 10 ^ exponent`. -/
structure Digits where
  /-- The digits, as one number. -/
  digits : Nat
  /-- The exponent of the last digit. -/
  exponent : Int
deriving DecidableEq, Repr

/-- The number of decimal digits of a natural number. -/
def width (n : Nat) : Nat := (Nat.toDigits 10 n).length

/-- Multiplies a ratio by a power of ten. -/
def scale (num den : Nat) (exponent : Int) : Nat × Nat :=
  if 0 ≤ exponent then (num * 10 ^ exponent.toNat, den) else (num, den * 10 ^ (-exponent).toNat)

/-- The greatest `e` with `10 ^ e ≤ num / den`, for positive `num` and `den`. -/
def decimalExponent (num den : Nat) : Int :=
  let e : Int := width num - width den
  let (n, d) := scale num den (-e)
  if d ≤ n then e else e - 1

/-- A positive ratio rounded to `count` significant digits, a tie to the even last digit. -/
def significant (num den count : Nat) : Digits :=
  let exponent := decimalExponent num den - (count - 1 : Nat)
  let (n, d) := scale num den (-exponent)
  let rounded := roundQuotient n d
  -- rounding up may give a further digit, which is then a zero
  if rounded = 10 ^ count then ⟨rounded / 10, exponent + 1⟩ else ⟨rounded, exponent⟩

/-- A ratio rounded to `places` decimal places, as a multiple of `10 ^ -places`. -/
def fixed (num den places : Nat) : Nat := roundQuotient (num * 10 ^ places) den

/-- The interval of reals that round to a positive finite number: its ends in units of
`2 ^ (exponent - 2)`, and whether they belong to it. -/
structure Interval where
  /-- The lower end. -/
  lo : Nat
  /-- The upper end. -/
  hi : Nat
  /-- Whether the ends round to the number too. -/
  closed : Bool
  /-- The exponent of two of the unit. -/
  exponent : Int

/-- The reals that round to a positive finite number. Below a power of two the neighbours are half as
far away. -/
def roundingInterval (x : Finite) : Interval where
  lo := if x.mantissa = 2 ^ 52 ∧ -1074 < x.exponent then 4 * x.mantissa - 1 else 4 * x.mantissa - 2
  hi := 4 * x.mantissa + 2
  closed := x.mantissa % 2 = 0
  exponent := x.exponent - 2

/-- Whether `digits * 10 ^ exponent` lies in the interval. -/
def Interval.holds (i : Interval) (candidate : Digits) : Bool :=
  let (unitNum, unitDen) :=
    if 0 ≤ i.exponent then (2 ^ i.exponent.toNat, 1) else (1, 2 ^ (-i.exponent).toNat)
  let (n, d) := scale candidate.digits 1 candidate.exponent
  -- compare n / d with lo * unit and hi * unit
  let value := n * unitDen
  let lo := i.lo * unitNum * d
  let hi := i.hi * unitNum * d
  if i.closed then lo ≤ value && value ≤ hi else lo < value && value < hi

/-- The neighbours of a ratio on the grid of decimals with the given last exponent. -/
def neighbours (num den : Nat) (exponent : Int) : Nat × Nat × Bool :=
  let (n, d) := scale num den (-exponent)
  let q := n / d
  -- the last part says whether the lower neighbour is at least as near
  (q, q + 1, 2 * (n % d) ≤ d)

/-- The decimal with `count` digits that is in the interval of a number, the nearer one if both
neighbours are. -/
def shortestWith? (x : Finite) (top : Int) (count : Nat) : Option Digits :=
  let (num, den) := x.ratio
  let exponent := top - (count - 1 : Nat)
  let (below, above, belowNearer) := neighbours num den exponent
  let interval := roundingInterval x
  let below : Digits := ⟨below, exponent⟩
  let above : Digits := ⟨above, exponent⟩
  match interval.holds below && below.digits != 0, interval.holds above with
  | true, true => some (if belowNearer then below else above)
  | true, false => some below
  | false, true => some above
  | false, false => none

/-- A decimal without trailing zeros. -/
def Digits.trimmed (x : Digits) : Digits :=
  go (width x.digits) x
where
  /-- Takes off at most the given number of zeros. -/
  go : Nat → Digits → Digits
    | 0, x => x
    | n + 1, x =>
      if x.digits % 10 = 0 ∧ x.digits ≠ 0 then go n ⟨x.digits / 10, x.exponent + 1⟩ else x

/-- The fewest decimal digits that read back as a positive finite number, and of those the nearest.
Seventeen digits are always enough. -/
def shortest (x : Finite) : Digits :=
  let (num, den) := x.ratio
  let top := decimalExponent num den
  let found := (List.range 17).findSome? fun i => shortestWith? x top (i + 1)
  (found.getD (significant num den 17)).trimmed

end LedgerReports.Decimal

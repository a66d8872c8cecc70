import LedgerReports.Number.Power

/-!
# Binary floating-point numbers of 64 bits

A finite number of this format is `± m * 2 ^ q` with `m < 2 ^ 53` and `-1074 ≤ q ≤ 971`. `decode`
gives sign, `m` and `q`, and `nearest` goes the other way: it rounds a positive ratio of natural
numbers to the nearest number of the format, a tie to the one with an even `m`. All of it is exact
arithmetic on natural numbers.
-/

namespace LedgerReports.Binary64

/-- A finite number of the format: `± mantissa * 2 ^ exponent`. -/
structure Finite where
  /-- Whether the sign bit is set. -/
  negative : Bool
  /-- The integer factor, below `2 ^ 53`. -/
  mantissa : Nat
  /-- The exponent of two. -/
  exponent : Int
deriving DecidableEq, Repr

/-- The parts of the number that a bit pattern stands for, if it is finite. -/
def Finite.ofBits? (bits : Nat) : Option Finite :=
  let negative := decide (bits / 2 ^ 63 % 2 = 1)
  let biased : Nat := bits / 2 ^ 52 % 2048
  let fraction : Nat := bits % 2 ^ 52
  if biased = 2047 then none
  else if biased = 0 then some ⟨negative, fraction, -1074⟩
  else some ⟨negative, fraction + 2 ^ 52, (biased : Int) - 1075⟩

/-- The parts of a float, if it is finite. -/
def decode (f : Float) : Option Finite := Finite.ofBits? f.toBits.toNat

/-- The value of a finite number without its sign, as a ratio. -/
def Finite.ratio (x : Finite) : Nat × Nat :=
  if 0 ≤ x.exponent then (x.mantissa * 2 ^ x.exponent.toNat, 1)
  else (x.mantissa, 2 ^ (-x.exponent).toNat)

/-- The greatest `e` with `2 ^ e ≤ num / den`, for positive `num` and `den`. -/
def binaryExponent (num den : Nat) : Int :=
  let e : Int := num.log2 - den.log2
  let reached := if 0 ≤ e then den * 2 ^ e.toNat ≤ num else den ≤ num * 2 ^ (-e).toNat
  if reached then e else e - 1

/-- The quotient rounded to the nearest natural number, a tie to the even one. -/
def roundQuotient (num den : Nat) : Nat :=
  let q := num / den
  let r := num % den
  if 2 * r < den ∨ (2 * r = den ∧ q % 2 = 0) then q else q + 1

/-- The bit pattern of infinity, without a sign. -/
def infinityBits : Nat := 2047 * 2 ^ 52

/-- The bit pattern nearest to a positive ratio. A ratio too great for the format is infinity. -/
def nearestBits (num den : Nat) : Nat :=
  if num = 0 then 0
  else
    let lsb := max (binaryExponent num den - 52) (-1074)
    let m :=
      if 0 ≤ lsb then roundQuotient num (den * 2 ^ lsb.toNat)
      else roundQuotient (num * 2 ^ (-lsb).toNat) den
    -- the leading bit of a normal `m` adds one to the biased exponent
    min ((lsb + 1074).toNat * 2 ^ 52 + m) infinityBits

/-- The float with a sign and an unsigned bit pattern. -/
def ofSignedBits (negative : Bool) (bits : Nat) : Float :=
  Float.ofBits (UInt64.ofNat (if negative then bits + 2 ^ 63 else bits))

/-- The float nearest to `± num / den`. -/
def nearest (negative : Bool) (num den : Nat) : Float :=
  ofSignedBits negative (nearestBits num den)

/-- The float nearest to `± digits * 10 ^ exponent`. -/
def ofDecimal (negative : Bool) (digits : Nat) (exponent : Int) : Float :=
  let magnitude := (Nat.toDigits 10 digits).length + exponent
  if digits = 0 ∨ magnitude < -330 then ofSignedBits negative 0
  else if 330 < magnitude then ofSignedBits negative infinityBits
  else if 0 ≤ exponent then nearest negative (digits * 10 ^ exponent.toNat) 1
  else nearest negative digits (10 ^ (-exponent).toNat)

/-- The float nearest to an integer. -/
def ofInt (n : Int) : Float := nearest (decide (n < 0)) n.natAbs 1

/-- The integer that a finite float rounds to toward zero. -/
def Finite.truncate (x : Finite) : Int :=
  let (num, den) := x.ratio
  let magnitude : Int := (num / den : Nat)
  if x.negative then -magnitude else magnitude

/-- Whether a finite float is an integer. -/
def Finite.isInteger (x : Finite) : Bool :=
  let (num, den) := x.ratio
  num % den == 0

/-- The integer that a float is equal to, if there is one. -/
def toInt? (f : Float) : Option Int :=
  (decode f).bind fun x => if x.isInteger then some x.truncate else none

/-- The natural number `mantissa * 2 ^ (exponent - unit)`, for a `unit` that is not greater. -/
def Finite.scaled (x : Finite) (unit : Int) : Nat := x.mantissa * 2 ^ (x.exponent - unit).toNat

/-- What is left of `a` after as many whole `b` as fit have been taken off toward zero. It has the
sign of `a` and is exact. -/
def remainder (a b : Float) : Float :=
  match decode a, decode b with
  | some x, some y =>
    if y.mantissa = 0 then 0.0 / 0.0
    else
      let unit := min x.exponent y.exponent
      let rest := x.scaled unit % y.scaled unit
      if 0 ≤ unit then nearest x.negative (rest * 2 ^ unit.toNat) 1
      else nearest x.negative rest (2 ^ (-unit).toNat)
  | some _, none => if b.isNaN then b else a
  | none, _ => 0.0 / 0.0

/-- How a float compares with an integer; nothing for a float that is no number. -/
def compareInt? (f : Float) (n : Int) : Option Ordering :=
  match decode f with
  | some x =>
    let (num, den) := x.ratio
    let num : Int := num
    some (compare (if x.negative then -num else num) (n * den))
  | none => if f.isNaN then none else some (if f < 0.0 then .lt else .gt)

/-- The power `base ^ n` by repeated squaring in floats, so that each product is rounded. -/
def power (base : Float) (n : Nat) : Float :=
  go n.log2 n base 1.0
where
  /-- Takes in the bits of `n` from the lowest on, `square` being the power for the next one. -/
  go : Nat → Nat → Float → Float → Float
    | 0, n, square, product => if n % 2 = 1 then product * square else product
    | rounds + 1, n, square, product =>
      go rounds (n / 2) (square * square) (if n % 2 = 1 then product * square else product)

end LedgerReports.Binary64

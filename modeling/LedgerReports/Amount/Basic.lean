import LedgerReports.Number.Binary64

/-!
# Amounts

An amount is an exact decimal quantity: `digits * 10 ^ -scale`. One quantity has many such forms,
which differ in trailing zeros; `Amount.normalized` picks the one without any, and amounts are
compared by the quantity.

Sums keep the larger scale of their operands, so adding and subtracting is never rounded.
-/

namespace LedgerReports

/-- An exact decimal quantity, `digits * 10 ^ -scale`. -/
structure Amount where
  /-- The digits with their sign, as one number. -/
  digits : Int
  /-- The number of digits after the decimal point; negative if zeros are left out before it. -/
  scale : Int
deriving DecidableEq, Repr

namespace Amount

/-- Nothing. -/
def zero : Amount := ⟨0, 0⟩

instance : Inhabited Amount := ⟨zero⟩

/-- A whole amount. -/
def ofInt (n : Int) : Amount := ⟨n, 0⟩

/-- The same quantity with more digits after the decimal point. -/
def rescale (a : Amount) (scale : Int) : Amount :=
  ⟨a.digits * 10 ^ (scale - a.scale).toNat, scale⟩

/-- The sum, with the larger of the two scales. -/
def add (a b : Amount) : Amount :=
  let scale := max a.scale b.scale
  ⟨(a.rescale scale).digits + (b.rescale scale).digits, scale⟩

/-- The negated quantity. -/
def neg (a : Amount) : Amount := ⟨-a.digits, a.scale⟩

/-- The difference, with the larger of the two scales. -/
def sub (a b : Amount) : Amount := a.add b.neg

instance : Add Amount := ⟨add⟩

instance : Neg Amount := ⟨neg⟩

instance : Sub Amount := ⟨sub⟩

/-- The sum of a list of amounts. -/
def sum (l : List Amount) : Amount := l.foldl (· + ·) zero

/-- Takes zeros off the end of the digits, at most `count` of them. -/
def dropZeros (a : Amount) : Nat → Amount
  | 0 => a
  | count + 1 =>
    if a.digits % 10 = 0 then dropZeros ⟨a.digits / 10, a.scale - 1⟩ count else a

/-- The number of decimal digits. -/
def width (a : Amount) : Nat := (Nat.toDigits 10 a.digits.natAbs).length

/-- The form without trailing zeros. -/
def normalized (a : Amount) : Amount :=
  if a.digits = 0 then zero else a.dropZeros a.width

/-- How two quantities compare. The places of their first digits are compared before the digits, so
that amounts of very different size are told apart without writing out their zeros. -/
def compare (a b : Amount) : Ordering :=
  let sign := Ord.compare a.digits.sign b.digits.sign
  if sign ≠ .eq ∨ a.digits = 0 then sign
  else
    let size := Ord.compare (a.width - a.scale) (b.width - b.scale)
    if size ≠ .eq then (if 0 < a.digits then size else size.swap)
    else
      let scale := max a.scale b.scale
      Ord.compare (a.rescale scale).digits (b.rescale scale).digits

instance : Ord Amount := ⟨compare⟩

/-- Whether two amounts are the same quantity. -/
def same (a b : Amount) : Bool := a.compare b == .eq

/-- Whether the amount is written with at most this many digits before conversion to a float. -/
def floatDigits : Nat := 25

/-- The number of digits that are cut off at a time when there are too many. -/
def floatChunk : Nat := 19

/-- An estimate of the number of decimal digits from the number of bits. -/
def estimatedWidth (n : Nat) : Nat :=
  if n = 0 then 0 else (n.log2 + 2) * 301029995663981195 / 10 ^ 18

/-- The quantity as a float. Digits far behind the leading ones are cut off, and whole amounts with
zeros left out are multiplied out in floats. -/
def toFloat (a : Amount) : Float :=
  let negative := decide (a.digits < 0)
  let magnitude := a.digits.natAbs
  if magnitude = 0 then 0.0
  else if a.scale = 0 then Binary64.nearest negative magnitude 1
  else
    let cuts := (estimatedWidth magnitude - floatDigits) / floatChunk
    let magnitude := magnitude / 10 ^ (floatChunk * cuts)
    let scale := a.scale - (floatChunk * cuts : Nat)
    if scale < -2 ^ 31 ∨ 2 ^ 31 ≤ scale then
      Binary64.ofSignedBits negative Binary64.infinityBits
    else if scale ≤ 0 then
      Binary64.nearest negative magnitude 1 * Binary64.power 10.0 (-scale).toNat
    else
      Binary64.ofDecimal negative magnitude (-scale)

end Amount

end LedgerReports

import LedgerReports.Number.Power

/-!
# Random numbers

A generator of pseudo-random numbers with 256 bits of state, the xoshiro256** generator. The numbers
are a function of the seed.
-/

namespace LedgerReports

/-- The state of a generator. -/
structure Random where
  /-- The first word. -/
  a : UInt64
  /-- The second word. -/
  b : UInt64
  /-- The third word. -/
  c : UInt64
  /-- The fourth word. -/
  d : UInt64
deriving DecidableEq, Repr

namespace Random

/-- The bits turned to the left; those that fall out come in again. -/
def rotate (x n : UInt64) : UInt64 := (x <<< n) ||| (x >>> (64 - n))

/-- The next number, and the state after it. -/
def next (r : Random) : UInt64 × Random :=
  let c := r.c ^^^ r.a
  let d := r.d ^^^ r.b
  (rotate (r.b * 5) 7 * 9, ⟨r.a ^^^ d, r.b ^^^ c, c ^^^ (r.b <<< 17), rotate d 45⟩)

/-- The state after some numbers have been left out. -/
def skip (r : Random) (count : Nat) : Random := count.fold (fun _ _ r => r.next.2) r

/-- The generator for a seed. -/
def ofSeed (first second : UInt64) : Random := skip ⟨first, 0xff, second, 0⟩ 16

instance : Inhabited Random := ⟨ofSeed 0 0⟩

/-- The least number of the form `2 ^ k - 1` that is not less than `n`. -/
def cover (n : UInt64) : UInt64 := if n = 0 then 0 else UInt64.ofNat (2 ^ (n.toNat.log2 + 1) - 1)

/-- A number from 0 to `n`. Numbers that are too great are thrown away. -/
def upTo (n : UInt64) : (attempts : Nat) → UInt64 → Random → UInt64 × Random
  | 0, x, r => (x % (n + 1), r)
  | attempts + 1, x, r =>
    let x := x &&& cover n
    if x ≤ n then (x, r)
    else
      let (x, r) := r.next
      upTo n attempts x r

end Random

end LedgerReports

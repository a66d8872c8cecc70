/-!
# Powers

A power of a natural number or of an integer is the one of the core library. Other libraries have
powers of their own for these numbers, which are the same and are written in the same way. What a
power stands for must not depend on which of them are imported.
-/

namespace LedgerReports

universe u

/-- Powers are those of the core library. -/
@[default_instance 20000]
instance (priority := 2000) corePower {α : Type u} [NatPow α] : Pow α Nat := instPowNat

end LedgerReports

/-!
# Double — the range of binary doubles

Numbers are kept as exact decimals, but one that a binary double cannot hold is refused.  A double
has a significand of 53 bits and overflows from halfway between the greatest one and the next power
of two on.
-/

namespace Sidebar.Double

/-- The significand of at most 53 bits nearest to `n`, at its place; a tie goes to the even one. -/
def roundSignificand (n : Nat) : Nat :=
  if n < Nat.pow 2 53 then n
  else
    let unit := Nat.pow 2 (n.log2 - 52)
    let down := n / unit
    let up := if unit < 2 * (n % unit) || (unit == 2 * (n % unit) && down % 2 == 1) then 1 else 0
    (down + up) * unit

/-- Where doubles overflow. -/
def overflowBound : Nat := Nat.pow 2 1024 - Nat.pow 2 970

/-- The greatest power of ten that a double holds. -/
def maxPower : Nat := 308

end Sidebar.Double

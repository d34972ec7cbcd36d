/-!
# Text — escaped code units

Both source languages spell a character as `\uXXXX`, a UTF-16 code unit in four hexadecimal
digits; a character beyond U+FFFF takes two of them, a high unit and a low unit.
`ofPair_high_low`: splitting a character beyond U+FFFF and joining the units gives it back.
-/

namespace Sidebar.Text

/-- The value of a hexadecimal digit, in either letter case. -/
def hexValue? (c : Char) : Option Nat :=
  if '0' ≤ c ∧ c ≤ '9' then some (c.toNat - 48)
  else if 'a' ≤ c ∧ c ≤ 'f' then some (c.toNat - 87)
  else if 'A' ≤ c ∧ c ≤ 'F' then some (c.toNat - 55)
  else none

/-- The lower-case hexadecimal digit of a number below sixteen. -/
def hexDigit (n : Nat) : Char :=
  if n < 10 then Char.ofNat (48 + n) else Char.ofNat (87 + n)

namespace CodeUnit

/-- The first half of a pair. -/
def isHigh (u : Nat) : Bool := decide (0xD800 ≤ u) && decide (u < 0xDC00)

/-- The second half of a pair. -/
def isLow (u : Nat) : Bool := decide (0xDC00 ≤ u) && decide (u < 0xE000)

/-- The code point of a pair. -/
def ofPair (high low : Nat) : Nat := 0x10000 + (high - 0xD800) * 0x400 + (low - 0xDC00)

/-- The first half of a code point beyond U+FFFF. -/
def high (n : Nat) : Nat := 0xD800 + (n - 0x10000) / 0x400

/-- The second half of a code point beyond U+FFFF. -/
def low (n : Nat) : Nat := 0xDC00 + (n - 0x10000) % 0x400

theorem ofPair_high_low {n : Nat} (h : 0x10000 ≤ n) : ofPair (high n) (low n) = n := by
  have joined : ofPair (high n) (low n)
      = 0x10000 + (n - 0x10000) / 0x400 * 0x400 + (n - 0x10000) % 0x400 := by
    unfold ofPair high low
    simp only [Nat.add_sub_cancel_left]
  rw [joined, Nat.add_assoc, Nat.div_add_mod', Nat.add_sub_of_le h]

end CodeUnit

end Sidebar.Text

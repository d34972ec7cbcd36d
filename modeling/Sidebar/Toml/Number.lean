import Sidebar.Double
import Sidebar.Text.CodeUnit

/-!
# Toml — numbers

An integer is decimal, with an optional sign and without a needless zero in front, or has one of
three other bases.  A float has a fraction or an exponent.  Single underscores may part the digits
of both.  Spelling and value are looked at apart: what is spelled like a number may still denote
none, because it has no digits or letters among them, or because no binary double can hold it.

* `isParted_of_all`: digits alone are well parted.
-/

namespace Sidebar.Toml

open Sidebar.Text

/-! ### Signs and digits -/

/-- A sign comes first. -/
def isSigned (s : List Char) : Bool :=
  s.head? == some '+' || s.head? == some '-'

/-- The text without the sign in front. -/
def unsigned (s : List Char) : List Char :=
  if isSigned s then s.tail else s

/-- Every underscore stands right between two digits; `before` says whether a digit comes in front
of the text. -/
def isParted (isDigit : Char → Bool) : Bool → List Char → Bool
  | _, []            => true
  | before, '_' :: s => before && s.head?.any isDigit && isParted isDigit false s
  | _, c :: s        => isParted isDigit (isDigit c) s

theorem isParted_of_all {isDigit : Char → Bool} (hu : isDigit '_' = false) (before : Bool)
    {s : List Char} (hs : ∀ c ∈ s, isDigit c = true) : isParted isDigit before s = true := by
  induction s generalizing before with
  | nil => rfl
  | cons c s ih =>
    have hc : c ≠ '_' := by
      rintro rfl
      simp [hu] at hs
    rw [isParted]
    · exact ih _ fun d hd => hs d (List.mem_cons_of_mem c hd)
    · exact hc

/-- The number that digits denote in a base. -/
def ofDigits (base : Nat) (ds : List Char) : Nat :=
  ds.foldl (fun n c => n * base + (hexValue? c).getD 0) 0

/-- A digit of a base up to sixteen. -/
def isDigitOf (base : Nat) (c : Char) : Bool :=
  (hexValue? c).any fun d => decide (d < base)

/-- The digits, without the underscores between them. -/
def digits (s : List Char) : List Char :=
  s.filter (· != '_')

/-! ### Integers -/

/-- The number that a text of digits and underscores denotes in a base, if it denotes one. -/
def natural? (base : Nat) (s : List Char) : Option Nat :=
  let ds := digits s
  if !ds.isEmpty && ds.all (isDigitOf base) then some (ofDigits base ds) else none

/-- What follows the mark of a base is spelled like digits. -/
def isBased (base : Nat) (s : List Char) : Bool :=
  (digits s).all (isDigitOf base) && isParted (isDigitOf base) false s

/-- The text is spelled like a decimal integer.  Letters that are digits in another base may stand
at an underscore. -/
def isDecimal (s : List Char) : Bool :=
  let t := unsigned s
  (t == ['0'] || t.head? != some '0') && isParted (isDigitOf 16) false t

/-- The value of a decimal integer. -/
def decimal? (s : List Char) : Option Int :=
  (natural? 10 (unsigned s)).map fun n => if s.head? = some '-' then -(n : Int) else n

/-! ### Floats -/

/-- A row of digits and underscores, and the text after it. -/
def digitRow (s : List Char) : List Char × List Char :=
  let isPart : Char → Bool := fun c => c.isDigit || c == '_'
  (digits (s.takeWhile isPart), s.dropWhile isPart)

/-- The digits behind a point, if there is one, and the text after them. -/
def fractionDigits? : List Char → Option (List Char × List Char)
  | '.' :: s =>
    let (ds, s) := digitRow s
    if ds.isEmpty then none else some (ds, s)
  | s => some ([], s)

/-- The exponent at the end of a float; zero if there is none. -/
def exponent? : List Char → Option Int
  | []     => some 0
  | c :: s =>
    let (ds, r) := digitRow (unsigned s)
    if (c = 'e' ∨ c = 'E') ∧ ds ≠ [] ∧ r = [] then
      some (if s.head? = some '-' then -(ofDigits 10 ds : Int) else ofDigits 10 ds)
    else none

/-- The digits of a float and the power of ten of the last one. -/
def float? (s : List Char) : Option (List Char × Int) := do
  let t := unsigned s
  let (whole, r) := digitRow t
  let (fraction, r) ← fractionDigits? r
  let e ← exponent? r
  if whole.isEmpty || (decide (1 < whole.length) && t.head? == some '0') ||
      !isParted Char.isDigit false t then none
  else some (whole ++ fraction, e - fraction.length)

/-- Digits and a power of ten that a double cannot hold.  A number below `10 ^ 308` fits, and one
from `10 ^ 309` on does not, so that powers are only taken in between. -/
def overflows (ds : List Char) (exponent : Int) : Bool :=
  let ds := ds.dropWhile (· == '0')
  let magnitude := ds.length + exponent
  if ds.isEmpty || decide (magnitude ≤ Double.maxPower) then false
  else if Double.maxPower + 1 < magnitude then true
  else decide (Double.overflowBound * Nat.pow 10 (-exponent).toNat ≤
    ofDigits 10 ds * Nat.pow 10 exponent.toNat)

end Sidebar.Toml

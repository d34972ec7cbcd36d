import Sidebar.Value
import Sidebar.Double
import Sidebar.Json.Fault

/-!
# Json — numbers

A number is a sign, a whole part without a needless zero in front, and optionally a fraction and
an exponent.  It denotes an exact decimal.  A number that a binary double cannot hold is refused,
and `isOutOfRange` says when, in whole numbers: the significand is the longest run of digits that
fits in 64 bits, both it and the power of ten are rounded to a double, and so is their product,
which overflows from halfway between the greatest double and the next power of two on.
-/

namespace Sidebar.Json

open Sidebar.Text

/-! ### The range of doubles -/

/-- `significand · 10 ^ exponent` overflows a double. -/
def isOutOfRange (significand : Nat) (exponent : Int) : Bool :=
  match exponent with
  | .negSucc _ => false
  | .ofNat e =>
    if Double.maxPower < e then significand != 0
    else decide (Double.overflowBound ≤
      Double.roundSignificand significand * Double.roundSignificand (Nat.pow 10 e))

/-- Digits read into a significand of 64 bits: its value, and how many digits it took before the
first that does not fit. -/
def takeDigits : Nat → List Char → Nat × Nat
  | n, []     => (n, 0)
  | n, c :: s =>
    let m := n * 10 + (c.toNat - 48)
    if m < Nat.pow 2 64 then
      let r := takeDigits m s
      (r.1, r.2 + 1)
    else (n, 0)

/-- The significand and exponent that a number is held by: digits of the whole part that do not
fit count as powers of ten, digits of the fraction that do not fit are dropped. -/
def heldBy (whole fraction : List Char) (exponent : Int) : Nat × Int :=
  let (n, taken) := takeDigits 0 whole
  let (m, taken') := takeDigits n fraction
  (m, exponent + (whole.length - taken : Nat) - (taken' : Nat))

/-! ### Reading -/

/-- The value of a row of digits. -/
def digitsValue (ds : List Char) : Nat :=
  ds.foldl (fun n c => n * 10 + (c.toNat - 48)) 0

/-- The digits after a first digit `c`; a zero stands alone. -/
def wholePart : Reader (List Char)
  | []     => stopAt .endInValue []
  | c :: s =>
    if c = '0' then
      match s with
      | d :: _ => if d.isDigit then stopBehind 1 .invalidNumber s else .ok ([c], s)
      | []     => .ok ([c], [])
    else if c.isDigit then .ok (c :: s.takeWhile Char.isDigit, s.dropWhile Char.isDigit)
    else stopBehind 1 .invalidNumber (c :: s)

/-- The digits after a point, if one comes next. -/
def fractionPart : Reader (List Char)
  | '.' :: s =>
    match s.takeWhile Char.isDigit with
    | [] => stopBefore .endInValue .invalidNumber s
    | ds => .ok (ds, s.dropWhile Char.isDigit)
  | s => .ok ([], s)

/-- The greatest exponent that is read to its end. -/
def maxExponent : Nat := Nat.pow 2 31 - 1

/-- The text after the digit with which an exponent exceeds the greatest one, if one does. -/
def excess? : Nat → List Char → Option (List Char)
  | _, []     => none
  | n, c :: s =>
    if c.isDigit then
      if n * 10 + (c.toNat - 48) ≤ maxExponent then excess? (n * 10 + (c.toNat - 48)) s
      else some s
    else none

/-- Whether the sign of an exponent, which may be left out, is a minus. -/
def exponentSign : List Char → Bool × List Char
  | '+' :: s => (false, s)
  | '-' :: s => (true, s)
  | s        => (false, s)

/-- The digits of an exponent.  One that is too great ends the number on the spot, unless it is
negative or the number is zero. -/
def exponentDigits (negative isZero : Bool) : Reader Int := fun s =>
  match s.takeWhile Char.isDigit with
  | [] => stopBefore .endInValue .invalidNumber s
  | ds =>
    match excess? 0 s, negative || isZero with
    | some r, false => stopAt .numberOutOfRange r
    | _, _ =>
      let e : Int := digitsValue ds
      .ok (if negative then -e else e, s.dropWhile Char.isDigit)

/-- An exponent, if one comes next. -/
def exponentPart (isZero : Bool) : Reader Int
  | [] => .ok (0, [])
  | c :: s =>
    if c = 'e' ∨ c = 'E' then exponentDigits (exponentSign s).1 isZero (exponentSign s).2
    else .ok (0, c :: s)

/-- A number after its sign. -/
def number (negative : Bool) : Reader Decimal := fun s => do
  let (whole, s) ← wholePart s
  let (fraction, s) ← fractionPart s
  let digits := whole ++ fraction
  let (exponent, s) ← exponentPart (digits.all (· == '0')) s
  let (significand, power) := heldBy whole fraction exponent
  if isOutOfRange significand power then stopAt .numberOutOfRange s
  else .ok (⟨negative, digitsValue digits, exponent - fraction.length⟩, s)

end Sidebar.Json

/-!
# Toml — dates and times

A moment is a date, a time, or a date and a time between which stands a `T` or one blank and which
an offset may follow.  The seconds of a time may be left out.  The day exists in its month, and a
minute has sixty-one seconds at most.
-/

namespace Sidebar.Toml

/-- The value of two digits at the start of a text. -/
def twoDigits? : List Char → Option (Nat × List Char)
  | a :: b :: s =>
    if a.isDigit && b.isDigit then some ((a.toNat - 48) * 10 + (b.toNat - 48), s) else none
  | _ => none

/-- The text after a character. -/
def after? (c : Char) : List Char → Option (List Char)
  | d :: s => if d = c then some s else none
  | []     => none

/-- The number of days of a month. -/
def daysIn (year month : Nat) : Nat :=
  if month = 2 then
    if year % 4 = 0 ∧ (year % 100 ≠ 0 ∨ year % 400 = 0) then 29 else 28
  else if month = 4 ∨ month = 6 ∨ month = 9 ∨ month = 11 then 30
  else 31

/-- The text after a date. -/
def date? (s : List Char) : Option (List Char) := do
  let (century, s) ← twoDigits? s
  let (year, s) ← twoDigits? s
  let s ← after? '-' s
  let (month, s) ← twoDigits? s
  let s ← after? '-' s
  let (day, s) ← twoDigits? s
  if 1 ≤ month ∧ month ≤ 12 ∧ 1 ≤ day ∧ day ≤ daysIn (century * 100 + year) month then some s
  else none

/-- The text after a fraction of a second, if one comes next. -/
def fraction? : List Char → Option (List Char)
  | '.' :: s =>
    if (s.takeWhile Char.isDigit).isEmpty then none else some (s.dropWhile Char.isDigit)
  | s => some s

/-- The text after a time. -/
def time? (s : List Char) : Option (List Char) := do
  let (hour, s) ← twoDigits? s
  let s ← after? ':' s
  let (minute, s) ← twoDigits? s
  if 24 ≤ hour ∨ 60 ≤ minute then none
  else
    match after? ':' s with
    | none   => some s
    | some s => do
      let (second, s) ← twoDigits? s
      if 61 ≤ second then none else fraction? s

/-- The text after an offset, if one comes next. -/
def offset? : List Char → Option (List Char)
  | []     => some []
  | c :: s =>
    if c = 'Z' ∨ c = 'z' then some s
    else if c = '+' ∨ c = '-' then do
      let (hour, s) ← twoDigits? s
      let s ← after? ':' s
      let (minute, s) ← twoDigits? s
      if 24 ≤ hour ∨ 60 ≤ minute then none else some s
    else none

/-- The text after a time and an offset behind a date, if they come next. -/
def timeOfDay? : List Char → Option (List Char)
  | []     => some []
  | c :: s => if c = 'T' ∨ c = 't' ∨ c = ' ' then time? s >>= offset? else none

/-- The text is a moment. -/
def isMoment (s : List Char) : Bool :=
  (date? s >>= timeOfDay?) == some [] || time? s == some []

end Sidebar.Toml

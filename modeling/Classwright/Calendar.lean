/-
The calendar.

Moments are counted in microseconds from the start of the year 1970, and days from the start of the year 0.

- `Calendar.daysBefore`, `yearOf`: the days before a year, and the year of a day;
- `Calendar.monthAndDay`: what is left of a day in its year;
- `Calendar.readingAt`: what a calendar and a clock show at a moment.
-/

namespace Classwright.Calendar

/-- the days before a year: every fourth year is a leap year, but of those that end a century only every fourth -/
def daysBefore (year : Int) : Int := 365 * year + (year + 3) / 4 - (year + 99) / 100 + (year + 399) / 400

/-- the year of a day: the one that is due after years of average length, or one beside it -/
def yearOf (day : Int) : Int :=
  let guess := 400 * day / 146097
  if day < daysBefore guess then guess - 1 else if daysBefore (guess + 1) ≤ day then guess + 1 else guess

/-- the second month has the days that the others leave -/
def monthLengths (year : Int) : List Nat :=
  [31, (daysBefore (year + 1) - daysBefore year - 337).toNat, 31, 30, 31, 30, 31, 31, 30, 31, 30, 31]

/-- month and day when some days of a year are over -/
def monthAndDay : List Nat → Nat → Nat × Nat
  | [], gone => (1, gone + 1)
  | length :: rest, gone =>
    if gone < length then (1, gone + 1)
    else
      let (month, day) := monthAndDay rest (gone - length)
      (month + 1, day)

structure Reading where
  year : Int
  month : Nat
  day : Nat
  hour : Nat
  minute : Nat
  second : Nat
  deriving DecidableEq, Repr

/-- what a calendar and a clock show at a moment -/
def readingAt (time : Int) : Reading :=
  let seconds := time / 1000000
  let day := seconds / 86400 + daysBefore 1970
  let inDay := (seconds % 86400).toNat
  let year := yearOf day
  let (month, dayOfMonth) := monthAndDay (monthLengths year) (day - daysBefore year).toNat
  ⟨year, month, dayOfMonth, inDay / 3600, inDay / 60 % 60, inDay % 60⟩

example : readingAt 951868799000000 = ⟨2000, 2, 29, 23, 59, 59⟩ := by decide

end Classwright.Calendar

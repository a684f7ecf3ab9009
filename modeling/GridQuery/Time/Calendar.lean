/-! # The Gregorian calendar

Days are numbered from the first of January of the year 1, which is a Monday and has the number 1. -/
namespace GridQuery.Time

def isLeap (year : Nat) : Bool := year % 4 == 0 && (year % 100 != 0 || year % 400 == 0)

def daysInMonth (year month : Nat) : Nat :=
  if month = 2 then (if isLeap year then 29 else 28)
  else if month = 4 ∨ month = 6 ∨ month = 9 ∨ month = 11 then 30
  else 31

/-- Days of all years before the given one. -/
def daysBeforeYear (year : Nat) : Nat :=
  let y := year - 1
  365 * y + y / 4 - y / 100 + y / 400

/-- Days of a year before the given month. -/
def daysBeforeMonth (year : Nat) : Nat → Nat
  | 0 | 1 => 0
  | month + 2 => daysBeforeMonth year (month + 1) + daysInMonth year (month + 1)

/-- A day of the years 1 to 9999. -/
structure Date where
  year : Nat
  month : Nat
  day : Nat
  year_pos : 1 ≤ year
  year_le : year ≤ 9999
  month_pos : 1 ≤ month
  month_le : month ≤ 12
  day_pos : 1 ≤ day
  day_le : day ≤ daysInMonth year month
  deriving DecidableEq

namespace Date

def of? (year month day : Nat) : Option Date :=
  if h : (1 ≤ year ∧ year ≤ 9999) ∧ (1 ≤ month ∧ month ≤ 12) ∧ 1 ≤ day ∧ day ≤ daysInMonth year month then
    some ⟨year, month, day, h.1.1, h.1.2, h.2.1.1, h.2.1.2, h.2.2.1, h.2.2.2⟩
  else none

@[simp] theorem of?_self (d : Date) : of? d.year d.month d.day = some d := by
  have h := And.intro (And.intro d.year_pos d.year_le)
    (And.intro (And.intro d.month_pos d.month_le) (And.intro d.day_pos d.day_le))
  simp [of?, h]

def number (d : Date) : Nat := daysBeforeYear d.year + daysBeforeMonth d.year d.month + d.day

/-- The month and day of the day with the given index in a year, counted from zero. -/
def ofDayOfYear? (year : Nat) (index : Nat) : Option Date :=
  (List.range 12).findSome? fun m =>
    let before := daysBeforeMonth year (m + 1)
    if before ≤ index ∧ index < before + daysInMonth year (m + 1) then
      of? year (m + 1) (index - before + 1)
    else none

/-- The year of a numbered day: 400 years have 146097 days, a century 36524 and four years 1461, the
last of each group having one more. -/
def yearOfNumber (n : Nat) : Nat :=
  let n := n - 1
  let r400 := n % 146097
  let century := min (r400 / 36524) 3
  let r100 := r400 - century * 36524
  let r4 := r100 % 1461
  let year := min (r4 / 365) 3
  n / 146097 * 400 + century * 100 + r100 / 1461 * 4 + year + 1

def ofNumber? (n : Nat) : Option Date :=
  if n = 0 then none
  else
    let year := yearOfNumber n
    ofDayOfYear? year (n - 1 - daysBeforeYear year)

end Date

/-- The weekday of a numbered day; Monday is zero. -/
def weekday (n : Nat) : Nat := (n + 6) % 7

/-- The number of the Monday of the first week of a year, the week with the year's first Thursday;
it may lie before the first day, where it is zero or less. -/
def firstMonday (year : Nat) : Int :=
  let first := daysBeforeYear year + 1
  let w := weekday first
  let monday : Int := (first : Int) - w
  if w ≤ 3 then monday else monday + 7

/-- Whether a year has a week 53: it begins with a Thursday, or is a leap year that begins with a
Wednesday. -/
def hasLongYear (year : Nat) : Bool :=
  let w := weekday (daysBeforeYear year + 1)
  w == 3 || (w == 2 && isLeap year)

/-- The day given by year, week and day of the week, where Monday is one. -/
def Date.ofWeek? (year week day : Nat) : Option Date :=
  if 1 ≤ year ∧ 1 ≤ week ∧ (week ≤ 52 ∨ week = 53 ∧ hasLongYear year) ∧ 1 ≤ day ∧ day ≤ 7 then
    Date.ofNumber? (firstMonday year + ((week - 1) * 7 + (day - 1) : Nat)).toNat
  else none

end GridQuery.Time

import GridQuery.Time.Calendar
import GridQuery.Number.Layout

/-! # Moments: a date, a time of day, and how far the clock is ahead of UTC -/
namespace GridQuery.Time
open Text

/-- A time of day with microseconds. -/
structure Clock where
  hour : Nat
  minute : Nat
  second : Nat
  micro : Nat
  hour_lt : hour < 24
  minute_lt : minute < 60
  second_lt : second < 60
  micro_lt : micro < 1000000
  deriving DecidableEq

def Clock.of? (hour minute second micro : Nat) : Option Clock :=
  if h : hour < 24 ∧ minute < 60 ∧ second < 60 ∧ micro < 1000000 then
    some ⟨hour, minute, second, micro, h.1, h.2.1, h.2.2.1, h.2.2.2⟩
  else none

@[simp] theorem Clock.of?_self (c : Clock) : Clock.of? c.hour c.minute c.second c.micro = some c := by
  have h := And.intro c.hour_lt (And.intro c.minute_lt (And.intro c.second_lt c.micro_lt))
  simp [of?, h]

def Clock.midnight : Clock := ⟨0, 0, 0, 0, by decide, by decide, by decide, by decide⟩

/-- Microseconds in a day. -/
def dayMicros : Int := 86400000000

/-- How far a clock is ahead of UTC, in microseconds: less than a day either way. -/
structure Offset where
  micros : Int
  above : -dayMicros < micros
  below : micros < dayMicros
  deriving DecidableEq

def Offset.of? (micros : Int) : Option Offset :=
  if h : -dayMicros < micros ∧ micros < dayMicros then some ⟨micros, h.1, h.2⟩ else none

def Offset.utc : Offset := ⟨0, by decide, by decide⟩

end Time

open Time

/-- A date and time; without an offset it is not tied to a zone. -/
structure Moment where
  date : Date
  clock : Clock
  offset : Option Offset
  deriving DecidableEq

namespace Moment
open Text

/-- The same fields, read as UTC unless there is an offset already. -/
def orUtc (m : Moment) : Moment := { m with offset := some (m.offset.getD Offset.utc) }

@[simp] theorem orUtc_orUtc (m : Moment) : m.orUtc.orUtc = m.orUtc := rfl

theorem orUtc_of_isSome {m : Moment} (h : m.offset.isSome) : m.orUtc = m := by
  obtain ⟨d, c, o⟩ := m
  cases o with
  | none => simp at h
  | some o => rfl

/-- Hours, minutes and, where they are not zero, seconds and microseconds of an offset. -/
def offsetText (o : Offset) : List Char :=
  let us := o.micros.natAbs
  let seconds := us / 1000000
  let micro := us % 1000000
  let sign := if o.micros < 0 then '-' else '+'
  let tail :=
    if micro ≠ 0 then ':' :: Layout.padded 2 (seconds % 60) ++ '.' :: Layout.padded 6 micro
    else if seconds % 60 ≠ 0 then ':' :: Layout.padded 2 (seconds % 60)
    else []
  sign :: Layout.padded 2 (seconds / 3600) ++ ':' :: Layout.padded 2 (seconds / 60 % 60) ++ tail

def dateText (d : Date) : List Char :=
  Layout.padded 4 d.year ++ '-' :: Layout.padded 2 d.month ++ '-' :: Layout.padded 2 d.day

def clockText (c : Clock) : List Char :=
  let fraction := if c.micro = 0 then [] else '.' :: Layout.padded 6 c.micro
  Layout.padded 2 c.hour ++ ':' :: Layout.padded 2 c.minute ++ ':' :: Layout.padded 2 c.second ++ fraction

/-- The ISO 8601 text, with the given character between date and time. -/
def isoText (separator : Char) (m : Moment) : List Char :=
  dateText m.date ++ separator :: clockText m.clock ++ (m.offset.map offsetText).getD []

/-- A named number of an offset's long form; zero is left out. -/
def namedPart (name : String) (n : Int) : Option (List Char) :=
  if n = 0 then none else some (name.toList ++ '=' :: integerText n)

def joinWith (separator : List Char) : List (List Char) → List Char
  | [] => []
  | [x] => x
  | x :: y :: r => x ++ separator ++ joinWith separator (y :: r)

/-- The long form of an offset, which counts whole days downward and seconds upward from there. -/
def offsetForm (o : Offset) : List Char :=
  if o.micros = 0 then "datetime.timezone.utc".toList
  else
    let rest := o.micros % dayMicros
    let parts := [namedPart "days" (o.micros / dayMicros), namedPart "seconds" (rest / 1000000),
      namedPart "microseconds" (rest % 1000000)].filterMap id
    "datetime.timezone(datetime.timedelta(".toList ++ joinWith [',', ' '] parts ++ [')', ')']

/-- The long form of a moment: its fields as arguments, with seconds and microseconds only as far as
they are needed. -/
def longForm (m : Moment) : List Char :=
  let c := m.clock
  let numbers := [m.date.year, m.date.month, m.date.day, c.hour, c.minute]
  let seconds := if c.micro ≠ 0 then [c.second, c.micro] else if c.second ≠ 0 then [c.second] else []
  let zone := match m.offset with
    | none => []
    | some o => ["tzinfo=".toList ++ offsetForm o]
  "datetime.datetime(".toList ++
    joinWith [',', ' '] ((numbers ++ seconds).map decimalDigits ++ zone) ++ [')']

end Moment
end GridQuery

import GridQuery.Time.Moment
import GridQuery.Number.Double

/-! # Moments counted from the epoch

The count of seconds is a binary floating point number; its fraction is taken in microseconds. -/
namespace GridQuery.Time

/-- The number of the first of January 1970. -/
def epochDay : Int := 719163

/-- The moment in UTC a number of seconds and microseconds after the epoch. -/
def ofSeconds? (seconds : Int) (micro : Nat) : Option Moment := do
  let day := seconds / 86400
  let s := (seconds % 86400).toNat
  let date ← Date.ofNumber? (epochDay + day).toNat
  let clock ← Clock.of? (s / 3600) (s / 60 % 60) (s % 60) micro
  some ⟨date, clock, some Offset.utc⟩

/-- The nearest integer to a finite number, a tie going to the even one. -/
def nearestInt (negative : Bool) (m : Nat) (e : Int) : Int :=
  let q := Double.magnitude m e
  let n : Int := roundHalfEven q.1 q.2
  if negative then -n else n

/-- The moment a number of seconds after the epoch: its fraction, times a million, is rounded to a
floating point number and then to an integer. -/
def ofDouble? : Double → Option Moment
  | .finite negative m e _ =>
    let q := Double.magnitude m e
    let whole : Int := q.1 / q.2
    let whole := if negative then -whole else whole
    match Double.ofRatio negative (1000000 * (q.1 % q.2)) q.2 with
    | .finite _ m e _ =>
      let micro := nearestInt negative m e
      if micro ≥ 1000000 then ofSeconds? (whole + 1) (micro - 1000000).toNat
      else if micro < 0 then ofSeconds? (whole - 1) (micro + 1000000).toNat
      else ofSeconds? whole micro.toNat
    | _ => none
  | _ => none

/-- The moment a whole number of milliseconds after the epoch, by way of a floating point number of
seconds. -/
def ofMillis? (n : Int) : Option Moment :=
  ofDouble? (Double.ofRatio (decide (n < 0)) n.natAbs 1000)

/-- The moment a floating point number of milliseconds after the epoch. -/
def ofMillisDouble? (d : Double) : Option Moment := ofDouble? (d.divNat 1000)

end GridQuery.Time

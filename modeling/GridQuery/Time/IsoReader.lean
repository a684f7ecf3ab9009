import GridQuery.Time.Moment
import GridQuery.Number.Numeral

/-! # Reading ISO 8601 dates and times

Dates are calendar dates or week dates, with or without hyphens. What follows the date is one
character of any kind and then a time, whose pairs of digits may have colons between them. An offset
from UTC is written as a time behind a sign. A null character ends a time where it could have ended
without it: directly behind a fraction of six digits or more, or as the last character behind a pair. -/
namespace GridQuery.Time.IsoReader
open Text

/-- The number made of the next `n` ASCII digits, and what follows them. -/
def digits? (n : Nat) (s : List Char) : Option (Nat × List Char) :=
  let front := s.take n
  if front.length = n ∧ front.all Char.isDigit then
    some (Numeral.ofDigits (Numeral.asciiDigits front), s.drop n)
  else none

def isDigitAt (s : List Char) (i : Nat) : Bool := (s[i]?.map Char.isDigit).getD false

/-- The number of characters that belong to the date.

`YYYY-MM-DD` has ten and `YYYYMMDD` eight. A week date may lack the day, so that what follows decides:
behind `YYYY-Www-` two digits are a time and one is the day, and `YYYYWww` has a day if the
digits from there on, which a time has in pairs, are odd in number. -/
def dateLength? (s : List Char) : Option Nat :=
  if s.length < 7 then none
  else if s.length = 7 then some 7
  else if s[4]? = some '-' then
    if s[5]? = some 'W' then
      if s[8]? = some '-' then
        if s.length = 9 then none
        else if isDigitAt s 10 then some 8 else some 10
      else some 8
    else some 10
  else if s[4]? = some 'W' then
    let stop := 7 + ((s.drop 7).takeWhile Char.isDigit).length
    if stop < 9 then some stop else if stop % 2 = 0 then some 7 else some 8
  else some 8

/-- What follows a hyphen, where hyphens are used. -/
def hyphen? (used : Bool) : List Char → Option (List Char)
  | s => if used then (match s with
    | '-' :: r => some r
    | _ => none) else some s

/-- A calendar date or a week date that uses up all of its text. -/
def date? (s : List Char) : Option Date := do
  let (year, s) ← digits? 4 s
  let hyphens := s.head? == some '-'
  let s ← hyphen? hyphens s
  match s with
  | 'W' :: s =>
    let (week, s) ← digits? 2 s
    if s = [] then Date.ofWeek? year week 1
    else
      let s ← hyphen? hyphens s
      let (day, s) ← digits? 1 s
      if s = [] then Date.ofWeek? year week day else none
  | s =>
    let (month, s) ← digits? 2 s
    let s ← hyphen? hyphens s
    let (day, s) ← digits? 2 s
    if s = [] then Date.of? year month day else none

/-- Fields of a time as they are read; they may be out of range. -/
structure Fields where
  hour : Nat
  minute : Nat
  second : Nat
  micro : Nat
  /-- Whether characters are left that say nothing. -/
  surplus : Bool

/-- Whether a character that is left over makes a difference: a null character does not. -/
def isSurplus (c : Char) : Bool := c != '\x00'

/-- A fraction of a second: digits beyond the sixth are cut off, and a null character hides what is
behind it. -/
def fraction? (s : List Char) : Option (Nat × Bool) := do
  let n := min 6 s.length
  let (f, s) ← digits? n s
  some (f * Nat.pow 10 (6 - n), (s.dropWhile Char.isDigit).head?.any isSurplus)

/-- What a pair of digits is followed by. -/
inductive Follow
  /-- The end of the text, or one ASCII character before it. -/
  | finished (surplus : Bool)
  /-- Another pair. -/
  | pair (colons : Bool) (s : List Char)
  | fraction (s : List Char)
  | malformed

def follow (colons : Option Bool) (s : List Char) : Follow :=
  match s with
  | [] => .finished false
  | [c] => if c.toNat < 0x80 then .finished (isSurplus c) else .malformed
  | c :: r =>
    let colons := colons.getD (c == ':')
    if colons && c == ':' then .pair colons r
    else if c = '.' ∨ c = ',' then .fraction r
    else if !colons then .pair colons s
    else .malformed

/-- Up to three pairs of digits and a fraction. Behind the third pair a fraction needs no mark. -/
def fields? (s : List Char) : Option Fields := do
  let (hour, s) ← digits? 2 s
  match follow none s with
  | .finished surplus => some ⟨hour, 0, 0, 0, surplus⟩
  | .malformed => none
  | .fraction s => (fraction? s).map fun f => ⟨hour, 0, 0, f.1, f.2⟩
  | .pair colons s =>
    let (minute, s) ← digits? 2 s
    match follow (some colons) s with
    | .finished surplus => some ⟨hour, minute, 0, 0, surplus⟩
    | .malformed => none
    | .fraction s => (fraction? s).map fun f => ⟨hour, minute, 0, f.1, f.2⟩
    | .pair colons s =>
      let (second, s) ← digits? 2 s
      match follow (some colons) s with
      | .finished surplus => some ⟨hour, minute, second, 0, surplus⟩
      | .malformed => none
      | .fraction s => (fraction? s).map fun f => ⟨hour, minute, second, f.1, f.2⟩
      | .pair _ s => (fraction? s).map fun f => ⟨hour, minute, second, f.1, f.2⟩

/-- An offset without its sign. Its minutes and seconds may exceed 59 as long as the whole stays below a
day, and a fraction beside no whole second is dropped. -/
def offset? (negative : Bool) (s : List Char) : Option Offset := do
  let f ← fields? s
  if f.surplus then none
  else
    let seconds : Int := f.hour * 3600 + f.minute * 60 + f.second
    let micros := if seconds = 0 then 0 else seconds * 1000000 + f.micro
    Offset.of? (if negative then -micros else micros)

def isSign (c : Char) : Bool := c == '+' || c == '-'

/-- A time of day and an offset. -/
def time? (s : List Char) : Option (Clock × Option Offset) :=
  let clock := s.takeWhile (!isSign ·)
  match s.dropWhile (!isSign ·) with
  | [] => do
    let f ← fields? clock
    if f.surplus then none
    else (Clock.of? f.hour f.minute f.second f.micro).map (·, none)
  | sign :: zone => do
    let f ← fields? clock
    let o ← offset? (sign == '-') zone
    (Clock.of? f.hour f.minute f.second f.micro).map (·, some o)

/-- A date, or a date, any character and a time. -/
def moment? (s : List Char) : Option Moment := do
  let n ← dateLength? s
  let date ← date? (s.take n)
  match s.drop n with
  | [] => some ⟨date, Clock.midnight, none⟩
  | _ :: s => (time? s).map fun t => ⟨date, t.1, t.2⟩

end GridQuery.Time.IsoReader

import GridQuery.Number.Double
import GridQuery.Text.Blank
import GridQuery.Text.DecimalDigit

/-! # Reading numerals

Blanks around a numeral are ignored, digits of every script count, and one underscore may stand
between two digits. -/
namespace GridQuery.Numeral
open Text

/-- The greatest number of digits an integer may be written with. -/
def digitLimit : Nat := 4300

/-- The information separators are blank, but not around a numeral. -/
def isNumeralBlank (c : Char) : Bool := isBlank c && !(0x1C ≤ c.toNat && c.toNat ≤ 0x1F)

def ofDigits (ds : List Nat) : Nat := ds.foldl (fun n d => 10 * n + d) 0

/-- Digits, with at most one underscore between any two. -/
def groupedDigits? : List Char → Option (List Nat)
  | [] => none
  | [c] => (digitValue? c).map ([·])
  | c :: '_' :: r => do
    let d ← digitValue? c
    let ds ← groupedDigits? r
    some (d :: ds)
  | c :: r => do
    let d ← digitValue? c
    let ds ← groupedDigits? r
    some (d :: ds)

/-- A sign in front, if there is one: whether it is a minus, and what follows it. -/
def splitSign : List Char → Bool × List Char
  | '-' :: r => (true, r)
  | '+' :: r => (false, r)
  | s => (false, s)

def signed (negative : Bool) (n : Nat) : Int := if negative then -(n : Int) else n

/-- An integer of at most `digitLimit` digits. -/
def integer? (s : List Char) : Option Int := do
  let (negative, body) := splitSign (trimBy isNumeralBlank s)
  let ds ← groupedDigits? body
  if ds.length ≤ digitLimit then some (signed negative (ofDigits ds)) else none

/-- A digit of any script as an ASCII digit; other characters stay. -/
def plainDigit (c : Char) : Char :=
  match digitValue? c with
  | some d => digitChar d
  | none => c

/-- Whether each underscore stands between two ASCII digits; `before` says whether a digit precedes. -/
def underscoresBetween (before : Bool) : List Char → Bool
  | [] => true
  | '_' :: r =>
    before && (match r with
      | c :: _ => c.isDigit
      | [] => false) && underscoresBetween false r
  | c :: r => underscoresBetween c.isDigit r

def asciiDigits (s : List Char) : List Nat := s.filterMap asciiDigit?

/-- The power of ten behind an exponent mark; nothing at all is the power zero. -/
def exponent? : List Char → Option Int
  | [] => some 0
  | c :: r =>
    if c = 'e' ∨ c = 'E' then
      let (negative, body) := splitSign r
      if body ≠ [] ∧ body.all Char.isDigit then
        some (signed negative (ofDigits (asciiDigits body)))
      else none
    else none

/-- Digits, a point and digits, with at least one digit, and an exponent. -/
def decimal? (negative : Bool) (s : List Char) : Option Double :=
  let whole := s.takeWhile Char.isDigit
  let afterWhole := s.dropWhile Char.isDigit
  let (fraction, rest) := match afterWhole with
    | '.' :: r => (r.takeWhile Char.isDigit, r.dropWhile Char.isDigit)
    | r => ([], r)
  let ds := asciiDigits (whole ++ fraction)
  if ds = [] then none
  else (exponent? rest).map fun e =>
    Double.ofDecimal negative (ofDigits ds) ds.length (e - fraction.length)

def lower (s : List Char) : List Char := s.map Char.toLower

/-- A number with or without fraction and exponent, an infinity, or a NaN. -/
def double? (s : List Char) : Option Double :=
  let s := (trimBy isNumeralBlank s).map plainDigit
  if underscoresBetween false s then
    let (negative, body) := splitSign (s.filter (· ≠ '_'))
    if lower body = "inf".toList ∨ lower body = "infinity".toList then some (.infinite negative)
    else if lower body = "nan".toList then some .nan
    else decimal? negative body
  else none

end GridQuery.Numeral

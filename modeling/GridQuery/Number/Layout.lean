import GridQuery.Number.Shortest
import GridQuery.Text.DecimalDigit

/-! # Layout of numbers

How a sign, significant digits and a power of ten become text. -/
namespace GridQuery
open Text

/-- The decisions of a number format. -/
structure Layout where
  /-- Leading digits from this power of ten on are written in place. -/
  positionalFrom : Int
  /-- Leading digits of this power of ten or more are written with an exponent. -/
  positionalBelow : Int
  exponentMark : Char
  /-- The least number of digits of an exponent. -/
  exponentDigits : Nat
  infinity : List Char
  notANumber : List Char

namespace Layout

/-- Numbers are written in place from a ten-thousandth up to sixteen digits before the point. -/
def standard : Layout where
  positionalFrom := -4
  positionalBelow := 16
  exponentMark := 'e'
  exponentDigits := 2
  infinity := ['i', 'n', 'f']
  notANumber := ['n', 'a', 'n']

def signText (negative : Bool) : List Char := if negative then ['-'] else []

/-- A natural number with leading zeros up to the given width. -/
def padded (width n : Nat) : List Char :=
  let ds := decimalDigits n
  List.replicate (width - ds.length) '0' ++ ds

/-- The digits with a point behind the first `point` of them. -/
def positional (digits : List Char) (point : Int) : List Char :=
  if point ≤ 0 then
    '0' :: '.' :: (List.replicate (-point).toNat '0' ++ digits)
  else if (digits.length : Int) ≤ point then
    digits ++ List.replicate (point - digits.length).toNat '0' ++ ['.', '0']
  else
    digits.take point.toNat ++ '.' :: digits.drop point.toNat

def scientific (l : Layout) (digits : List Char) (exponent : Int) : List Char :=
  let fraction := match digits.drop 1 with
    | [] => []
    | r => '.' :: r
  let sign := if exponent < 0 then '-' else '+'
  digits.take 1 ++ fraction ++ l.exponentMark :: sign :: padded l.exponentDigits exponent.natAbs

def decimal (l : Layout) (d : Decimal) : List Char :=
  let digits := decimalDigits d.digits
  let point : Int := digits.length + d.exponent
  if d.digits = 0 then ['0', '.', '0']
  else if l.positionalFrom < point ∧ point ≤ l.positionalBelow then positional digits point
  else l.scientific digits (point - 1)

def text (l : Layout) : Double → List Char
  | .finite negative m e _ => signText negative ++ l.decimal (Double.shortest m e)
  | .infinite negative => signText negative ++ l.infinity
  | .nan => l.notANumber

end Layout

/-- The decimal text of an integer. -/
def integerText (n : Int) : List Char :=
  Layout.signText (decide (n < 0)) ++ decimalDigits n.natAbs

end GridQuery

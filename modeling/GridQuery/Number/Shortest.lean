import GridQuery.Number.Double

/-! # Shortest decimal digits

Of the decimals that read back as a given number, those with the fewest digits, and of those the
nearest; a tie goes to the even one. Only the two neighbours of the number on each decimal grid need
to be tried: a grid with a decimal that reads back has a neighbour that does. -/
namespace GridQuery

/-- The decimal `digits * 10 ^ exponent`. -/
structure Decimal where
  digits : Nat
  exponent : Int
  deriving DecidableEq, Repr

namespace Decimal

/-- The number of decimal digits of a natural number; zero has one. -/
def width (n : Nat) : Nat := (Nat.toDigits 10 n).length

def toDouble (d : Decimal) (negative : Bool) : Double :=
  Double.ofDecimal negative d.digits (width d.digits) d.exponent

/-- Without zeros at the end of its digits. -/
def reduce (d : Decimal) : Decimal :=
  if h : d.digits ≠ 0 ∧ d.digits % 10 = 0 then reduce ⟨d.digits / 10, d.exponent + 1⟩ else d
termination_by d.digits
decreasing_by
  obtain ⟨h0, h1⟩ := h
  omega

end Decimal

/-- Numerator and denominator of `num / (den * 10 ^ e)`. -/
def scaleDownTen (num den : Nat) : Int → Nat × Nat
  | .ofNat k => (num, den * Nat.pow 10 k)
  | .negSucc k => (num * Nat.pow 10 (k + 1), den)

/-- The exponent `k` with `10 ^ (k - 1) ≤ num / den < 10 ^ k`. -/
def leadingPlace (num den : Nat) : Int :=
  let k : Int := (Decimal.width num : Int) - Decimal.width den
  let s := scaleDownTen num den k
  if s.1 < s.2 then k else k + 1

namespace Double

/-- Whether the number is `m * 2 ^ e`. -/
def isSize (m : Nat) (e : Int) : Double → Bool
  | .finite negative m' e' _ => !negative && m' == m && e' == e
  | _ => false

/-- The neighbour of a number on the grid of the multiples of `10 ^ place` that reads back as it. -/
def onGrid? (m : Nat) (e place : Int) : Option Decimal :=
  let q := magnitude m e
  let s := scaleDownTen q.1 q.2 place
  let low := s.1 / s.2
  let reads := fun c => isSize m e (Decimal.toDouble ⟨c, place⟩ false)
  let rest := 2 * (s.1 % s.2)
  match reads low, reads (low + 1) with
  | true, true =>
    if rest < s.2 ∨ rest = s.2 ∧ low % 2 = 0 then some ⟨low, place⟩ else some ⟨low + 1, place⟩
  | true, false => some ⟨low, place⟩
  | false, true => some ⟨low + 1, place⟩
  | false, false => none

/-- The shortest decimal of `m * 2 ^ e`. Seventeen digits always suffice. -/
def shortest (m : Nat) (e : Int) : Decimal :=
  if m = 0 then ⟨0, 0⟩
  else
    let q := magnitude m e
    let top := leadingPlace q.1 q.2
    let found := (List.range 17).findSome? fun (n : Nat) => onGrid? m e (top - 1 - n)
    (found.getD ⟨0, 0⟩).reduce

end Double
end GridQuery

/-! # Binary floating point numbers, held exactly

A finite number is a sign, a mantissa below `2 ^ 53` and a power of two; the mantissa is at least
`2 ^ 52` unless the power is the least one, so each number has one form. Every operation rounds the
exact rational result once, to the nearest number, a tie to the even mantissa. -/
namespace GridQuery

/-- The integer nearest to `num / den`; a tie goes to the even neighbour. -/
def roundHalfEven (num den : Nat) : Nat :=
  let q := num / den
  let r := num % den
  if 2 * r < den then q else if den < 2 * r then q + 1 else q + q % 2

@[simp] theorem roundHalfEven_one (n : Nat) : roundHalfEven n 1 = n := by
  simp [roundHalfEven, Nat.mod_one]

/-- Numerator and denominator of `num / (den * 2 ^ e)`. -/
def scaleDown (num den : Nat) : Int → Nat × Nat
  | .ofNat k => (num, den * Nat.pow 2 k)
  | .negSucc k => (num * Nat.pow 2 (k + 1), den)

/-- The exponent `k` with `2 ^ k ≤ num / den < 2 ^ (k + 1)`. -/
def floorLog2 (num den : Nat) : Int :=
  let k : Int := (num.log2 : Int) - den.log2
  let s := scaleDown num den k
  if s.2 ≤ s.1 then k else k - 1

namespace Double

/-- Mantissas lie below `2 ^ 53`. -/
def mantissaBound : Nat := 9007199254740992

def leastExponent : Int := -1074
def greatestExponent : Int := 971

/-- The one form that a finite number has. -/
structure HasForm (mantissa : Nat) (exponent : Int) : Prop where
  short : mantissa < mantissaBound
  least : leastExponent ≤ exponent
  greatest : exponent ≤ greatestExponent
  normal : mantissaBound / 2 ≤ mantissa ∨ exponent = leastExponent

theorem hasForm_iff {m : Nat} {e : Int} : HasForm m e ↔ m < mantissaBound ∧ leastExponent ≤ e ∧
    e ≤ greatestExponent ∧ (mantissaBound / 2 ≤ m ∨ e = leastExponent) :=
  ⟨fun h => ⟨h.short, h.least, h.greatest, h.normal⟩, fun h => ⟨h.1, h.2.1, h.2.2.1, h.2.2.2⟩⟩

instance (m : Nat) (e : Int) : Decidable (HasForm m e) := decidable_of_iff' _ hasForm_iff

end Double

inductive Double
  | finite (negative : Bool) (mantissa : Nat) (exponent : Int) (form : Double.HasForm mantissa exponent)
  | infinite (negative : Bool)
  | nan
  deriving DecidableEq, Repr

namespace Double

def zero (negative : Bool) : Double := .finite negative 0 leastExponent (by decide)

/-- The exponent of the last place of the numbers around `num / den`. -/
def lastPlace (num den : Nat) : Int := max leastExponent (floorLog2 num den - 52)

/-- A mantissa that rounding carried to the bound is halved. What has no form then lies beyond the greatest
exponent, and is infinite. -/
def settle (negative : Bool) (m : Nat) (e : Int) : Double :=
  let m' := if m = mantissaBound then mantissaBound / 2 else m
  let e' := if m = mantissaBound then e + 1 else e
  if h : HasForm m' e' then .finite negative m' e' h else .infinite negative

/-- The number nearest to `num / den`, with the given sign. -/
def ofRatio (negative : Bool) (num den : Nat) : Double :=
  if num = 0 then zero negative
  else
    let e := lastPlace num den
    let s := scaleDown num den e
    settle negative (roundHalfEven s.1 s.2) e

/-- The number nearest to an integer. -/
def ofInt (n : Int) : Double := ofRatio (decide (n < 0)) n.natAbs 1

/-- Powers of ten beyond which every decimal with a significant digit in front is infinite, or zero. -/
def decimalReach : Int := 400

/-- The number nearest to `digits * 10 ^ exponent`, where `digits` has at most `width` digits. -/
def ofDecimal (negative : Bool) (digits width : Nat) (exponent : Int) : Double :=
  if digits = 0 then zero negative
  else if decimalReach + width < exponent then .infinite negative
  else if exponent < -(decimalReach + width) then zero negative
  else match exponent with
    | .ofNat k => ofRatio negative (digits * Nat.pow 10 k) 1
    | .negSucc k => ofRatio negative digits (Nat.pow 10 (k + 1))

def isFinite : Double → Bool
  | .finite .. => true
  | _ => false

def isZero : Double → Bool
  | .finite _ m _ _ => m == 0
  | _ => false

def isNegative : Double → Bool
  | .finite n _ _ _ => n
  | .infinite n => n
  | .nan => false

/-- Numerator and denominator of the magnitude `m * 2 ^ e`. -/
def magnitude (m : Nat) : Int → Nat × Nat
  | .ofNat k => (m * Nat.pow 2 k, 1)
  | .negSucc k => (m, Nat.pow 2 (k + 1))

/-- The exact value of a finite number. -/
def toRat? : Double → Option Rat
  | .finite negative m e _ =>
    let q := magnitude m e
    let r := mkRat q.1 q.2
    some (if negative then -r else r)
  | _ => none

def mul : Double → Double → Double
  | .nan, _ | _, .nan => .nan
  | .infinite a, y => if y.isZero then .nan else .infinite (a ^^ y.isNegative)
  | x, .infinite b => if x.isZero then .nan else .infinite (x.isNegative ^^ b)
  | .finite a m e _, .finite b n f _ =>
    let q := magnitude (m * n) (e + f)
    ofRatio (a ^^ b) q.1 q.2

/-- The quotient by a positive integer. -/
def divNat (x : Double) (k : Nat) : Double :=
  match x with
  | .finite negative m e _ =>
    let q := magnitude m e
    ofRatio negative q.1 (q.2 * k)
  | other => other

/-- The order of the extended reals; a NaN is neither below nor above anything. -/
def lt : Double → Double → Bool
  | .nan, _ | _, .nan => false
  | .infinite a, .infinite b => a && !b
  | .infinite a, .finite .. => a
  | .finite .., .infinite b => !b
  | x@(.finite ..), y@(.finite ..) =>
    match x.toRat?, y.toRat? with
    | some p, some q => decide (p < q)
    | _, _ => false

/-- Numeric equality: both zeros are equal, and a NaN equals nothing. -/
def numEq : Double → Double → Bool
  | .infinite a, .infinite b => a == b
  | x@(.finite ..), y@(.finite ..) => x.toRat? == y.toRat?
  | _, _ => false

end Double
end GridQuery

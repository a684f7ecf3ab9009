import GridQuery.Value.Basic
import GridQuery.Number.Double

/-! # Amounts

What a page size may be: a truth value, which counts as zero or one, an integer or a floating point
number. Amounts of different kinds are compared by their exact values. -/
namespace GridQuery

inductive Amount
  | flag (b : Bool)
  | int (n : Int)
  | double (d : Double)
  deriving DecidableEq

namespace Amount

def ofValue? : Value → Option Amount
  | .bool b => some (flag b)
  | .int n => some (int n)
  | .double d => some (double d)
  | _ => none

def toValue : Amount → Value
  | flag b => .bool b
  | int n => .int n
  | double d => .double d

/-- A truth value as an integer. -/
def ofBool (b : Bool) : Int := if b then 1 else 0

def intLtDouble (n : Int) (d : Double) : Bool :=
  match d with
  | .infinite negative => !negative
  | d => match d.toRat? with
    | some r => decide ((n : Rat) < r)
    | none => false

def doubleLtInt (d : Double) (n : Int) : Bool :=
  match d with
  | .infinite negative => negative
  | d => match d.toRat? with
    | some r => decide (r < (n : Rat))
    | none => false

def ltInt (n : Int) : Amount → Bool
  | flag b => decide (n < ofBool b)
  | int m => decide (n < m)
  | double d => intLtDouble n d

/-- Whether one amount is less than another; a NaN is neither less nor greater than anything. -/
def lt : Amount → Amount → Bool
  | flag b, y => ltInt (ofBool b) y
  | int n, y => ltInt n y
  | double d, flag b => doubleLtInt d (ofBool b)
  | double d, int n => doubleLtInt d n
  | double d, double e => d.lt e

/-- An integer times an amount. -/
def times (n : Int) : Amount → Amount
  | flag b => int (n * ofBool b)
  | int m => int (n * m)
  | double d => double ((Double.ofInt n).mul d)

/-- The smaller of two amounts; the first unless the second is less. -/
def min (x y : Amount) : Amount := if lt y x then y else x

@[simp] theorem lt_int_int (n m : Int) : lt (int n) (int m) = decide (n < m) := rfl

@[simp] theorem times_int (n m : Int) : times n (int m) = int (n * m) := rfl

theorem min_int_int (n m : Int) : min (int n) (int m) = int (Min.min m n) := by
  simp only [min, lt_int_int, decide_eq_true_eq]
  split <;> congr 1 <;> omega

end Amount
end GridQuery

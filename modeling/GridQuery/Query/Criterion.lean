import GridQuery.Query.Operator
import GridQuery.Reply
import GridQuery.Text.Literal
import GridQuery.Text.Blank

/-! # Criteria: operators with the operand that was read for them

A raw value is read the way its operator wants it, once, before anything is sent. What comes out is a
criterion, and a criterion always has a condition. -/
namespace GridQuery
open Text

/-- A number a document can hold. -/
inductive Number
  | int (n : Int)
  | double (d : Double)
  deriving DecidableEq

namespace Number

/-- The least and the greatest integer of 64 bits. -/
def least : Int := -9223372036854775808
def greatest : Int := 9223372036854775807

/-- An integer of 64 bits is kept; a longer one becomes the nearest floating point number, if that is
finite. -/
def ofInt? (n : Int) : Option Number :=
  if least ≤ n ∧ n ≤ greatest then some (int n)
  else
    let d := Double.ofInt n
    if d.isFinite then some (double d) else none

def ofDouble? (d : Double) : Option Number := if d.isFinite then some (double d) else none

/-- A numeral: an integer where it can be read as one. -/
def ofText? (s : List Char) : Option Number :=
  match Numeral.integer? s with
  | some n => ofInt? n
  | none => (Numeral.double? s).bind ofDouble?

/-- The number a value stands for. Truth values stand for none. -/
def ofValue? : Value → Option Number
  | .bool _ | .null => none
  | .int n => ofInt? n
  | .double d => ofDouble? d
  | v => ofText? (trim v.plainText)

def toValue : Number → Value
  | int n => .int n
  | double d => .double d

end Number

/-- The text of a value; a missing one is empty. -/
def operandText [Stack] : Value → Except Error (List Char)
  | .null => .ok []
  | v =>
    match v.obstacle? Stack.textRoom with
    | some o => .error (Error.ofObstacle o)
    | none => .ok v.plainText

inductive Criterion
  | compare (c : Comparison) (operand : Number)
  /-- The text is held as the pattern that matches it literally. -/
  | pattern (t : TextTest) (literal : String)
  | equals (s : String)
  | notEquals (s : String)
  | isEmpty
  | isNotEmpty
  | is (b : Bool)
  deriving DecidableEq

/-- What a criterion asks of a field. -/
inductive Condition
  | compare (c : Comparison) (operand : Value)
  | pattern (p : String)
  | noPattern (p : String)

namespace Criterion

def operator : Criterion → Operator
  | compare c _ => .compare c
  | pattern t _ => .pattern t
  | equals _ => .equals
  | notEquals _ => .notEquals
  | isEmpty => .isEmpty
  | isNotEmpty => .isNotEmpty
  | is _ => .is

/-- The operand as it was read; null where the operator ignores it. -/
def operand : Criterion → Value
  | compare _ x => x.toValue
  | pattern _ p => .text p
  | equals s | notEquals s => .text s
  | isEmpty | isNotEmpty => .null
  | is b => .bool b

/-- Only the truth value itself and its lower-case name are true. -/
def isTrue : Value → Bool
  | .bool b => b
  | .text s => s == "true"
  | _ => false

variable [Stack]

/-- The error for a value that is no number. Its text was looked at first, where a stack that is used up
is a fault of its own. -/
def noNumber (field operator : String) (v : Value) : Error :=
  if v.obstacle? Stack.textRoom = some .deep then Error.tooDeep
  else Error.ofValue field operator v .numeric

/-- Reads the operand of an operator. -/
def read (o : Operator) (field : String) (v : Value) : Except Error Criterion :=
  match o with
  | .compare c =>
    match Number.ofValue? v with
    | some x => .ok (compare c x)
    | none => .error (noNumber field o.token v)
  | .pattern t => (operandText v).map fun s => pattern t (String.ofList (escape s))
  | .equals => (operandText v).map fun s => equals (String.ofList s)
  | .notEquals => (operandText v).map fun s => notEquals (String.ofList s)
  | .isEmpty => .ok isEmpty
  | .isNotEmpty => .ok isNotEmpty
  | .is => .ok (is (isTrue v))

theorem operator_of_read {o : Operator} {field : String} {v : Value} {c : Criterion}
    (h : read o field v = .ok c) : c.operator = o := by
  cases o with
  | compare c =>
    simp only [read] at h
    split at h <;> cases h
    rfl
  | pattern t =>
    obtain ⟨s, -, rfl⟩ := map_eq_ok_iff.mp h
    rfl
  | equals | notEquals =>
    obtain ⟨s, -, rfl⟩ := map_eq_ok_iff.mp h
    rfl
  | isEmpty | isNotEmpty | is =>
    cases h
    rfl

/-- The pattern around a literal: anything may stand where the test leaves room. -/
def wrapped : TextTest → String → String
  | .contains, p => ".*" ++ p ++ ".*"
  | .notContains, p => ".*" ++ p ++ ".*"
  | .startsWith, p => "^" ++ p ++ ".*"
  | .endsWith, p => ".*" ++ p ++ "$"

def condition : Criterion → Condition
  | compare c x => .compare c x.toValue
  | pattern .notContains p => .noPattern (wrapped .notContains p)
  | pattern t p => .pattern (wrapped t p)
  | equals s => .compare .eq (.text s)
  | notEquals s => .compare .ne (.text s)
  | isEmpty => .compare .eq (.text "")
  | isNotEmpty => .compare .ne (.text "")
  | is b => .compare .eq (.bool b)

end Criterion

/-- The name of a comparison in conditions. -/
def Comparison.name : Comparison → String
  | eq => "$eq"
  | ne => "$ne"
  | gt => "$gt"
  | lt => "$lt"
  | gte => "$gte"
  | lte => "$lte"

def Condition.toValue : Condition → Value
  | compare c x => .single c.name x
  | pattern p => .single "$regex" (.text p)
  | noPattern p => .single "$not" (.single "$regex" (.text p))

/-- A field with what is asked of it. -/
def fragment (field : String) (c : Criterion) : Value := .single field c.condition.toValue

variable [Stack]

/-- The operator a value names. -/
def lookupOperator (operator : Value) (field : String) : Except Error Operator :=
  match operator with
  | .text s =>
    match Operator.ofToken? s with
    | some o => .ok o
    | none => .error (Error.ofOperator operator field)
  | _ => .error (Error.ofOperator operator field)

/-- The condition on one field, from the name of an operator and a raw value. -/
def compileFragment (field : String) (operator value : Value) : Except Error Value := do
  let o ← lookupOperator operator field
  let c ← Criterion.read o field value
  return fragment field c

end GridQuery

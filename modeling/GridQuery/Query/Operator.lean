/-! # Filter operators -/
namespace GridQuery

/-- An order relation between numbers. -/
inductive Comparison
  | eq | ne | gt | lt | gte | lte
  deriving DecidableEq, Repr

/-- Where a text has to stand within another. -/
inductive TextTest
  | contains | notContains | startsWith | endsWith
  deriving DecidableEq, Repr

inductive Operator
  | compare (c : Comparison)
  | pattern (t : TextTest)
  | equals
  | notEquals
  | isEmpty
  | isNotEmpty
  | is
  deriving DecidableEq, Repr

namespace Operator

def all : List Operator := [
  compare .eq, compare .ne, compare .gt, compare .lt, compare .gte, compare .lte,
  pattern .contains, pattern .notContains, pattern .startsWith, pattern .endsWith,
  equals, notEquals, isEmpty, isNotEmpty, is]

/-- The spelling of an operator. -/
def token : Operator → String
  | compare .eq => "="
  | compare .ne => "!="
  | compare .gt => ">"
  | compare .lt => "<"
  | compare .gte => ">="
  | compare .lte => "<="
  | pattern .contains => "contains"
  | pattern .notContains => "not contains"
  | pattern .startsWith => "startswith"
  | pattern .endsWith => "endswith"
  | equals => "equals"
  | notEquals => "not equals"
  | isEmpty => "is empty"
  | isNotEmpty => "is not empty"
  | is => "is"

def ofToken? (s : String) : Option Operator := all.find? (·.token == s)

theorem mem_all (o : Operator) : o ∈ all := by
  cases o with
  | compare c => cases c <;> decide
  | pattern t => cases t <;> decide
  | _ => decide

theorem ofToken?_token (o : Operator) : ofToken? o.token = some o := by
  cases o with
  | compare c => cases c <;> decide
  | pattern t => cases t <;> decide
  | _ => decide

theorem token_of_ofToken? {s : String} {o : Operator} (h : ofToken? s = some o) : o.token = s := by
  simpa using List.find?_some h

theorem ofToken?_eq_some_iff {s : String} {o : Operator} : ofToken? s = some o ↔ s = o.token :=
  ⟨fun h => (token_of_ofToken? h).symm, fun h => h ▸ ofToken?_token o⟩

end Operator
end GridQuery

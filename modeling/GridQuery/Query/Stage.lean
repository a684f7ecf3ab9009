import GridQuery.Query.Amount

/-! # Pipeline stages -/
namespace GridQuery

inductive Direction
  | ascending
  | descending
  deriving DecidableEq, Repr

def Direction.toInt : Direction → Int
  | ascending => 1
  | descending => -1

/-- Fields with the direction each is sorted in, the most significant first. -/
abbrev SortSpec := Table Direction

def SortSpec.toDocument (s : SortSpec) : Document := s.map fun e => (e.1, .int e.2.toInt)

/-- The names of the two branches that a pipeline ends with. -/
def dataBranch : String := "data"
def countBranch : String := "count"

inductive Stage
  /-- Full-text search over all fields, with the name of an index unless the default one is meant. -/
  | search (text : Option String) (index : Value)
  /-- All of the conditions hold. -/
  | filter (conditions : List Value)
  | sort (spec : SortSpec)
  /-- One page of the documents in one branch, their number in the other. -/
  | facet (skip limit : Amount) (countField : Value)

namespace Stage

def searchStatement (text : Option String) (index : Value) : Value :=
  let query := match text with
    | some s => .text s
    | none => .null
  let body : Document := [("text", .document [("query", query), ("path", .single "wildcard" (.text "*"))])]
  .document (if index.truthy then body ++ [("index", index)] else body)

def filterStatement (conditions : List Value) : Value := .single "$and" (.array conditions)

def pageStatements (skip limit : Amount) : List Value :=
  [.single "$skip" skip.toValue, .single "$limit" limit.toValue]

def countStatements (countField : Value) : List Value := [.single "$count" countField]

def toValue : Stage → Value
  | search text index => .single "$search" (searchStatement text index)
  | filter conditions => .single "$match" (filterStatement conditions)
  | sort spec => .single "$sort" (.document spec.toDocument)
  | facet skip limit countField => .single "$facet" (.document [
      (dataBranch, .array (pageStatements skip limit)),
      (countBranch, .array (countStatements countField))])

end Stage
end GridQuery

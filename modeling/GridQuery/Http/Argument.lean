import GridQuery.Http.Percent
import GridQuery.Text.Blank
import GridQuery.Value.Basic

/-! # Arguments of a query string -/
namespace GridQuery.Http
open Text

/-- The text with spaces for plus signs. -/
def plusToSpace (s : List Char) : List Char := s.map fun c => if c = '+' then ' ' else c

/-- A piece of a query string: what stands before the first equals sign and what stands behind it. -/
def splitArgument (s : List Char) : List Char × List Char :=
  (s.takeWhile (· ≠ '='), (s.dropWhile (· ≠ '=')).drop 1)

/-- Names and values of a query string, in order. -/
def arguments (query : List Char) : List (String × String) :=
  ((splitAt '&' query).filter (· ≠ [])).map fun piece =>
    let (name, value) := splitArgument piece
    (String.ofList (decodeArgument (plusToSpace name)), String.ofList (decodeArgument (plusToSpace value)))

/-- The arguments that a query object is made of. -/
def queryNames : List String := ["search", "sort", "page", "pageSize"]

/-- The query object of a query string. Of a name that is given more than once the first value counts. -/
def queryObject (query : List Char) : Document :=
  let args := arguments query
  queryNames.filterMap fun name => (Table.get? args name).map fun v => (name, .text v)

end GridQuery.Http

import GridQuery.Error
import GridQuery.Time.IsoReader
import GridQuery.Time.Epoch
import GridQuery.Text.Blank

/-! # Date fields

A document in JSON cannot hold dates. The fields that a schema declares as dates are read from ISO
texts or from milliseconds since the epoch. -/
namespace GridQuery

namespace DateField

/-- Whether a declared type is the type of dates, or a list that has it. -/
def isDateType : Value → Bool
  | .text s => s == "date"
  | .array items | .tuple items => items.any (·.isText "date")
  | _ => false

/-- Whether a property is declared as a date. An empty declaration says nothing. -/
def declaresDate (property : Value) : Except Error Bool :=
  if property.truthy then
    match property with
    | .document d => .ok (isDateType (Value.entry d "bsonType"))
    | _ => .error .shape
  else .ok false

/-- The names of the properties that are declared as dates. -/
def namesIn : Document → Except Error (List String)
  | [] => .ok []
  | (name, property) :: r => do
    let isDate ← declaresDate property
    let names ← namesIn r
    return if isDate then name :: names else names

def names : Value → Except Error (List String)
  | .document properties => namesIn properties
  | _ => .error .shape

/-- Each `Z` as the offset that it stands for. -/
def expandZulu (s : List Char) : List Char :=
  s.flatMap fun c => if c = 'Z' then ['+', '0', '0', ':', '0', '0'] else [c]

/-- The moment a text gives, in UTC unless it has an offset. -/
def ofText? (s : List Char) : Option Moment :=
  (Time.IsoReader.moment? (expandZulu (Text.trim s))).map Moment.orUtc

def moment? : Value → Option Moment
  | .date m => some m
  | .int n => Time.ofMillis? n
  | .double d => Time.ofMillisDouble? d
  | .text s => ofText? s.toList
  | _ => none

variable [Stack]

/-- Reads the value of a date field. Null is no date and stays. -/
def read (field : String) : Value → Except Error Value
  | .null => .ok .null
  | v =>
    match moment? v with
    | some m => .ok (.date m)
    | none => .error (Error.ofValue field "date" v .date)

/-- Reads the named fields of a document; all others stay as they are. -/
def readFields (dates : List String) : Document → Except Error Document
  | [] => .ok []
  | (name, v) :: r => do
    let v ← if dates.contains name then read name v else .ok v
    let r ← readFields dates r
    return (name, v) :: r

/-- Reads the date fields that properties declare. -/
def coerce (properties : Value) (document : Document) : Except Error Document := do
  let dates ← names properties
  readFields dates document

end DateField
end GridQuery

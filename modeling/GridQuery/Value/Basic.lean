import GridQuery.Table
import GridQuery.ObjectId
import GridQuery.Time.Moment
import GridQuery.Number.Double

/-! # Document values

What a document, a query object or a setting may hold. -/
namespace GridQuery

inductive Value
  | null
  | bool (b : Bool)
  | int (n : Int)
  | double (d : Double)
  | text (s : String)
  | array (items : List Value)
  | tuple (items : List Value)
  | document (fields : List (String × Value))
  | date (m : Moment)
  | objectId (o : ObjectId)
  | bytes (data : List UInt8)

abbrev Document := Table Value

namespace Value

instance : Inhabited Value := ⟨.null⟩

/-- The name of a value's type, as messages give it. -/
def kind : Value → String
  | null => "NoneType"
  | bool _ => "bool"
  | int _ => "int"
  | double _ => "float"
  | text _ => "str"
  | array _ => "list"
  | tuple _ => "tuple"
  | document _ => "dict"
  | date _ => "datetime"
  | objectId _ => "ObjectId"
  | bytes _ => "bytes"

/-- Whether a value counts as present: zero, and everything empty, does not. -/
def truthy : Value → Bool
  | null => false
  | bool b => b
  | int n => n != 0
  | double d => !d.isZero
  | text s => !s.isEmpty
  | array items => !items.isEmpty
  | tuple items => !items.isEmpty
  | document fields => !fields.isEmpty
  | date _ => true
  | objectId _ => true
  | bytes data => !data.isEmpty

def isNull : Value → Bool
  | null => true
  | _ => false

/-- The entry of a document; a missing one is null. -/
def entry (fields : Document) (key : String) : Value := (Table.get? fields key).getD null

theorem entry_congr {fields fields' : Document} {key : String}
    (h : Table.get? fields' key = Table.get? fields key) : entry fields' key = entry fields key := by
  rw [entry, h, entry]

/-- The items of an array or a tuple. -/
def items? : Value → Option (List Value)
  | array items => some items
  | tuple items => some items
  | _ => none

def fields? : Value → Option Document
  | document fields => some fields
  | _ => none

/-- A value with one field. -/
def single (key : String) (v : Value) : Value := document [(key, v)]

def isText (s : String) : Value → Bool
  | text t => t == s
  | _ => false

end Value
end GridQuery

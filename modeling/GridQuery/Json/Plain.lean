import GridQuery.Value.Display

/-! # Values that JSON can hold

A response shows moments and identifiers as texts and tuples as arrays. Bytes cannot be shown, and
neither can an integer beyond the digit limit. -/
namespace GridQuery.Json

mutual

/-- A value as a reader of the response sees it. -/
def plain? : Value → Option Value
  | .int n => if Value.isWritable n then some (.int n) else none
  | .array items => (plainItems? items).map .array
  | .tuple items => (plainItems? items).map .array
  | .document fields => (plainFields? fields).map .document
  | .date m => some (.text (String.ofList (m.isoText 'T')))
  | .objectId o => some (.text (String.ofList o.text))
  | .bytes _ => none
  | v => some v

def plainItems? : List Value → Option (List Value)
  | [] => some []
  | v :: r => do
    let v ← plain? v
    let r ← plainItems? r
    some (v :: r)

def plainFields? : List (String × Value) → Option (List (String × Value))
  | [] => some []
  | (k, v) :: r => do
    let v ← plain? v
    let r ← plainFields? r
    some ((k, v) :: r)

end

end GridQuery.Json

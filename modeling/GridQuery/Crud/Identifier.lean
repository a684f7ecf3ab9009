import GridQuery.Value.Basic
import GridQuery.Number.Numeral

/-! # Identifiers of documents -/
namespace GridQuery

/-- The identifier a text stands for: an integer if it is a numeral, an object identifier if it
holds one, or else the text itself. Values that are not texts are identifiers already. -/
def Value.asIdentifier [Library] : Value → Value
  | .text s =>
    match Numeral.integer? s.toList with
    | some n => .int n
    | none => match ObjectId.ofText? s.toList with
      | some o => .objectId o
      | none => .text s
  | v => v

end GridQuery

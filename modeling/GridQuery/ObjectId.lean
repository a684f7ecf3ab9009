import GridQuery.Text.DecimalDigit

/-! # Object identifiers

Twelve bytes, held as their hexadecimal digits. They are written in lower case and read in either. Where blanks
may stand between the bytes, a text of twenty-four characters with some of them gives an identifier of fewer
bytes. -/
namespace GridQuery

/-- The library of the store, which says which texts are object identifiers. -/
class Library where
  /-- Whether blanks may stand between the bytes of an identifier. Releases of the library differ. -/
  blanksInIdentifiers : Bool

instance Library.standard : Library where
  blanksInIdentifiers := false

structure ObjectId where
  digits : List (Fin 16)
  length_le : digits.length ≤ 24
  deriving DecidableEq

namespace ObjectId

def hexDigit (d : Fin 16) : Char := Nat.digitChar d.val

/-- The value of a hexadecimal digit of either case. -/
def hexValue? (c : Char) : Option (Fin 16) :=
  (List.finRange 16).find? fun d => hexDigit d == c.toLower

def text (o : ObjectId) : List Char := o.digits.map hexDigit

/-- The values of a text of hexadecimal digits. -/
def hexValues? : List Char → Option (List (Fin 16))
  | [] => some []
  | c :: r => do
    let d ← hexValue? c
    let ds ← hexValues? r
    some (d :: ds)

def isBlank (c : Char) : Bool := c == ' ' || '\t' ≤ c && c ≤ '\r'

/-- The values of a text of hexadecimal digits in pairs, with blanks around the pairs. -/
def hexPairs? : List Char → Option (List (Fin 16))
  | [] => some []
  | c :: r =>
    if isBlank c then hexPairs? r
    else match r with
      | [] => none
      | d :: r => do
        let high ← hexValue? c
        let low ← hexValue? d
        let ds ← hexPairs? r
        some (high :: low :: ds)

def values? [Library] (s : List Char) : Option (List (Fin 16)) :=
  if Library.blanksInIdentifiers then hexPairs? s else hexValues? s

def ofText? [Library] (s : List Char) : Option ObjectId :=
  (values? s).bind fun ds => if h : s.length = 24 ∧ ds.length ≤ 24 then some ⟨ds, h.2⟩ else none

end ObjectId
end GridQuery

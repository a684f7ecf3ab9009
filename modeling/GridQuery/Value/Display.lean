import GridQuery.Stack
import GridQuery.Value.Basic
import GridQuery.Number.Layout
import GridQuery.Number.Numeral
import GridQuery.Text.Quoted

/-! # Values as text

`display` writes a value the way messages quote it, `plainText` the way it stands inside a text. Neither
exists when an integer in the value has more digits than a numeral may have, or when the value is nested
deeper than there is room for. -/
namespace GridQuery
open Text

namespace Value

def nullWord : List Char := ['N', 'o', 'n', 'e']
def boolWord (b : Bool) : List Char := if b then ['T', 'r', 'u', 'e'] else ['F', 'a', 'l', 's', 'e']

mutual

/-- The quoted form: texts between quotes, arrays in brackets, documents in braces. -/
def display : Value → List Char
  | null => nullWord
  | bool b => boolWord b
  | int n => integerText n
  | double d => Layout.standard.text d
  | text s => quoted s.toList
  | array items => '[' :: displayItems items ++ [']']
  | tuple items => '(' :: displayItems items ++ (if items.length = 1 then [',', ')'] else [')'])
  | document fields => '{' :: displayFields fields ++ ['}']
  | date m => m.longForm
  | objectId o => "ObjectId(".toList ++ quoted o.text ++ [')']
  | bytes data => quotedBytes data

def displayItems : List Value → List Char
  | [] => []
  | [v] => v.display
  | v :: w :: r => v.display ++ ',' :: ' ' :: displayItems (w :: r)

def displayFields : List (String × Value) → List Char
  | [] => []
  | [(k, v)] => quoted k.toList ++ ':' :: ' ' :: v.display
  | (k, v) :: e :: r =>
    quoted k.toList ++ ':' :: ' ' :: v.display ++ ',' :: ' ' :: displayFields (e :: r)

end

/-- Whether an integer can be written within the digit limit. -/
def isWritable (n : Int) : Bool := decide (n.natAbs < Nat.pow 10 Numeral.digitLimit)

mutual

/-- Whether every integer in a value can be written. -/
def writable : Value → Bool
  | int n => isWritable n
  | array items => allWritable items
  | tuple items => allWritable items
  | document fields => fieldsWritable fields
  | _ => true

def allWritable : List Value → Bool
  | [] => true
  | v :: r => v.writable && allWritable r

def fieldsWritable : List (String × Value) → Bool
  | [] => true
  | (_, v) :: r => v.writable && fieldsWritable r

end

/-- What a value cannot be written for. -/
inductive Obstacle
  /-- An integer with too many digits. -/
  | overlong
  /-- More levels than there is room for. -/
  | deep
  deriving DecidableEq

mutual

/-- The first obstacle that is met where a value is written from its front to its end. -/
def obstacle? : Value → Room → Option Obstacle
  | int n, _ => if isWritable n then none else some .overlong
  | array items, room => itemsObstacle? items room
  | tuple items, room => itemsObstacle? items room
  | document fields, room => fieldsObstacle? fields room
  | _, _ => none

/-- The items stand one level further in than what they are the items of. -/
def itemsObstacle? : List Value → Room → Option Obstacle
  | [], _ => none
  | v :: r, room =>
    match room.inner? with
    | none => some .deep
    | some inner => (v.obstacle? inner).or (itemsObstacle? r room)

def fieldsObstacle? : List (String × Value) → Room → Option Obstacle
  | [], _ => none
  | (_, v) :: r, room =>
    match room.inner? with
    | none => some .deep
    | some inner => (v.obstacle? inner).or (fieldsObstacle? r room)

end

def display? [Stack] (v : Value) : Option (List Char) :=
  if v.obstacle? Stack.messageRoom = none then some v.display else none

/-- A text is itself, a moment its ISO text and an identifier its digits; other values are displayed. -/
def plainText : Value → List Char
  | text s => s.toList
  | date m => m.isoText ' '
  | objectId o => o.text
  | v => v.display

end Value
end GridQuery

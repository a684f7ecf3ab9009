import GridQuery.Text.Utf8
import GridQuery.ObjectId
import GridQuery.Text.Quoted
import GridQuery.Table

/-! # Percent encoding

A percent sign and two hexadecimal digits stand for a byte; the bytes are UTF-8. -/
namespace GridQuery.Http
open Text

/-- The bytes of a text. A percent sign that no two digits follow stands for itself. -/
def percentBytes : List Char → List UInt8
  | '%' :: a :: b :: r =>
    match ObjectId.hexValue? a, ObjectId.hexValue? b with
    | some x, some y => UInt8.ofNat (x.val * 16 + y.val) :: percentBytes r
    | _, _ => '%'.toUInt8 :: percentBytes (a :: b :: r)
  | c :: r => String.utf8EncodeChar c ++ percentBytes r
  | [] => []

/-- The text of a path; bytes that are no UTF-8 are replaced. -/
def decodePath (s : List Char) : List Char := decodeLossy (percentBytes s)

/-- Bytes that are no UTF-8, in upper-case percent encoding. -/
def encodeBytes (bytes : List UInt8) : List Char :=
  bytes.flatMap fun b => '%' :: (hexDigits 2 b.toNat).map Char.toUpper

def isAscii (c : Char) : Bool := c.toNat < 0x80

/-- A name or value of a query string. Each run of ASCII characters is decoded by itself, and bytes
that are no UTF-8 stay encoded. -/
def decodeArgument (s : List Char) : List Char :=
  match s with
  | [] => []
  | c :: r =>
    if isAscii c then
      decodeWith encodeBytes (percentBytes (c :: r.takeWhile isAscii))
        ++ decodeArgument (r.dropWhile isAscii)
    else c :: decodeArgument r
termination_by s.length
decreasing_by
  · simp only [List.length_cons]
    have := (List.dropWhile_sublist (l := r) isAscii).length_le
    omega
  · simp

end GridQuery.Http

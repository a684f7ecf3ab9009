import GridQuery.Text.Utf8

/-! # Encodings of a JSON text

A byte order mark names the encoding; without one the positions of zero bytes among the first four do,
since a JSON text begins with ASCII characters. -/
namespace GridQuery.Text

inductive Encoding
  | utf8
  | utf16 (bigEndian : Bool)
  | utf32 (bigEndian : Bool)
  deriving DecidableEq

/-- The encoding of a byte sequence, and the bytes behind its mark. -/
def Encoding.detect (bytes : List UInt8) : Encoding × List UInt8 :=
  match bytes with
  | 0x00 :: 0x00 :: 0xFE :: 0xFF :: r => (.utf32 true, r)
  | 0xFF :: 0xFE :: 0x00 :: 0x00 :: r => (.utf32 false, r)
  | 0xFE :: 0xFF :: r => (.utf16 true, r)
  | 0xFF :: 0xFE :: r => (.utf16 false, r)
  | 0xEF :: 0xBB :: 0xBF :: r => (.utf8, r)
  | a :: b :: c :: d :: _ =>
    if a = 0 then (if b ≠ 0 then .utf16 true else .utf32 true, bytes)
    else if b = 0 then (if c ≠ 0 ∨ d ≠ 0 then .utf16 false else .utf32 false, bytes)
    else (.utf8, bytes)
  | [a, b] =>
    if a = 0 then (.utf16 true, bytes)
    else if b = 0 then (.utf16 false, bytes)
    else (.utf8, bytes)
  | _ => (.utf8, bytes)

def number (bigEndian : Bool) (bytes : List UInt8) : Nat :=
  (if bigEndian then bytes else bytes.reverse).foldl (fun n b => n * 256 + b.toNat) 0

/-- The character with a code point. Half a surrogate pair is no character, and is shown as the
replacement character. -/
def charOrReplacement (code : Nat) : Char :=
  if h : code.isValidChar then Char.ofNatAux code h else replacement

def isHighSurrogate (n : Nat) : Bool := 0xD800 ≤ n && n < 0xDC00
def isLowSurrogate (n : Nat) : Bool := 0xDC00 ≤ n && n < 0xE000

/-- The code point of a surrogate pair. -/
def joinSurrogates (high low : Nat) : Nat := 0x10000 + (high - 0xD800) * 0x400 + (low - 0xDC00)

/-- The characters of sixteen-bit units. -/
def ofUnits16 : List Nat → List Char
  | [] => []
  | [u] => [charOrReplacement u]
  | u :: v :: r =>
    if isHighSurrogate u && isLowSurrogate v then charOrReplacement (joinSurrogates u v) :: ofUnits16 r
    else charOrReplacement u :: ofUnits16 (v :: r)

/-- Consecutive groups of two bytes, as numbers. -/
def units16? (bigEndian : Bool) : List UInt8 → Option (List Nat)
  | [] => some []
  | a :: b :: r => (units16? bigEndian r).map (number bigEndian [a, b] :: ·)
  | _ => none

/-- The greatest code point. -/
def greatestCode : Nat := 0x10FFFF

/-- Consecutive groups of four bytes, as characters. -/
def ofBytes32? (bigEndian : Bool) : List UInt8 → Option (List Char)
  | [] => some []
  | a :: b :: c :: d :: r =>
    let code := number bigEndian [a, b, c, d]
    if greatestCode < code then none
    else (ofBytes32? bigEndian r).map (charOrReplacement code :: ·)
  | _ => none

def Encoding.decode? : Encoding → List UInt8 → Option (List Char)
  | utf8, bytes => Text.decode? bytes
  | utf16 bigEndian, bytes => (units16? bigEndian bytes).map ofUnits16
  | utf32 bigEndian, bytes => ofBytes32? bigEndian bytes

/-- The text of bytes in any of the encodings. -/
def decodeAny? (bytes : List UInt8) : Option (List Char) :=
  let (encoding, body) := Encoding.detect bytes
  encoding.decode? body

end GridQuery.Text

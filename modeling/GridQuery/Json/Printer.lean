import GridQuery.Value.Basic
import GridQuery.Number.Layout
import GridQuery.Text.Quoted

/-! # Writing JSON

Only ASCII characters are written; a character beyond the sixteen-bit range becomes a surrogate pair.
Moments and identifiers are written as texts, tuples as arrays; bytes cannot be written. -/
namespace GridQuery.Json
open Text

def unitEscape (n : Nat) : List Char := '\\' :: 'u' :: hexDigits 4 n

def escapeChar (c : Char) : List Char :=
  if c = '"' then ['\\', '"']
  else if c = '\\' then ['\\', '\\']
  else if c = '\n' then ['\\', 'n']
  else if c = '\r' then ['\\', 'r']
  else if c = '\t' then ['\\', 't']
  else if 0x20 ≤ c.toNat && c.toNat < 0x7F then [c]
  else if c.toNat < 0x10000 then unitEscape c.toNat
  else
    let n := c.toNat - 0x10000
    unitEscape (0xD800 + n / 0x400) ++ unitEscape (0xDC00 + n % 0x400)

def textJson (s : List Char) : List Char := '"' :: (s.flatMap escapeChar ++ ['"'])

/-- Numbers are laid out in the standard way, infinities and NaN as words. -/
def layout : Layout := { Layout.standard with
  infinity := ['I', 'n', 'f', 'i', 'n', 'i', 't', 'y']
  notANumber := ['N', 'a', 'N'] }

mutual

def write : Value → List Char
  | .null => ['n', 'u', 'l', 'l']
  | .bool true => ['t', 'r', 'u', 'e']
  | .bool false => ['f', 'a', 'l', 's', 'e']
  | .int n => integerText n
  | .double d => layout.text d
  | .text s => textJson s.toList
  | .array items => '[' :: writeItems items ++ [']']
  | .tuple items => '[' :: writeItems items ++ [']']
  | .document fields => '{' :: writeFields fields ++ ['}']
  | .date m => textJson (m.isoText 'T')
  | .objectId o => textJson o.text
  | .bytes _ => ['n', 'u', 'l', 'l']

def writeItems : List Value → List Char
  | [] => []
  | [v] => write v
  | v :: w :: r => write v ++ ',' :: writeItems (w :: r)

def writeFields : List (String × Value) → List Char
  | [] => []
  | [(k, v)] => textJson k.toList ++ ':' :: write v
  | (k, v) :: e :: r => textJson k.toList ++ ':' :: write v ++ ',' :: writeFields (e :: r)

end

end GridQuery.Json

import GridQuery.Text.Printable

/-! # Quoted text

A text between quotes, with everything escaped that does not print. Single quotes are used unless the
text holds a single quote and no double quote. -/
namespace GridQuery.Text

/-- The `width` last hexadecimal digits of a number, in lower case. -/
def hexDigits : Nat → Nat → List Char
  | 0, _ => []
  | width + 1, n => hexDigits width (n / 16) ++ [Nat.digitChar (n % 16)]

@[simp] theorem length_hexDigits (width n : Nat) : (hexDigits width n).length = width := by
  induction width generalizing n with
  | zero => rfl
  | succ k ih => simp [hexDigits, ih]

/-- The quote a text is written between. -/
def quoteFor (s : List Char) : Char :=
  if s.contains '\'' && !s.contains '"' then '"' else '\''

/-- One character inside quotes. -/
def quoteChar (quote c : Char) : List Char :=
  if c = quote || c = '\\' then ['\\', c]
  else if c = '\t' then ['\\', 't']
  else if c = '\n' then ['\\', 'n']
  else if c = '\r' then ['\\', 'r']
  else if isPrintable c then [c]
  else if c.toNat < 0x100 then '\\' :: 'x' :: hexDigits 2 c.toNat
  else if c.toNat < 0x10000 then '\\' :: 'u' :: hexDigits 4 c.toNat
  else '\\' :: 'U' :: hexDigits 8 c.toNat

def quoted (s : List Char) : List Char :=
  let quote := quoteFor s
  quote :: (s.flatMap (quoteChar quote) ++ [quote])

/-- One byte inside quotes: ASCII text as it is, all else by number. -/
def quoteByte (quote : Char) (b : UInt8) : List Char :=
  let c := Char.ofNat b.toNat
  if c = quote || c = '\\' then ['\\', c]
  else if c = '\t' then ['\\', 't']
  else if c = '\n' then ['\\', 'n']
  else if c = '\r' then ['\\', 'r']
  else if 0x20 ≤ b && b < 0x7F then [c]
  else '\\' :: 'x' :: hexDigits 2 b.toNat

/-- Bytes between quotes, marked by a leading letter. -/
def quotedBytes (bytes : List UInt8) : List Char :=
  let quote := quoteFor (bytes.map fun b => Char.ofNat b.toNat)
  'b' :: quote :: (bytes.flatMap (quoteByte quote) ++ [quote])

end GridQuery.Text

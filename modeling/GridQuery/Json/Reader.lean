import GridQuery.Stack
import GridQuery.Value.Basic
import GridQuery.Number.Numeral
import GridQuery.Text.Encoding

/-! # Reading JSON

The words `NaN`, `Infinity` and `-Infinity` are numbers. A repeated key keeps its first place and
takes its last value. Control characters must be escaped inside texts. Brackets may stand within each other as
deep as there is room for. -/
namespace GridQuery.Json
open Text

def isSpace (c : Char) : Bool := c == ' ' || c == '\t' || c == '\n' || c == '\r'

def skipSpace (s : List Char) : List Char := s.dropWhile isSpace

/-- What follows a word, if the text begins with it. -/
def after? (word : List Char) (s : List Char) : Option (List Char) :=
  if word.isPrefixOf s then some (s.drop word.length) else none

/-- The number of four hexadecimal digits, and what follows. -/
def hexUnit? (s : List Char) : Option (Nat × List Char) :=
  match ObjectId.hexValues? (s.take 4) with
  | some [a, b, c, d] => some (((a.val * 16 + b.val) * 16 + c.val) * 16 + d.val, s.drop 4)
  | _ => none

/-- The character an escape stands for, and what follows; the backslash is read already. -/
def unescape? : List Char → Option (Char × List Char)
  | '"' :: r => some ('"', r)
  | '\\' :: r => some ('\\', r)
  | '/' :: r => some ('/', r)
  | 'b' :: r => some ('\x08', r)
  | 'f' :: r => some ('\x0c', r)
  | 'n' :: r => some ('\n', r)
  | 'r' :: r => some ('\r', r)
  | 't' :: r => some ('\t', r)
  | 'u' :: r => do
    let (high, r) ← hexUnit? r
    let single := (charOrReplacement high, r)
    if isHighSurrogate high then
      match r with
      | '\\' :: 'u' :: q =>
        match hexUnit? q with
        | some (low, q) =>
          if isLowSurrogate low then some (charOrReplacement (joinSurrogates high low), q) else some single
        | none => some single
      | _ => some single
    else some single
  | _ => none

/-- The characters up to the closing quote, and what follows it. An escape takes at least two
characters, so the length of the text is fuel enough. -/
def textBody? : Nat → List Char → Option (List Char × List Char)
  | 0, _ => none
  | fuel + 1, s =>
    match s with
    | [] => none
    | '"' :: r => some ([], r)
    | '\\' :: r => do
      let (c, r) ← unescape? r
      let (cs, r) ← textBody? fuel r
      some (c :: cs, r)
    | c :: r =>
      if c.toNat < 0x20 then none
      else do
        let (cs, r) ← textBody? fuel r
        some (c :: cs, r)

/-- A text whose opening quote is read already. -/
def text? (s : List Char) : Option (String × List Char) :=
  (textBody? (s.length + 1) s).map fun p => (String.ofList p.1, p.2)

/-- The integer part of a number. -/
def wholePart (s : List Char) : List Char :=
  match s with
  | '0' :: _ => ['0']
  | s => s.takeWhile Char.isDigit

/-- A point with digits behind it. -/
def fractionPart (s : List Char) : List Char :=
  match s with
  | '.' :: r => if (r.takeWhile Char.isDigit).isEmpty then [] else '.' :: r.takeWhile Char.isDigit
  | _ => []

/-- An exponent mark with a sign, if any, and digits. -/
def exponentPart (s : List Char) : List Char :=
  match s with
  | mark :: r =>
    if mark = 'e' ∨ mark = 'E' then
      let sign := r.takeWhile (fun c => c == '+' || c == '-')
      let sign := sign.take 1
      let digits := (r.drop sign.length).takeWhile Char.isDigit
      if digits.isEmpty then [] else mark :: sign ++ digits
    else []
  | [] => []

/-- A number without its sign. Integers of more than `limit` digits are refused. -/
def number? (limit : Option Nat) (negative : Bool) (s : List Char) : Option (Value × List Char) :=
  let whole := wholePart s
  let s := s.drop whole.length
  let fraction := fractionPart s
  let s := s.drop fraction.length
  let exponent := exponentPart s
  let s := s.drop exponent.length
  if whole.isEmpty then none
  else if fraction.isEmpty ∧ exponent.isEmpty then
    match limit with
    | some l =>
      if l < whole.length then none
      else some (.int (Numeral.signed negative (Numeral.ofDigits (Numeral.asciiDigits whole))), s)
    | none => some (.int (Numeral.signed negative (Numeral.ofDigits (Numeral.asciiDigits whole))), s)
  else (Numeral.decimal? negative (whole ++ fraction ++ exponent)).map fun d => (.double d, s)

def nanWord : List Char := ['N', 'a', 'N']
def infinityWord : List Char := ['I', 'n', 'f', 'i', 'n', 'i', 't', 'y']

/-- A value that is neither a text nor a collection. -/
def scalar? (limit : Option Nat) (s : List Char) : Option (Value × List Char) :=
  match s with
  | 'n' :: 'u' :: 'l' :: 'l' :: r => some (.null, r)
  | 't' :: 'r' :: 'u' :: 'e' :: r => some (.bool true, r)
  | 'f' :: 'a' :: 'l' :: 's' :: 'e' :: r => some (.bool false, r)
  | '-' :: r =>
    match after? infinityWord r with
    | some r => some (.double (.infinite true), r)
    | none => number? limit true r
  | s =>
    match after? infinityWord s, after? nanWord s with
    | some r, _ => some (.double (.infinite false), r)
    | _, some r => some (.double .nan, r)
    | none, none => number? limit false s

/-- Why a text is not read. -/
inductive Defect
  /-- It is no JSON. -/
  | malformed
  /-- Its brackets stand deeper within each other than there is room for. -/
  | deep
  deriving DecidableEq

/-- What was found at the front of a text; a text without it is malformed. -/
def found {α : Type} : Option α → Except Defect α
  | some a => .ok a
  | none => .error .malformed

mutual

/-- A value at the front of a text. A bracket needs room before anything behind it is looked at. Each call
reads a character or is followed by one that does, so twice the length of the text is fuel enough. -/
def value (limit : Option Nat) (room : Room) : Nat → List Char → Except Defect (Value × List Char)
  | 0, _ => .error .malformed
  | fuel + 1, s =>
    match s with
    | '"' :: r => (found (text? r)).map fun p => (.text p.1, p.2)
    | '[' :: r =>
      match room.inner? with
      | none => .error .deep
      | some inner =>
        match skipSpace r with
        | ']' :: r => .ok (.array [], r)
        | r => (items limit inner fuel r).map fun p => (.array p.1, p.2)
    | '{' :: r =>
      match room.inner? with
      | none => .error .deep
      | some inner =>
        match skipSpace r with
        | '}' :: r => .ok (.document [], r)
        | r => (members limit inner fuel [] r).map fun p => (.document p.1, p.2)
    | s => found (scalar? limit s)

/-- Values with commas between them, up to the closing bracket. -/
def items (limit : Option Nat) (room : Room) : Nat → List Char → Except Defect (List Value × List Char)
  | 0, _ => .error .malformed
  | fuel + 1, s => do
    let (v, s) ← value limit room fuel s
    match skipSpace s with
    | ']' :: r => .ok ([v], r)
    | ',' :: r =>
      let (vs, r) ← items limit room fuel (skipSpace r)
      .ok (v :: vs, r)
    | _ => .error .malformed

/-- Keys and values with commas between them, up to the closing brace. -/
def members (limit : Option Nat) (room : Room) :
    Nat → Document → List Char → Except Defect (Document × List Char)
  | 0, _, _ => .error .malformed
  | fuel + 1, fields, s =>
    match s with
    | '"' :: r => do
      let (key, r) ← found (text? r)
      match skipSpace r with
      | ':' :: r =>
        let (v, r) ← value limit room fuel (skipSpace r)
        let fields := Table.put fields key v
        match skipSpace r with
        | '}' :: r => .ok (fields, r)
        | ',' :: r => members limit room fuel fields (skipSpace r)
        | _ => .error .malformed
      | _ => .error .malformed
    | _ => .error .malformed

end

/-- The value a whole text holds. -/
def read (limit : Option Nat) (room : Room) (s : List Char) : Except Defect Value := do
  let s := skipSpace s
  let (v, s) ← value limit room (2 * s.length + 1) s
  if (skipSpace s).isEmpty then .ok v else .error .malformed

/-- The value a whole text holds, where there is room for any. -/
def read? (limit : Option Nat) (s : List Char) : Option Value := (read limit none s).toOption

/-- The value a byte sequence in any encoding holds. -/
def readBytes [Stack] (bytes : List UInt8) : Except Defect Value := do
  let s ← found (decodeAny? bytes)
  read (some Numeral.digitLimit) Stack.jsonRoom s

end GridQuery.Json

/-! # UTF-8

One character is decoded at a time. Where no character can be decoded, the bytes that could have begun
one are skipped together. -/
namespace GridQuery.Text

/-- What the front of a byte sequence holds. -/
inductive Decoded
  /-- A character of so many bytes. -/
  | char (c : Char) (size : Nat)
  /-- So many bytes, at least one, that no character begins with. -/
  | invalid (size : Nat)

def isContinuation (b : UInt8) : Bool := 0x80 ≤ b && b ≤ 0xBF

/-- The bytes that may follow a leading byte of three or four: the ranges exclude overlong forms,
surrogates and numbers beyond the last character. -/
def mayFollow (lead b : UInt8) : Bool :=
  if lead = 0xE0 then 0xA0 ≤ b && b ≤ 0xBF
  else if lead = 0xED then 0x80 ≤ b && b ≤ 0x9F
  else if lead = 0xF0 then 0x90 ≤ b && b ≤ 0xBF
  else if lead = 0xF4 then 0x80 ≤ b && b ≤ 0x8F
  else isContinuation b

def lowBits (b : UInt8) : Nat := b.toNat % 64

/-- The first character of a sequence that is not empty. -/
def decodeFirst (lead : UInt8) (rest : List UInt8) : Decoded :=
  if lead < 0x80 then .char (Char.ofNat lead.toNat) 1
  else if 0xC2 ≤ lead && lead ≤ 0xDF then
    match rest with
    | b :: _ =>
      if isContinuation b then .char (Char.ofNat (lead.toNat % 32 * 64 + lowBits b)) 2 else .invalid 1
    | [] => .invalid 1
  else if 0xE0 ≤ lead && lead ≤ 0xEF then
    match rest with
    | b :: r =>
      if mayFollow lead b then
        match r with
        | c :: _ =>
          if isContinuation c then
            .char (Char.ofNat (lead.toNat % 16 * 4096 + lowBits b * 64 + lowBits c)) 3
          else .invalid 2
        | [] => .invalid 2
      else .invalid 1
    | [] => .invalid 1
  else if 0xF0 ≤ lead && lead ≤ 0xF4 then
    match rest with
    | b :: r =>
      if mayFollow lead b then
        match r with
        | c :: r =>
          if isContinuation c then
            match r with
            | d :: _ =>
              if isContinuation d then
                .char (Char.ofNat
                  (lead.toNat % 8 * 262144 + lowBits b * 4096 + lowBits c * 64 + lowBits d)) 4
              else .invalid 3
            | [] => .invalid 3
          else .invalid 2
        | [] => .invalid 2
      else .invalid 1
    | [] => .invalid 1
  else .invalid 1

/-- Decodes all of a byte sequence; `onInvalid` writes the bytes that are skipped. -/
def decodeWith (onInvalid : List UInt8 → List Char) : List UInt8 → List Char
  | [] => []
  | lead :: rest =>
    match decodeFirst lead rest with
    | .char c size => c :: decodeWith onInvalid (rest.drop (size - 1))
    | .invalid size => onInvalid (lead :: rest.take (size - 1)) ++ decodeWith onInvalid (rest.drop (size - 1))
termination_by bytes => bytes.length
decreasing_by
  all_goals simp only [List.length_drop, List.length_cons]; omega

/-- What is shown where no character can be decoded. -/
def replacement : Char := '\ufffd'

/-- Each run of skipped bytes becomes a replacement character. -/
def decodeLossy (bytes : List UInt8) : List Char := decodeWith (fun _ => [replacement]) bytes

/-- Whether a sequence begins with the three bytes of half a surrogate pair. -/
def beginsWithSurrogate (lead : UInt8) (rest : List UInt8) : Bool :=
  match rest with
  | b :: c :: _ => lead == 0xED && 0xA0 ≤ b && b ≤ 0xBF && isContinuation c
  | _ => false

/-- The text of a byte sequence without errors. Half a surrogate pair counts as none, and becomes a
replacement character. -/
def decode? : List UInt8 → Option (List Char)
  | [] => some []
  | lead :: rest =>
    match decodeFirst lead rest with
    | .char c size => (decode? (rest.drop (size - 1))).map (c :: ·)
    | .invalid _ =>
      if beginsWithSurrogate lead rest then (decode? (rest.drop 2)).map (replacement :: ·) else none
termination_by bytes => bytes.length
decreasing_by
  all_goals simp only [List.length_drop, List.length_cons]; omega

/-- The bytes of a text. -/
def encodeUtf8 (s : List Char) : List UInt8 := s.flatMap String.utf8EncodeChar

end GridQuery.Text

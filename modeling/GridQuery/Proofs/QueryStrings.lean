import Mathlib.Data.List.TakeWhile
import GridQuery.Http.Argument

/-! # Query strings that spell arguments

Names and values may be spelled in several ways: a character stands for itself or for the bytes that percent signs
give, and a plus sign for a space. Whatever the spelling, the arguments are read back. -/
namespace GridQuery.QueryStrings
open Text Http

/-! ## Spellings -/

/-- A hexadecimal digit of either case, and its value. -/
def IsHexDigit (c : Char) (n : Nat) : Prop :=
  n < 16 ∧ (c = Nat.digitChar n ∨ c = (Nat.digitChar n).toUpper)

/-- Bytes by percent signs and two digits each. -/
inductive SpellsBytes : List UInt8 → List Char → Prop
  | nil : SpellsBytes [] []
  | cons {b : UInt8} {bs : List UInt8} {high low : Char} {s : List Char} (hhigh : IsHexDigit high (b.toNat / 16))
      (hlow : IsHexDigit low (b.toNat % 16)) (h : SpellsBytes bs s) : SpellsBytes (b :: bs) ('%' :: high :: low :: s)

/-- A text, where the reserved characters do not stand for themselves. -/
inductive SpellsText (reserved : List Char) : List Char → List Char → Prop
  | nil : SpellsText reserved [] []
  | plain {c : Char} {t s : List Char} (hc : c ∉ reserved) (h : SpellsText reserved t s) :
      SpellsText reserved (c :: t) (c :: s)
  | space {t s : List Char} (h : SpellsText reserved t s) : SpellsText reserved (' ' :: t) ('+' :: s)
  | encoded {c : Char} {e t s : List Char} (he : SpellsBytes (String.utf8EncodeChar c) e)
      (h : SpellsText reserved t s) : SpellsText reserved (c :: t) (e ++ s)

def reservedInValues : List Char := ['%', '+', '&']
def reservedInNames : List Char := ['%', '+', '&', '=']

/-- A name and a value with an equals sign between them, or a name alone. -/
inductive SpellsArgument : String × String → List Char → Prop
  | pair {name value : String} {s t : List Char} (hn : SpellsText reservedInNames name.toList s)
      (hv : SpellsText reservedInValues value.toList t) : SpellsArgument (name, value) (s ++ '=' :: t)
  | bare {name : String} {s : List Char} (hs : s ≠ []) (hn : SpellsText reservedInNames name.toList s) :
      SpellsArgument (name, "") s

/-- Arguments with ampersands between them; an ampersand too many does not matter. -/
inductive SpellsQuery : List (String × String) → List Char → Prop
  | nil : SpellsQuery [] []
  | last {a : String × String} {s : List Char} (h : SpellsArgument a s) : SpellsQuery [a] s
  | skip {args : List (String × String)} {s : List Char} (h : SpellsQuery args s) : SpellsQuery args ('&' :: s)
  | more {a : String × String} {args : List (String × String)} {s t : List Char} (h : SpellsArgument a s)
      (hr : SpellsQuery args t) : SpellsQuery (a :: args) (s ++ '&' :: t)

/-! ## The bytes of a character -/

/-- A byte behind the leading one, with the last six bits of a number. -/
def continuation (k : Nat) : UInt8 := UInt8.ofNat (k % 64 + 128)

theorem toNat_ofNat_of_lt {k : Nat} (h : k < 256) : (UInt8.ofNat k).toNat = k := by
  rw [UInt8.toNat_ofNat']
  exact Nat.mod_eq_of_lt h

theorem toNat_continuation (k : Nat) : (continuation k).toNat = k % 64 + 128 :=
  toNat_ofNat_of_lt (by omega)

theorem isContinuation_continuation (k : Nat) : isContinuation (continuation k) = true := by
  simp only [isContinuation, Bool.and_eq_true, decide_eq_true_eq, UInt8.le_iff_toNat_le, toNat_continuation,
    UInt8.reduceToNat]
  omega

theorem lowBits_continuation (k : Nat) : lowBits (continuation k) = k % 64 := by
  rw [lowBits, toNat_continuation]
  omega

theorem decodeFirst_one {n : Nat} (hmost : n ≤ 127) (rest : List UInt8) :
    decodeFirst (UInt8.ofNat n) rest = .char (Char.ofNat n) 1 := by
  have hlead := toNat_ofNat_of_lt (k := n) (by omega)
  unfold decodeFirst
  rw [if_pos (UInt8.lt_iff_toNat_lt.mpr (by rw [hlead]; exact Nat.lt_succ_of_le hmost)), hlead]

theorem decodeFirst_two {n : Nat} (hleast : ¬n ≤ 127) (hmost : n ≤ 2047) (rest : List UInt8) :
    decodeFirst (UInt8.ofNat (n / 64 % 32 + 192)) (continuation n :: rest) = .char (Char.ofNat n) 2 := by
  have hlead := toNat_ofNat_of_lt (k := n / 64 % 32 + 192) (by omega)
  generalize UInt8.ofNat (n / 64 % 32 + 192) = lead at hlead ⊢
  have hvalue : lead.toNat % 32 * 64 + lowBits (continuation n) = n := by
    rw [lowBits_continuation, hlead]
    omega
  unfold decodeFirst
  simp only [UInt8.lt_iff_toNat_lt, UInt8.le_iff_toNat_le, Bool.and_eq_true, decide_eq_true_eq, UInt8.reduceToNat,
    isContinuation_continuation, hvalue, if_true]
  rw [if_neg (by omega), if_pos (by omega)]

/-- The second byte is one that may follow, as long as the number is neither overlong nor half a pair nor beyond the
last character. -/
theorem mayFollow_continuation {lead : UInt8} {k : Nat} (h224 : lead.toNat = 224 → 32 ≤ k % 64)
    (h237 : lead.toNat = 237 → k % 64 < 32) (h240 : lead.toNat = 240 → 16 ≤ k % 64)
    (h244 : lead.toNat = 244 → k % 64 < 16) : mayFollow lead (continuation k) = true := by
  unfold mayFollow
  simp only [← UInt8.toNat_inj, UInt8.reduceToNat, UInt8.le_iff_toNat_le, toNat_continuation,
    isContinuation_continuation]
  split
  · simp; omega
  split
  · simp; omega
  split
  · simp; omega
  split
  · simp; omega
  · rfl

theorem decodeFirst_three {n : Nat} (hleast : ¬n ≤ 2047) (hmost : n ≤ 65535) (hvalid : n < 55296 ∨ 57343 < n)
    (rest : List UInt8) :
    decodeFirst (UInt8.ofNat (n / 4096 % 16 + 224)) (continuation (n / 64) :: continuation n :: rest) =
      .char (Char.ofNat n) 3 := by
  have hlead := toNat_ofNat_of_lt (k := n / 4096 % 16 + 224) (by omega)
  generalize UInt8.ofNat (n / 4096 % 16 + 224) = lead at hlead ⊢
  have hfollow : mayFollow lead (continuation (n / 64)) = true :=
    mayFollow_continuation (by omega) (by omega) (by omega) (by omega)
  have hvalue : lead.toNat % 16 * 4096 + lowBits (continuation (n / 64)) * 64 + lowBits (continuation n) = n := by
    rw [lowBits_continuation, lowBits_continuation, hlead]
    omega
  unfold decodeFirst
  simp only [UInt8.lt_iff_toNat_lt, UInt8.le_iff_toNat_le, Bool.and_eq_true, decide_eq_true_eq, UInt8.reduceToNat,
    isContinuation_continuation, hfollow, hvalue, if_true]
  rw [if_neg (by omega), if_neg (by omega), if_pos (by omega)]

theorem decodeFirst_four {n : Nat} (hleast : ¬n ≤ 65535) (hmost : n < 1114112) (rest : List UInt8) :
    decodeFirst (UInt8.ofNat (n / 262144 % 8 + 240))
        (continuation (n / 4096) :: continuation (n / 64) :: continuation n :: rest) = .char (Char.ofNat n) 4 := by
  have hlead := toNat_ofNat_of_lt (k := n / 262144 % 8 + 240) (by omega)
  generalize UInt8.ofNat (n / 262144 % 8 + 240) = lead at hlead ⊢
  have hfollow : mayFollow lead (continuation (n / 4096)) = true :=
    mayFollow_continuation (by omega) (by omega) (by omega) (by omega)
  have hvalue : lead.toNat % 8 * 262144 + lowBits (continuation (n / 4096)) * 4096 +
      lowBits (continuation (n / 64)) * 64 + lowBits (continuation n) = n := by
    rw [lowBits_continuation, lowBits_continuation, lowBits_continuation, hlead]
    omega
  unfold decodeFirst
  simp only [UInt8.lt_iff_toNat_lt, UInt8.le_iff_toNat_le, Bool.and_eq_true, decide_eq_true_eq, UInt8.reduceToNat,
    isContinuation_continuation, hfollow, hvalue, if_true]
  rw [if_neg (by omega), if_neg (by omega), if_neg (by omega), if_pos (by omega)]

/-- The bytes of a character are decoded to that character, whatever follows them. -/
theorem decodeWith_utf8EncodeChar (onInvalid : List UInt8 → List Char) (c : Char) (bytes : List UInt8) :
    decodeWith onInvalid (String.utf8EncodeChar c ++ bytes) = c :: decodeWith onInvalid bytes := by
  have hvalid : c.val.toNat < 55296 ∨ 57343 < c.val.toNat ∧ c.val.toNat < 1114112 := c.valid
  have step {lead : UInt8} {rest : List UInt8}
      (h : decodeFirst lead (rest ++ bytes) = .char (Char.ofNat c.val.toNat) (rest.length + 1)) :
      decodeWith onInvalid (lead :: rest ++ bytes) = c :: decodeWith onInvalid bytes := by
    have hc : Char.ofNat c.val.toNat = c := Char.ofNat_toNat c
    rw [List.cons_append, decodeWith, h, hc]
    simp
  unfold String.utf8EncodeChar
  dsimp only
  split
  case isTrue h => exact step (decodeFirst_one h bytes)
  case isFalse h128 =>
    split
    case isTrue h => exact step (decodeFirst_two h128 h bytes)
    case isFalse h2048 =>
      split
      case isTrue h => exact step (decodeFirst_three h2048 h (hvalid.imp_right And.left) bytes)
      case isFalse h65536 => exact step (decodeFirst_four h65536 (by omega) bytes)

/-! ## Names and values -/

theorem IsHexDigit.hexValue? {c : Char} {n : Nat} (h : IsHexDigit c n) :
    ObjectId.hexValue? c = some ⟨n, h.1⟩ := by
  have hall : ∀ d : Fin 16, ObjectId.hexValue? (Nat.digitChar d) = some d ∧
      ObjectId.hexValue? (Nat.digitChar d).toUpper = some d := by decide
  rcases h.2 with rfl | rfl
  · exact (hall ⟨n, h.1⟩).1
  · exact (hall ⟨n, h.1⟩).2

/-- Signs that have a meaning of their own in a query string. -/
def marks : List Char := ['+', '&', '=']

theorem IsHexDigit.isAscii {c : Char} {n : Nat} (h : IsHexDigit c n) : isAscii c = true ∧ c ∉ marks := by
  have hall : ∀ d : Fin 16, (Http.isAscii (Nat.digitChar d) = true ∧ Nat.digitChar d ∉ marks) ∧
      Http.isAscii (Nat.digitChar d).toUpper = true ∧ (Nat.digitChar d).toUpper ∉ marks := by decide
  rcases h.2 with rfl | rfl
  · exact (hall ⟨n, h.1⟩).1
  · exact (hall ⟨n, h.1⟩).2

variable {bs : List UInt8} {e s t : List Char} {c : Char}

theorem SpellsBytes.isAscii (h : SpellsBytes bs e) : ∀ c ∈ e, isAscii c = true ∧ c ∉ marks := by
  induction h with
  | nil => simp
  | cons hhigh hlow _ ih =>
    intro c hc
    rcases List.mem_cons.mp hc with rfl | hc
    · decide
    rcases List.mem_cons.mp hc with rfl | hc
    · exact hhigh.isAscii
    rcases List.mem_cons.mp hc with rfl | hc
    · exact hlow.isAscii
    · exact ih c hc

theorem SpellsBytes.percentBytes_append (h : SpellsBytes bs e) (s : List Char) :
    percentBytes (e ++ s) = bs ++ percentBytes s := by
  induction h with
  | nil => rfl
  | @cons b bs high low e hhigh hlow _ ih =>
    have hb : b.toNat / 16 * 16 + b.toNat % 16 = b.toNat := Nat.div_add_mod' b.toNat 16
    simp only [List.cons_append]
    rw [percentBytes, hhigh.hexValue?, hlow.hexValue?]
    simp only [ih, hb, UInt8.ofNat_toNat]

theorem percentBytes_cons (hc : c ≠ '%') (s : List Char) :
    percentBytes (c :: s) = String.utf8EncodeChar c ++ percentBytes s := by
  rw [percentBytes]
  intro a b r h _
  exact hc h

/-- The ASCII characters at the front are decoded together. -/
theorem decodeArgument_eq (s : List Char) : decodeArgument s =
    decodeWith encodeBytes (percentBytes (s.takeWhile isAscii)) ++ decodeArgument (s.dropWhile isAscii) := by
  cases s with
  | nil => simp [decodeArgument, percentBytes, decodeWith]
  | cons c r =>
    by_cases hc : isAscii c = true
    · rw [decodeArgument, if_pos hc, List.takeWhile_cons_of_pos hc, List.dropWhile_cons_of_pos hc]
    · rw [List.takeWhile_cons_of_neg hc, List.dropWhile_cons_of_neg hc]
      simp [percentBytes, decodeWith]

theorem decodeArgument_cons (hc : c ≠ '%') (s : List Char) : decodeArgument (c :: s) = c :: decodeArgument s := by
  by_cases ha : isAscii c = true
  · rw [decodeArgument_eq, List.takeWhile_cons_of_pos ha, List.dropWhile_cons_of_pos ha, percentBytes_cons hc,
      decodeWith_utf8EncodeChar, List.cons_append, ← decodeArgument_eq]
  · rw [decodeArgument, if_neg ha]

theorem decodeArgument_append (h : SpellsBytes (String.utf8EncodeChar c) e) (s : List Char) :
    decodeArgument (e ++ s) = c :: decodeArgument s := by
  have ha (d : Char) (hd : d ∈ e) : isAscii d = true := (h.isAscii d hd).1
  rw [decodeArgument_eq, List.takeWhile_append_of_pos ha, List.dropWhile_append_of_pos ha, h.percentBytes_append,
    decodeWith_utf8EncodeChar, List.cons_append, ← decodeArgument_eq]

theorem plusToSpace_cons (hc : c ≠ '+') (s : List Char) : plusToSpace (c :: s) = c :: plusToSpace s := by
  simp [plusToSpace, hc]

theorem plusToSpace_append (he : ∀ c ∈ e, c ∉ marks) (s : List Char) :
    plusToSpace (e ++ s) = e ++ plusToSpace s := by
  induction e with
  | nil => rfl
  | cons c r ih =>
    have hc : c ≠ '+' := fun hc => he c List.mem_cons_self (hc ▸ by decide)
    rw [List.cons_append, plusToSpace_cons hc, ih fun d hd => he d (List.mem_cons_of_mem c hd), List.cons_append]

variable {reserved : List Char}

theorem SpellsText.decodeArgument (hpercent : '%' ∈ reserved) (hplus : '+' ∈ reserved)
    (h : SpellsText reserved t s) : Http.decodeArgument (plusToSpace s) = t := by
  have hne {c d : Char} (hc : c ∉ reserved) (hd : d ∈ reserved) : c ≠ d := fun h => hc (h ▸ hd)
  induction h with
  | nil => rw [plusToSpace, List.map_nil, Http.decodeArgument]
  | plain hc _ ih => rw [plusToSpace_cons (hne hc hplus), decodeArgument_cons (hne hc hpercent), ih]
  | @space t s _ ih =>
    have hspace : plusToSpace ('+' :: s) = ' ' :: plusToSpace s := rfl
    rw [hspace, decodeArgument_cons (by decide), ih]
  | encoded he _ ih => rw [plusToSpace_append fun d hd => (he.isAscii d hd).2, decodeArgument_append he, ih]

/-- A reserved mark other than the plus sign does not occur. -/
theorem SpellsText.not_mem {m : Char} (hm : m ∈ ['&', '=']) (hr : m ∈ reserved) (h : SpellsText reserved t s) :
    m ∉ s := by
  have hmark : m ∈ marks := List.mem_cons_of_mem _ hm
  have hplus : m ≠ '+' := by
    rintro rfl
    exact absurd hm (by decide)
  induction h with
  | nil => exact List.not_mem_nil
  | plain hc _ ih => exact fun h => (List.mem_cons.mp h).elim (fun heq => hc (heq ▸ hr)) ih
  | space _ ih => exact fun h => (List.mem_cons.mp h).elim hplus ih
  | encoded he _ ih => exact fun h => (List.mem_append.mp h).elim (fun hm => (he.isAscii m hm).2 hmark) ih

/-! ## Arguments -/

theorem splitArgument_append (h : '=' ∉ s) (t : List Char) : splitArgument (s ++ '=' :: t) = (s, t) := by
  have hs : ∀ c ∈ s, decide (c ≠ '=') = true := fun c hc => decide_eq_true fun heq => h (heq ▸ hc)
  rw [splitArgument, List.takeWhile_append_of_pos hs, List.dropWhile_append_of_pos hs]
  simp

theorem splitArgument_of_not_mem (h : '=' ∉ s) : splitArgument s = (s, []) := by
  have hs : ∀ c ∈ s, decide (c ≠ '=') = true := fun c hc => decide_eq_true fun heq => h (heq ▸ hc)
  rw [splitArgument, List.takeWhile_eq_self_iff.mpr hs, List.dropWhile_eq_nil_iff.mpr hs, List.drop_nil]

/-- The name and the value of one piece of a query string. -/
def argumentOf (piece : List Char) : String × String :=
  (String.ofList (decodeArgument (plusToSpace (splitArgument piece).1)),
    String.ofList (decodeArgument (plusToSpace (splitArgument piece).2)))

theorem SpellsArgument.argumentOf {a : String × String} (h : SpellsArgument a s) :
    QueryStrings.argumentOf s = a ∧ s ≠ [] ∧ '&' ∉ s := by
  cases h with
  | @pair name value n v hn hv =>
    have hname : decodeArgument (plusToSpace n) = name.toList := hn.decodeArgument (by decide) (by decide)
    have hvalue : decodeArgument (plusToSpace v) = value.toList := hv.decodeArgument (by decide) (by decide)
    refine ⟨?_, by simp, ?_⟩
    · rw [QueryStrings.argumentOf, splitArgument_append (hn.not_mem (by decide) (by decide))]
      simp [hname, hvalue]
    · have hn' : '&' ∉ n := hn.not_mem (by decide) (by decide)
      have hv' : '&' ∉ v := hv.not_mem (by decide) (by decide)
      simp [hn', hv']
  | @bare name _ hs hn =>
    have hname : decodeArgument (plusToSpace s) = name.toList := hn.decodeArgument (by decide) (by decide)
    refine ⟨?_, hs, hn.not_mem (by decide) (by decide)⟩
    have hnil : decodeArgument (plusToSpace []) = [] := by rw [plusToSpace, List.map_nil, decodeArgument]
    rw [QueryStrings.argumentOf, splitArgument_of_not_mem (hn.not_mem (by decide) (by decide))]
    simp only [hname, hnil, String.ofList_toList, String.ofList_nil]

theorem arguments_eq (s : List Char) : arguments s = ((splitAt '&' s).filter (· ≠ [])).map argumentOf := rfl

/-- The arguments that a query string spells are those that it is read as. -/
theorem arguments_of_spelled {args : List (String × String)} (h : SpellsQuery args s) : arguments s = args := by
  rw [arguments_eq]
  induction h with
  | nil => rfl
  | last h =>
    obtain ⟨harg, hne, hmark⟩ := h.argumentOf
    simp [splitAt_of_not_mem hmark, hne, harg]
  | @skip args s _ ih =>
    have hsplit : splitAt '&' ('&' :: s) = [] :: splitAt '&' s := splitAt_append (s := []) List.not_mem_nil
    rw [hsplit, List.filter_cons_of_neg (by simp), ih]
  | more h _ ih =>
    obtain ⟨harg, hne, hmark⟩ := h.argumentOf
    rw [splitAt_append hmark, List.filter_cons_of_pos (by simpa using hne), List.map_cons, harg, ih]

end GridQuery.QueryStrings

import GridQuery.Proofs.NumeralGrammar
import GridQuery.Proofs.CallerErrors
import GridQuery.Proofs.NearestDouble
import GridQuery.Proofs.ScalarOperands

/-! # The number that a comparison compares with

An integer gives the same number whether it is sent as such or as its decimal text: itself, or the nearest
floating point number if it does not fit into 64 bits, or none if that is not finite. Every other value gives an
integer of 64 bits, a finite floating point number, or an error that names the field, the operator and the value. -/
namespace GridQuery.NumberOperands
open Text Numeral

/-! ## Texts of no number -/

theorem groupedDigits?_eq_none {c : Char} (hc : digitValue? c = none) (r : List Char) :
    groupedDigits? (c :: r) = none := by
  unfold groupedDigits?
  split
  · rename_i heq
    cases heq
  · rename_i heq
    cases heq
    simp [hc]
  · rename_i heq
    cases heq
    simp [hc]
  · rename_i heq
    cases heq
    simp [hc]

theorem splitSign_append_of_ne {sign : List Char} {negative : Bool} (hs : IsSign sign negative) {c : Char}
    (hminus : c ≠ '-') (hplus : c ≠ '+') (r : List Char) : splitSign (sign ++ c :: r) = (negative, c :: r) := by
  cases hs with
  | plus => rfl
  | minus => rfl
  | none =>
    rw [List.nil_append, splitSign]
    · rintro r' heq
      cases heq
      exact hminus rfl
    · rintro r' heq
      cases heq
      exact hplus rfl

theorem integer?_eq_none {sign : List Char} {negative : Bool} (hs : IsSign sign negative) {c : Char} {r : List Char}
    (htrim : trimBy isNumeralBlank (sign ++ c :: r) = sign ++ c :: r) (hc : digitValue? c = none)
    (hminus : c ≠ '-') (hplus : c ≠ '+') : integer? (sign ++ c :: r) = none := by
  rw [integer?, htrim, splitSign_append_of_ne hs hminus hplus]
  simp [groupedDigits?_eq_none hc]

def openings : List Char := ['[', '(', '{']
def closings : List Char := [']', ')', '}']

theorem decimal?_opening {c : Char} (hc : c ∈ openings) (negative : Bool) (r : List Char) :
    decimal? negative (c :: r) = none := by
  simp only [openings, List.mem_cons, List.not_mem_nil, or_false] at hc
  rcases hc with rfl | rfl | rfl <;> rfl

theorem double?_opening {c : Char} (hc : c ∈ openings) {r : List Char}
    (htrim : trimBy isNumeralBlank (c :: r) = c :: r) : double? (c :: r) = none := by
  have hall : ∀ c ∈ openings,
      plainDigit c = c ∧ c ≠ '_' ∧ c ≠ '-' ∧ c ≠ '+' ∧ c.toLower ≠ 'i' ∧ c.toLower ≠ 'n' :=
    forall_mem_of_all (by decide)
  obtain ⟨hplain, hunderscore, hminus, hplus, hi, hn⟩ := hall c hc
  have hsplit := splitSign_append_of_ne .none hminus hplus
  simp only [List.nil_append] at hsplit
  rw [double?, htrim, List.map_cons, hplain]
  dsimp only
  split
  · rw [List.filter_cons_of_pos (by simpa using hunderscore), hsplit]
    simp [lower, hi, hn, decimal?_opening hc]
  · rfl

theorem ofText?_bracketed {c d : Char} (hc : c ∈ openings) (hd : d ∈ closings) (mid : List Char) :
    Number.ofText? (trim (c :: (mid ++ [d]))) = none := by
  have hopening : ∀ c ∈ openings, isBlank c = false ∧ isNumeralBlank c = false ∧ digitValue? c = none ∧
      c ≠ '-' ∧ c ≠ '+' := forall_mem_of_all (by decide)
  have hclosing : ∀ d ∈ closings, isBlank d = false ∧ isNumeralBlank d = false := forall_mem_of_all (by decide)
  obtain ⟨hblank, hnumeral, hdigit, hminus, hplus⟩ := hopening c hc
  have htrim := trimBy_ends hnumeral (hclosing d hd).2 mid
  have hinteger : integer? (c :: (mid ++ [d])) = none := integer?_eq_none .none htrim hdigit hminus hplus
  rw [trim, trimBy_ends hblank (hclosing d hd).1, Number.ofText?, hinteger, double?_opening hc htrim]
  rfl

/-- Values that are written as their parts between brackets. -/
inductive IsCompound : Value → Prop
  | array (items : List Value) : IsCompound (.array items)
  | tuple (items : List Value) : IsCompound (.tuple items)
  | document (fields : List (String × Value)) : IsCompound (.document fields)

theorem IsCompound.exists_brackets {v : Value} (h : IsCompound v) :
    ∃ c mid d, c ∈ openings ∧ d ∈ closings ∧ v.plainText = c :: (mid ++ [d]) := by
  cases h with
  | array items => exact ⟨'[', Value.displayItems items, ']', by decide, by decide, rfl⟩
  | document fields => exact ⟨'\x7b', Value.displayFields fields, '\x7d', by decide, by decide, rfl⟩
  | tuple items =>
    have hdisplay : (Value.tuple items).plainText =
        '(' :: (Value.displayItems items ++ if items.length = 1 then [',', ')'] else [')']) := rfl
    rw [hdisplay]
    by_cases hone : items.length = 1
    · exact ⟨'(', Value.displayItems items ++ [','], ')', by decide, by decide, by simp [hone]⟩
    · exact ⟨'(', Value.displayItems items, ')', by decide, by decide, by simp [hone]⟩

theorem ofValue?_compound {v : Value} (h : IsCompound v) : Number.ofValue? v = none := by
  have htext : Number.ofValue? v = Number.ofText? (trim v.plainText) := by cases h <;> rfl
  obtain ⟨c, mid, d, hc, hd, hv⟩ := h.exists_brackets
  rw [htext, hv]
  exact ofText?_bracketed hc hd mid

/-! ## The names of numbers that are not finite -/

def numberNames : List (List Char) := ["inf".toList, "infinity".toList, "nan".toList]

/-- The letters of these names, in either case. -/
def nameLetters : List Char := ['a', 'f', 'i', 'n', 't', 'y', 'A', 'F', 'I', 'N', 'T', 'Y']

theorem mem_nameLetters_of_toLower {c : Char} (h : c.toLower ∈ nameLetters) : c ∈ nameLetters := by
  rcases toLower_cases c with hsame | ⟨hletter, hc⟩
  · rwa [hsame] at h
  · have hall : ∀ x ∈ nameLetters, 97 ≤ x.toNat → Char.ofNat (x.toNat - 32) ∈ nameLetters :=
      forall_mem_of_all (by decide)
    rw [hc]
    exact hall _ h hletter

theorem mem_nameLetters {word : List Char} (hw : lower word ∈ numberNames) : ∀ c ∈ word, c ∈ nameLetters := by
  intro c hc
  have hall : ∀ name ∈ numberNames, name ⊆ nameLetters := by decide
  exact mem_nameLetters_of_toLower (hall _ hw (List.mem_map_of_mem hc))

/-- Characters that may stand in a name with its sign. -/
def IsNameChar (c : Char) : Prop :=
  isBlank c = false ∧ isNumeralBlank c = false ∧ plainDigit c = c ∧ c ≠ '_'

instance (c : Char) : Decidable (IsNameChar c) := by unfold IsNameChar; infer_instance

theorem isNameChar_of_mem {sign word : List Char} {negative : Bool} (hs : IsSign sign negative)
    (hw : lower word ∈ numberNames) : ∀ c ∈ sign ++ word, IsNameChar c := by
  have hletters : ∀ c ∈ nameLetters, IsNameChar c := forall_mem_of_all (by decide)
  have hsigns : IsNameChar '-' ∧ IsNameChar '+' := by decide
  refine List.forall_mem_append.mpr ⟨?_, fun c hc => hletters c (mem_nameLetters hw c hc)⟩
  cases hs <;> simp [hsigns]

theorem exists_letter_cons {word : List Char} (hw : lower word ∈ numberNames) :
    ∃ c r, word = c :: r ∧ digitValue? c = none ∧ c ≠ '-' ∧ c ≠ '+' := by
  cases word with
  | nil => exact absurd hw (by decide)
  | cons c r =>
    have hall : ∀ c ∈ nameLetters, digitValue? c = none ∧ c ≠ '-' ∧ c ≠ '+' := forall_mem_of_all (by decide)
    exact ⟨c, r, rfl, hall c (mem_nameLetters hw c List.mem_cons_self)⟩

theorem double?_name {sign word : List Char} {negative : Bool} (hs : IsSign sign negative)
    (hw : lower word ∈ numberNames) : (double? (sign ++ word)).bind Number.ofDouble? = none := by
  have hchars := isNameChar_of_mem hs hw
  have htrim : trimBy isNumeralBlank (sign ++ word) = sign ++ word := trimBy_eq_self fun c hc => (hchars c hc).2.1
  have hplain : (sign ++ word).map plainDigit = sign ++ word :=
    (List.map_congr_left fun c hc => (hchars c hc).2.2.1).trans (List.map_id _)
  have hfilter : (sign ++ word).filter (· ≠ '_') = sign ++ word :=
    List.filter_eq_self.mpr fun c hc => by simpa using (hchars c hc).2.2.2
  obtain ⟨c, r, rfl, -, hminus, hplus⟩ := exists_letter_cons hw
  rw [double?, htrim, hplain]
  dsimp only
  split
  · rw [hfilter, splitSign_append_of_ne hs hminus hplus]
    dsimp only
    simp only [numberNames, List.mem_cons, List.not_mem_nil, or_false] at hw
    rcases hw with hw | hw | hw
    · rw [if_pos (Or.inl hw)]
      rfl
    · rw [if_pos (Or.inr hw)]
      rfl
    · rw [hw]
      rfl
  · rfl

theorem ofText?_name {before sign word after : List Char} {negative : Bool}
    (hbefore : ∀ c ∈ before, isBlank c = true) (hs : IsSign sign negative) (hw : lower word ∈ numberNames)
    (hafter : ∀ c ∈ after, isBlank c = true) :
    Number.ofText? (trim (before ++ (sign ++ word) ++ after)) = none := by
  have hchars := isNameChar_of_mem hs hw
  have hcore : trim (before ++ (sign ++ word) ++ after) = sign ++ word := by
    refine trimBy_surrounded hbefore hafter (fun c hc => (hchars c hc).1) ?_
    obtain ⟨c, r, rfl, -⟩ := exists_letter_cons hw
    simp
  have hdouble := double?_name hs hw
  obtain ⟨c, r, rfl, hc, hminus, hplus⟩ := exists_letter_cons hw
  have htrim := trimBy_eq_self fun c hc => (hchars c hc).2.1
  rw [hcore, Number.ofText?, integer?_eq_none hs htrim hc hminus hplus]
  exact hdouble

/-! ## Values of no number -/

/-- Values that stand for no number a comparison could be made with. -/
inductive NoNumber : Value → Prop
  | null : NoNumber .null
  | bool (b : Bool) : NoNumber (.bool b)
  | compound {v : Value} (h : IsCompound v) : NoNumber v
  | blank {s : String} (h : ∀ c ∈ s.toList, isBlank c = true) : NoNumber (.text s)
  /-- An infinity or a NaN. -/
  | special {d : Double} (h : d.isFinite = false) : NoNumber (.double d)
  /-- The name of one, in either case, with a sign or without, and blanks around it. -/
  | name {before sign word after : List Char} {negative : Bool} (hbefore : ∀ c ∈ before, isBlank c = true)
      (hsign : IsSign sign negative) (hword : lower word ∈ numberNames) (hafter : ∀ c ∈ after, isBlank c = true) :
      NoNumber (.text (String.ofList (before ++ (sign ++ word) ++ after)))

theorem ofValue?_text (s : String) : Number.ofValue? (.text s) = Number.ofText? (trim s.toList) := rfl

theorem ofValue?_eq_none {v : Value} (h : NoNumber v) : Number.ofValue? v = none := by
  cases h with
  | null => rfl
  | bool b => rfl
  | compound h => exact ofValue?_compound h
  | @blank s h =>
    have htrim : trim s.toList = [] := by
      have hdrop : s.toList.dropWhile isBlank = [] := List.dropWhile_eq_nil_iff.mpr h
      rw [trim, trimBy, hdrop]
      rfl
    rw [ofValue?_text, htrim]
    rfl
  | @special d h => simp [Number.ofValue?, Number.ofDouble?, h]
  | name hbefore hsign hword hafter =>
    rw [ofValue?_text, String.toList_ofList]
    exact ofText?_name hbefore hsign hword hafter

/-! ## Integers -/

/-- The raw values that write an integer: itself, and its decimal text with any blanks around it. -/
inductive Writes (n : ℤ) : Value → Prop
  | number : Writes n (.int n)
  | text {before after : List Char} (hbefore : ∀ c ∈ before, isBlank c = true)
      (hafter : ∀ c ∈ after, isBlank c = true) : Writes n (.text (String.ofList (before ++ integerText n ++ after)))

theorem isBlank_of_mem_integerText {n : ℤ} : ∀ c ∈ integerText n, isBlank c = false := by
  have hdigits : ∀ c ∈ decimalDigits n.natAbs, isBlank c = false := fun c hc => (isBare_of_mem_decimalDigits hc).1
  by_cases hn : n < 0
  · rw [integerText_neg hn]
    exact List.forall_mem_cons.mpr ⟨by decide, hdigits⟩
  · have habs : (n.natAbs : ℤ) = n := by omega
    rw [← habs, integerText_ofNat]
    exact hdigits

theorem integerText_ne_nil (n : ℤ) : integerText n ≠ [] :=
  List.append_ne_nil_of_right_ne_nil _ (decimalDigits_ne_nil _)

theorem Writes.ofValue? {n : ℤ} {v : Value} (h : Writes n v) (hn : n.natAbs < 10 ^ digitLimit) :
    Number.ofValue? v = Number.ofInt? n := by
  cases h with
  | number => rfl
  | text hbefore hafter =>
    have htrim := trimBy_surrounded hbefore hafter isBlank_of_mem_integerText (integerText_ne_nil n)
    rw [ofValue?_text, String.toList_ofList, trim, htrim, Number.ofText?, integer?_integerText hn]

/-- The number that an integer is compared as, if there is one. -/
inductive IsOperand (n : ℤ) : Option Number → Prop
  | kept (hn : Number.least ≤ n ∧ n ≤ Number.greatest) : IsOperand n (some (.int n))
  | rounded {d : Double} (hn : ¬(Number.least ≤ n ∧ n ≤ Number.greatest)) (hsmall : n.natAbs < Double.overflowBound)
      (hd : d.IsNearest n) : IsOperand n (some (.double d))
  | none (hlarge : Double.overflowBound ≤ n.natAbs) : IsOperand n none

theorem isOperand_ofInt? (n : ℤ) : IsOperand n (Number.ofInt? n) := by
  unfold Number.ofInt?
  split
  case isTrue hn => exact .kept hn
  case isFalse hn =>
    dsimp only
    split
    case isTrue hfinite => exact .rounded hn (Double.isFinite_ofInt_iff.mp hfinite) (Double.isNearest_ofInt hfinite)
    case isFalse hinfinite => exact .none (not_lt.mp fun h => hinfinite (Double.isFinite_ofInt_iff.mpr h))

/-! ## Operands -/

/-- An operand that a document can hold: an integer of 64 bits, or a finite floating point number. -/
def IsStorable : Number → Prop
  | .int n => Number.least ≤ n ∧ n ≤ Number.greatest
  | .double d => d.isFinite = true

theorem isStorable_of_ofValue? {v : Value} {x : Number} (h : Number.ofValue? v = some x) : IsStorable x := by
  have hscalar := ScalarOperands.scalar_of_ofValue? h
  cases x with
  | int n =>
    cases hscalar with
    | int low high =>
      simp only [IsStorable, Number.least, Number.greatest]
      omega
  | double d =>
    cases hscalar with
    | double finite => exact finite

/-- What a comparison makes of a value: it takes its number, or reports the value. -/
def verdict (c : Comparison) (field : String) (v : Value) : Option Number → Except Error Criterion
  | some x => .ok (.compare c x)
  | none => .error (.invalidValue field (Operator.compare c).token v .numeric)

theorem read_compare [Stack] {c : Comparison} {field : String} {v : Value} (hv : v.writable = true)
    (hroom : ¬v.OutOfRoom) :
    Criterion.read (.compare c) field v = verdict c field v (Number.ofValue? v) := by
  rw [Criterion.read]
  cases Number.ofValue? v with
  | some x => rfl
  | none => exact congrArg Except.error (Criterion.noNumber_eq field _ hv hroom)

end GridQuery.NumberOperands

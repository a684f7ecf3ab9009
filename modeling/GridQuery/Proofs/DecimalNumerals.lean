import Mathlib.Algebra.Group.Nat.Defs
import GridQuery.Value.Display

/-! # Decimal numerals read back

A text of bare characters, without blanks, signs and underscores, is read digit by digit. The decimal
text of an integer is such a text behind its sign, and within the digit limit it is read as the integer
that it was written for. -/
namespace GridQuery
open Text

theorem dropWhile_eq_self {p : Char → Bool} {s : List Char} (h : ∀ c ∈ s, p c = false) :
    s.dropWhile p = s := by
  cases s with
  | nil => rfl
  | cons c r => simp [List.dropWhile, h c List.mem_cons_self]

theorem trimBy_eq_self {p : Char → Bool} {s : List Char} (h : ∀ c ∈ s, p c = false) : trimBy p s = s := by
  have hr : ∀ c ∈ s.reverse, p c = false := fun c hc => h c (List.mem_reverse.mp hc)
  rw [trimBy, dropWhile_eq_self h, dropWhile_eq_self hr, List.reverse_reverse]

namespace Numeral

/-- A character that can only be a digit of a numeral, or no part of it at all. -/
def IsBare (c : Char) : Prop := isBlank c = false ∧ c ≠ '-' ∧ c ≠ '+' ∧ c ≠ '_'

instance (c : Char) : Decidable (IsBare c) := by unfold IsBare; infer_instance

theorem IsBare.isNumeralBlank_eq_false {c : Char} (h : IsBare c) : isNumeralBlank c = false := by
  simp [isNumeralBlank, h.1]

theorem splitSign_of_bare {s : List Char} (h : ∀ c ∈ s, IsBare c) : splitSign s = (false, s) := by
  cases s with
  | nil => rfl
  | cons c r =>
    obtain ⟨-, hminus, hplus, -⟩ := h c List.mem_cons_self
    unfold splitSign
    split
    · rename_i heq
      cases heq
      exact absurd rfl hminus
    · rename_i heq
      cases heq
      exact absurd rfl hplus
    · rfl

theorem groupedDigits?_of_bare {s : List Char} (hs : s ≠ []) (h : ∀ c ∈ s, IsBare c) :
    groupedDigits? s = s.mapM digitValue? := by
  induction s with
  | nil => exact absurd rfl hs
  | cons c r ih =>
    cases r with
    | nil => cases hd : digitValue? c <;> simp [groupedDigits?, hd]
    | cons e r =>
      have he : e ≠ '_' := (h e (by simp)).2.2.2
      have hrest : groupedDigits? (e :: r) = (e :: r).mapM digitValue? :=
        ih (by simp) fun x hx => h x (List.mem_cons_of_mem _ hx)
      have hstep : groupedDigits? (c :: e :: r) =
          (digitValue? c).bind fun d => (groupedDigits? (e :: r)).bind fun ds => some (d :: ds) := by
        rw [groupedDigits?]
        · rfl
        · simp
        · intro r' heq
          cases heq
          exact he rfl
      rw [hstep, hrest]
      exact (List.mapM_cons (m := Option)).symm

/-- The integer that digits stand for, unless there are too many of them. -/
def ofDigits? (negative : Bool) (ds : List Nat) : Option Int :=
  if ds.length ≤ digitLimit then some (signed negative (ofDigits ds)) else none

theorem integer?_of_bare {s : List Char} (hs : s ≠ []) (h : ∀ c ∈ s, IsBare c) :
    integer? s = (s.mapM digitValue?).bind (ofDigits? false) := by
  have htrim : trimBy isNumeralBlank s = s := trimBy_eq_self fun c hc => (h c hc).isNumeralBlank_eq_false
  rw [integer?, htrim, splitSign_of_bare h]
  dsimp only
  rw [groupedDigits?_of_bare hs h]
  rfl

/-- A minus is read for itself, and the rest as it would be without it. -/
theorem integer?_minus {s : List Char} (hs : s ≠ []) (h : ∀ c ∈ s, IsBare c) :
    integer? ('-' :: s) = (s.mapM digitValue?).bind (ofDigits? true) := by
  have hblank : ∀ c ∈ '-' :: s, isNumeralBlank c = false := by
    intro c hc
    rcases List.mem_cons.mp hc with rfl | hc
    · decide
    · exact (h c hc).isNumeralBlank_eq_false
  rw [integer?, trimBy_eq_self hblank, splitSign]
  dsimp only
  rw [groupedDigits?_of_bare hs h]
  rfl

/-! ## The digits of a number -/

/-- The values of the decimal digits of a natural number, most significant first. -/
def digits (n : Nat) : List Nat := if n < 10 then [n] else digits (n / 10) ++ [n % 10]
termination_by n

theorem digits_of_lt {n : Nat} (h : n < 10) : digits n = [n] := by rw [digits, if_pos h]

theorem digits_of_le {n : Nat} (h : 10 ≤ n) : digits n = digits (n / 10) ++ [n % 10] := by
  rw [digits, if_neg (by omega)]

theorem digitChar_eq {d : Nat} (h : d < 10) : digitChar d = Nat.digitChar d := by
  have hall : ∀ d : Fin 10, digitChar d = Nat.digitChar d := by decide
  exact hall ⟨d, h⟩

theorem decimalDigits_eq_toDigits (n : Nat) : decimalDigits n = Nat.toDigits 10 n := by
  induction n using Nat.strongRecOn with
  | ind n ih =>
    rw [decimalDigits]
    split
    · rename_i h
      rw [Nat.toDigits_of_lt_base h, digitChar_eq h]
    · rename_i h
      rw [Nat.toDigits_of_base_le (by decide) (by omega), ih (n / 10) (by omega),
        digitChar_eq (Nat.mod_lt n (by decide))]

theorem decimalDigits_eq (n : Nat) : decimalDigits n = (digits n).map digitChar := by
  induction n using Nat.strongRecOn with
  | ind n ih =>
    by_cases hn : n < 10
    · rw [decimalDigits, if_pos hn, digits_of_lt hn]
      rfl
    · rw [decimalDigits, if_neg hn, digits_of_le (by omega), ih (n / 10) (by omega)]
      simp

theorem lt_ten_of_mem_digits {n d : Nat} (h : d ∈ digits n) : d < 10 := by
  induction n using Nat.strongRecOn with
  | ind n ih =>
    by_cases hn : n < 10
    · rw [digits_of_lt hn, List.mem_singleton] at h
      omega
    · rw [digits_of_le (by omega), List.mem_append, List.mem_singleton] at h
      rcases h with h | h
      · exact ih (n / 10) (by omega) h
      · omega

theorem ofDigits_append_one (ds : List Nat) (d : Nat) : ofDigits (ds ++ [d]) = 10 * ofDigits ds + d := by
  simp [ofDigits, List.foldl_append]

theorem ofDigits_digits (n : Nat) : ofDigits (digits n) = n := by
  induction n using Nat.strongRecOn with
  | ind n ih =>
    by_cases hn : n < 10
    · rw [digits_of_lt hn]
      simp [ofDigits]
    · rw [digits_of_le (by omega), ofDigits_append_one, ih (n / 10) (by omega)]
      omega

theorem length_digits_le {n k : Nat} (hk : 0 < k) (h : n < 10 ^ k) : (digits n).length ≤ k := by
  induction k generalizing n with
  | zero => omega
  | succ k ih =>
    by_cases hn : n < 10
    · rw [digits_of_lt hn]
      exact hk
    · have hpos : 0 < k := by
        cases k with
        | zero => exact absurd h hn
        | succ k => omega
      have hrest : n / 10 < 10 ^ k := by
        rw [Nat.pow_succ] at h
        omega
      have := ih hpos hrest
      rw [digits_of_le (by omega), List.length_append]
      simpa using this

theorem ofDigits_lt {ds : List Nat} (h : ∀ d ∈ ds, d < 10) : ofDigits ds < 10 ^ ds.length := by
  -- The induction runs along the fold, so the digits that were read already are part of the statement.
  have general (ds : List Nat) (n k : Nat) (hds : ∀ d ∈ ds, d < 10) (hn : n < 10 ^ k) :
      ds.foldl (fun n d => 10 * n + d) n < 10 ^ (k + ds.length) := by
    induction ds generalizing n k with
    | nil => simpa using hn
    | cons d r ih =>
      have hd : d < 10 := hds d List.mem_cons_self
      have hstep : 10 * n + d < 10 ^ (k + 1) := by
        rw [Nat.pow_succ]
        omega
      have := ih (10 * n + d) (k + 1) (fun e he => hds e (List.mem_cons_of_mem _ he)) hstep
      rw [List.foldl_cons, List.length_cons, Nat.add_comm r.length 1, ← Nat.add_assoc]
      exact this
  have := general ds 0 0 h (by simp)
  rwa [Nat.zero_add] at this

/-! ## The decimal text of a number -/

theorem digitValue?_digitChar {d : Nat} (h : d < 10) : digitValue? (digitChar d) = some d := by
  have hall : ∀ d : Fin 10, digitValue? (digitChar d.val) = some d.val := by decide
  exact hall ⟨d, h⟩

theorem isBare_digitChar {d : Nat} (h : d < 10) : IsBare (digitChar d) := by
  have hall : ∀ d : Fin 10, IsBare (digitChar d.val) := by decide
  exact hall ⟨d, h⟩

theorem isBare_of_mem_decimalDigits {n : Nat} {c : Char} (h : c ∈ decimalDigits n) : IsBare c := by
  rw [decimalDigits_eq] at h
  obtain ⟨d, hd, rfl⟩ := List.mem_map.mp h
  exact isBare_digitChar (lt_ten_of_mem_digits hd)

theorem mapM_digitValue?_map_digitChar {ds : List Nat} (h : ∀ d ∈ ds, d < 10) :
    (ds.map digitChar).mapM digitValue? = some ds := by
  induction ds with
  | nil => rfl
  | cons d r ih =>
    have hd := digitValue?_digitChar (h d List.mem_cons_self)
    have hr := ih fun e he => h e (List.mem_cons_of_mem _ he)
    simp [List.mapM_cons, hd, hr]

theorem mapM_digitValue?_decimalDigits (n : Nat) :
    (decimalDigits n).mapM digitValue? = some (digits n) := by
  rw [decimalDigits_eq, mapM_digitValue?_map_digitChar fun d => lt_ten_of_mem_digits]

theorem integerText_ofNat (n : Nat) : integerText n = decimalDigits n := by
  have : ¬((n : Int) < 0) := by omega
  simp [integerText, this, Layout.signText]

theorem integerText_neg {n : Int} (h : n < 0) : integerText n = '-' :: decimalDigits n.natAbs := by
  simp [integerText, h, Layout.signText]

/-- The decimal text of an integer is read as this integer, or has too many digits. -/
theorem integer?_integerText_eq (n : Int) : integer? (integerText n) =
    if (digits n.natAbs).length ≤ digitLimit then some n else none := by
  have hne := decimalDigits_ne_nil n.natAbs
  have hbare : ∀ c ∈ decimalDigits n.natAbs, IsBare c := fun c => isBare_of_mem_decimalDigits
  by_cases hn : n < 0
  · rw [integerText_neg hn, integer?_minus hne hbare, mapM_digitValue?_decimalDigits, Option.bind_some,
      ofDigits?, ofDigits_digits]
    have : signed true n.natAbs = n := by
      simp only [signed, ite_true]
      omega
    rw [this]
  · have habs : (n.natAbs : Int) = n := by omega
    have htext : integerText n = decimalDigits n.natAbs := by rw [← integerText_ofNat, habs]
    rw [htext, integer?_of_bare hne hbare, mapM_digitValue?_decimalDigits, Option.bind_some, ofDigits?,
      ofDigits_digits]
    simp [signed, habs]

theorem integer?_integerText {n : Int} (h : n.natAbs < 10 ^ digitLimit) :
    integer? (integerText n) = some n := by
  rw [integer?_integerText_eq, if_pos (length_digits_le (by decide) h)]

end Numeral

theorem Value.isWritable_iff {n : Int} : isWritable n = true ↔ n.natAbs < 10 ^ Numeral.digitLimit := by
  simp [isWritable]

end GridQuery

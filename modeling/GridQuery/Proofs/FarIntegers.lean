import GridQuery.Reply
import GridQuery.Query.Criterion
import GridQuery.Proofs.DoubleRounding

/-! # Integers beyond 64 bits in conditions

An integer that does not fit into 64 bits is compared as a floating point number. Rounding leaves it on its
side of the integers that do fit, but one that lies just below the least of them may be rounded to it. -/
namespace GridQuery

/-- What a comparison says of two numbers. -/
def Comparison.Holds : Comparison → ℚ → ℚ → Prop
  | eq, a, b => a = b
  | ne, a, b => a ≠ b
  | gt, a, b => b < a
  | lt, a, b => a < b
  | gte, a, b => b ≤ a
  | lte, a, b => a ≤ b

namespace Comparison

/-- Comparisons depend on the order of the numbers only. -/
theorem holds_congr (c : Comparison) {a b b' : ℚ} (hlt : a < b ↔ a < b') (heq : a = b ↔ a = b') :
    c.Holds a b ↔ c.Holds a b' := by
  have hle : a ≤ b ↔ a ≤ b' := by rw [le_iff_lt_or_eq, le_iff_lt_or_eq, hlt, heq]
  cases c with
  | eq => exact heq
  | ne => exact not_congr heq
  | gt => rw [Holds, Holds, ← not_le, ← not_le, hle]
  | lt => exact hlt
  | gte => rw [Holds, Holds, ← not_lt, ← not_lt, hlt]
  | lte => exact hle

end Comparison

namespace FarIntegers
open Text Double

/-! ## Rounded integers -/

section Rounding
variable {n : ℕ}

/-- Between the powers 63 and 64 of two, numbers are multiples of 2048. -/
theorem lastPlace_eq (hlow : 2 ^ 63 ≤ n) (hhigh : n < 2 ^ 64) : lastPlace n 1 = 11 := by
  have hlow : (2 : ℚ) ^ ((11 : ℤ) + 52) ≤ (n : ℚ) / (1 : ℕ) := by
    rw [Nat.cast_one, div_one]
    exact_mod_cast hlow
  have hhigh : (n : ℚ) / (1 : ℕ) < 2 ^ ((11 : ℤ) + 53) := by
    rw [Nat.cast_one, div_one]
    exact_mod_cast hhigh
  have hpos : 0 < n := by
    have : (0 : ℚ) < (n : ℚ) / (1 : ℕ) := lt_of_lt_of_le (by positivity) hlow
    rw [Nat.cast_one, div_one] at this
    exact_mod_cast this
  exact le_antisymm (lastPlace_le hpos one_pos (by decide) hhigh) (le_lastPlace hpos one_pos hlow)

theorem roundedRatio_eq (hlow : 2 ^ 63 ≤ n) (hhigh : n < 2 ^ 64) :
    roundedRatio n 1 = (roundHalfEven n 2048 * 2048 : ℕ) := by
  have hscale : scaleDown n 1 11 = (n, 2048) := rfl
  rw [roundedRatio, roundedMantissa, lastPlace_eq hlow hhigh, hscale, Nat.cast_mul]
  norm_num

theorem two_pow_le_roundedRatio {k : ℕ} (h : 2 ^ k ≤ n) : (2 : ℚ) ^ k ≤ roundedRatio n 1 := by
  have hpos : 0 < n := lt_of_lt_of_le (by positivity) h
  have hle : (2 : ℚ) ^ (k : ℤ) ≤ (n : ℚ) / (1 : ℕ) := by
    rw [Nat.cast_one, div_one, zpow_natCast]
    exact_mod_cast h
  rw [← zpow_natCast]
  exact two_zpow_le_roundedRatio hpos one_pos (by omega) hle

/-- Rounding reaches the power 63 of two from the half of a unit above it. -/
theorem roundedRatio_eq_iff (hlow : 2 ^ 63 ≤ n) : roundedRatio n 1 = 2 ^ 63 ↔ n ≤ 2 ^ 63 + 1024 := by
  by_cases hhigh : n < 2 ^ 64
  · rw [roundedRatio_eq hlow hhigh]
    have hunits : roundHalfEven n 2048 * 2048 = 2 ^ 63 ↔ n ≤ 2 ^ 63 + 1024 := by
      unfold roundHalfEven
      dsimp only
      split
      · omega
      · split <;> omega
    rw [← hunits]
    norm_cast
  · have hfar : (2 : ℚ) ^ 64 ≤ roundedRatio n 1 := two_pow_le_roundedRatio (not_lt.mp hhigh)
    constructor
    · intro h
      rw [h] at hfar
      norm_num at hfar
    · intro h
      omega

end Rounding

/-! ## The operand -/

/-- The number that a value is, exactly. -/
def rational? : Value → Option ℚ
  | .int n => some n
  | .double d => d.toRat?
  | _ => none

/-- The operand that an integer becomes. -/
theorem rational?_ofInt {n : ℤ} {x : Number} (h : Number.ofInt? n = some x) :
    ∃ q, rational? x.toValue = some q ∧
      (Number.least ≤ n ∧ n ≤ Number.greatest ∧ q = n ∨
        n < Number.least ∧ q = -roundedRatio n.natAbs 1 ∨
        Number.greatest < n ∧ q = roundedRatio n.natAbs 1) := by
  unfold Number.ofInt? at h
  split at h
  case isTrue hn =>
    cases h
    exact ⟨n, rfl, Or.inl ⟨hn.1, hn.2, rfl⟩⟩
  case isFalse hn =>
    dsimp only at h
    split at h
    case isFalse => cases h
    case isTrue hfinite =>
      cases h
      simp only [Number.least, Number.greatest] at hn ⊢
      have hpos : 0 < n.natAbs := by omega
      rcases ofRatio_cases (decide (n < 0)) 1 hpos with hinf | ⟨m, e, form, hd, hsize⟩
      · rw [Double.ofInt, hinf] at hfinite
        cases hfinite
      · have hrat : rational? (Number.double (Double.ofInt n)).toValue =
            some (if decide (n < 0) = true then -size m e else size m e) := by
          rw [Number.toValue, rational?, Double.ofInt, hd, toRat?_finite]
        rw [hsize] at hrat
        refine ⟨_, hrat, Or.inr ?_⟩
        by_cases hneg : n < 0
        · exact Or.inl ⟨by omega, by simp [hneg]⟩
        · exact Or.inr ⟨by omega, by simp [hneg]⟩

/-- An operand stands to the integers of 64 bits as its integer does, unless it is rounded to the least. -/
theorem order_of_operand {n v : ℤ} {x : Number} {q : ℚ} (h : Number.ofInt? n = some x)
    (hq : rational? x.toValue = some q) (hv : Number.least ≤ v ∧ v ≤ Number.greatest) :
    (((v : ℚ) < q ↔ v < n) ∧ ((v : ℚ) = q ↔ v = n) ∧
      ¬(Number.least - 1024 ≤ n ∧ n < Number.least ∧ v = Number.least)) ∨
    ((v : ℚ) = q ∧ n < v ∧ Number.least - 1024 ≤ n ∧ n < Number.least ∧ v = Number.least) := by
  obtain ⟨q', hq', hcases⟩ := rational?_ofInt h
  obtain rfl : q' = q := Option.some.inj (hq'.symm.trans hq)
  simp only [Number.least, Number.greatest] at hv hcases ⊢
  rcases hcases with ⟨hlow, -, rfl⟩ | ⟨hbelow, rfl⟩ | ⟨habove, rfl⟩
  · exact Or.inl ⟨Int.cast_lt, Int.cast_inj, by omega⟩
  · have hreach : 2 ^ 63 ≤ n.natAbs := by omega
    have hfar := two_pow_le_roundedRatio hreach
    have hleast : (-(2 ^ 63) : ℚ) ≤ v := by
      have : (-(2 ^ 63) : ℤ) ≤ v := by omega
      exact_mod_cast this
    have hnotlt : ¬(v : ℚ) < -roundedRatio n.natAbs 1 := by
      rw [not_lt]
      linarith
    by_cases hrounded : n.natAbs ≤ 2 ^ 63 + 1024 ∧ v = -2 ^ 63
    · obtain ⟨hnear, hv⟩ := hrounded
      refine Or.inr ⟨?_, by omega, by omega, by omega, by omega⟩
      rw [(roundedRatio_eq_iff hreach).mpr hnear, hv]
      norm_num
    · have hne : (v : ℚ) ≠ -roundedRatio n.natAbs 1 := by
        intro heq
        have hround : roundedRatio n.natAbs 1 = 2 ^ 63 := by linarith
        have hv : v = -2 ^ 63 := by
          rw [hround] at heq
          exact_mod_cast heq
        exact hrounded ⟨(roundedRatio_eq_iff hreach).mp hround, hv⟩
      exact Or.inl ⟨iff_of_false hnotlt (by omega), iff_of_false hne (by omega), by omega⟩
  · have hreach : 2 ^ 63 ≤ n.natAbs := by omega
    have hfar := two_pow_le_roundedRatio hreach
    have hlt : (v : ℚ) < roundedRatio n.natAbs 1 := by
      have : (v : ℚ) < 2 ^ 63 := by
        have : v < 2 ^ 63 := by omega
        exact_mod_cast this
      linarith
    exact Or.inl ⟨iff_of_true hlt (by omega), iff_of_false hlt.ne (by omega), by omega⟩

/-! ## Conditions -/

/-- What the operators of the database ask of a stored number. -/
inductive Meets : String → ℚ → ℚ → Prop
  | eq {a b : ℚ} (h : a = b) : Meets "$eq" a b
  | ne {a b : ℚ} (h : a ≠ b) : Meets "$ne" a b
  | gt {a b : ℚ} (h : b < a) : Meets "$gt" a b
  | lt {a b : ℚ} (h : a < b) : Meets "$lt" a b
  | gte {a b : ℚ} (h : b ≤ a) : Meets "$gte" a b
  | lte {a b : ℚ} (h : a ≤ b) : Meets "$lte" a b

/-- Whether a condition on a field holds of a document that has the integer there. -/
def Selects (condition : Value) (field : String) (stored : ℤ) : Prop :=
  ∃ operator operand q, condition = .single field (.single operator operand) ∧ rational? operand = some q ∧
    Meets operator stored q

theorem meets_name {c : Comparison} {a b : ℚ} : Meets c.name a b ↔ c.Holds a b := by
  constructor
  · intro h
    generalize hname : c.name = name at h
    cases h <;> cases c <;> first | assumption | exact absurd hname (by decide)
  · intro h
    cases c with
    | eq => exact .eq h
    | ne => exact .ne h
    | gt => exact .gt h
    | lt => exact .lt h
    | gte => exact .gte h
    | lte => exact .lte h

theorem selects_single {field : String} {c : Comparison} {operand : Value} {q : ℚ} {v : ℤ}
    (hq : rational? operand = some q) :
    Selects (.single field (.single c.name operand)) field v ↔ c.Holds v q := by
  rw [← meets_name]
  constructor
  · rintro ⟨operator, operand', q', heq, hq', hmeets⟩
    simp only [Value.single, Value.document.injEq, List.cons.injEq, Prod.mk.injEq, and_true, true_and] at heq
    obtain ⟨rfl, rfl⟩ := heq
    obtain rfl : q = q' := Option.some.inj (hq.symm.trans hq')
    exact hmeets
  · exact fun hmeets => ⟨_, operand, q, rfl, hq, hmeets⟩

/-- Raw values that give an integer: the integer itself and its numerals. -/
inductive GivesInteger (n : ℤ) : Value → Prop
  | int : GivesInteger n (.int n)
  | text {s : String} (h : Numeral.integer? (trim s.toList) = some n) : GivesInteger n (.text s)

theorem GivesInteger.ofValue? {n : ℤ} {v : Value} (h : GivesInteger n v) :
    Number.ofValue? v = Number.ofInt? n := by
  cases h with
  | int => rfl
  | text h =>
    rw [Number.ofValue?, Value.plainText, Number.ofText?, h]
    all_goals simp

/-- The condition that a comparison with an integer is compiled to. -/
theorem exists_operand {field : String} {c : Comparison} {value condition : Value} {n : ℤ}
    (hvalue : GivesInteger n value)
    (hok : compileFragment field (.text (Operator.compare c).token) value = .ok condition) :
    ∃ x, Number.ofInt? n = some x ∧ condition = .single field (.single c.name x.toValue) := by
  obtain ⟨o, ho, hcompiled⟩ := bind_eq_ok_iff.mp hok
  obtain ⟨criterion, hread, hcondition⟩ := bind_eq_ok_iff.mp hcompiled
  rw [lookupOperator, Operator.ofToken?_token] at ho
  cases ho
  cases hcondition
  rw [Criterion.read, hvalue.ofValue?] at hread
  split at hread
  case h_1 x hx =>
    cases hread
    exact ⟨x, hx, rfl⟩
  case h_2 => cases hread

/-- The comparisons that an operand equal to the stored number changes, where its integer is less. -/
def changed : List Comparison := [.eq, .ne, .gt, .lte]

theorem holds_iff_of_equal (c : Comparison) {a b b' : ℚ} (heq : a = b) (hlt : b' < a) :
    (c.Holds a b ↔ c.Holds a b') ↔ c ∉ changed := by
  subst heq
  cases c <;> simp [Comparison.Holds, changed, hlt, hlt.le, hlt.ne', not_lt_of_ge hlt.le, not_le_of_gt hlt]

/-- A condition compiled from an integer holds of a stored integer of 64 bits iff the comparison holds of the
integer itself, with one exception: an integer that is at most 1024 below the least one is rounded to it, so
that the least one is not equal to it and greater than it as it should be. -/
theorem condition_keeps_meaning {field : String} {c : Comparison} {value condition : Value} {n v : ℤ}
    (hvalue : GivesInteger n value)
    (hok : compileFragment field (.text (Operator.compare c).token) value = .ok condition)
    (hv : Number.least ≤ v ∧ v ≤ Number.greatest) :
    (Selects condition field v ↔ c.Holds v n) ↔
      ¬(Number.least - 1024 ≤ n ∧ n < Number.least ∧ v = Number.least ∧ c ∈ changed) := by
  obtain ⟨x, hx, rfl⟩ := exists_operand hvalue hok
  obtain ⟨q, hq, -⟩ := rational?_ofInt hx
  rw [selects_single hq]
  rcases order_of_operand hx hq hv with ⟨hlt, heq, hapart⟩ | ⟨heq, hlt, hlow, hhigh, hleast⟩
  · have hsame : c.Holds v q ↔ c.Holds v n :=
      c.holds_congr (hlt.trans Int.cast_lt.symm) (heq.trans Int.cast_inj.symm)
    exact iff_of_true hsame fun h => hapart ⟨h.1, h.2.1, h.2.2.1⟩
  · rw [holds_iff_of_equal c heq (Int.cast_lt.mpr hlt)]
    exact not_congr ⟨fun h => ⟨hlow, hhigh, hleast, h⟩, fun h => h.2.2.2⟩

/-- The first numeral beyond the exception is kept apart from the least integer. -/
theorem condition_keeps_meaning_below :
    GivesInteger (-9223372036854776833) (.text "-9223372036854776833") ∧
    compileFragment "Price" (.text (Operator.compare .gt).token) (.text "-9223372036854776833") =
      .ok (.single "Price" (.single "$gt" (.double (.finite true 4503599627370497 11 (by decide))))) ∧
    (Number.least ≤ -9223372036854775808 ∧ -9223372036854775808 ≤ Number.greatest) ∧
    (Selects (.single "Price" (.single "$gt" (.double (.finite true 4503599627370497 11 (by decide))))) "Price"
      (-9223372036854775808) ↔ Comparison.gt.Holds (-9223372036854775808 : ℤ) (-9223372036854776833 : ℤ)) := by
  have hvalue : GivesInteger (-9223372036854776833) (.text "-9223372036854776833") := .text (by rfl)
  have hok : compileFragment "Price" (.text (Operator.compare .gt).token) (.text "-9223372036854776833") =
    .ok (.single "Price" (.single "$gt" (.double (.finite true 4503599627370497 11 (by decide))))) := by rfl
  have hv : Number.least ≤ -9223372036854775808 ∧ -9223372036854775808 ≤ Number.greatest := by decide
  exact ⟨hvalue, hok, hv, (condition_keeps_meaning hvalue hok hv).mpr (by decide)⟩

/-- The integer right below the least one becomes the least one, which is then not greater. -/
theorem meaning_lost_below_least :
    compileFragment "Price" (.text (Operator.compare .gt).token) (.int (-9223372036854775809)) =
      .ok (.single "Price" (.single "$gt" (.double (.finite true 4503599627370496 11 (by decide))))) ∧
    (Number.least ≤ -9223372036854775808 ∧ -9223372036854775808 ≤ Number.greatest) ∧
    ¬(Selects (.single "Price" (.single "$gt" (.double (.finite true 4503599627370496 11 (by decide))))) "Price"
      (-9223372036854775808) ↔
        Comparison.gt.Holds (-9223372036854775808 : ℤ) (-9223372036854775809 : ℤ)) := by
  refine ⟨by rfl, by decide, ?_⟩
  have hq : rational? (.double (.finite true 4503599627370496 11 (by decide))) = some (-9223372036854775808) := by
    rw [rational?, toRat?_finite]
    norm_num [size]
  have hselects :
      Selects (.single "Price" (.single "$gt" (.double (.finite true 4503599627370496 11 (by decide))))) "Price"
        (-9223372036854775808) ↔ Comparison.gt.Holds (-9223372036854775808 : ℤ) (-9223372036854775808) :=
    selects_single (c := .gt) hq
  rw [hselects]
  norm_num [Comparison.Holds]

end FarIntegers
end GridQuery

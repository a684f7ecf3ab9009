import Mathlib.Algebra.Order.Field.Power
import Mathlib.Algebra.Order.Field.Rat
import Mathlib.Tactic.FieldSimp
import Mathlib.Tactic.Linarith
import Mathlib.Tactic.Positivity
import Mathlib.Tactic.Ring
import GridQuery.Number.Double

/-! # Rounding to floating point numbers

A quotient is rounded to a whole number of units, where the unit is a power of two that leaves at most
fifty-three binary digits. The rounded number is half a unit away at most, and whole numbers of units are not
passed over. -/
namespace GridQuery

/-! ## Rounding to integers -/

section Integers
variable {num den c : ℕ}

/-- The quotient is rounded down where the remainder is small, and up where it is large. -/
theorem roundHalfEven_cases (num den : ℕ) :
    roundHalfEven num den = num / den ∧ 2 * (num % den) ≤ den ∨
      roundHalfEven num den = num / den + 1 ∧ den ≤ 2 * (num % den) := by
  unfold roundHalfEven
  dsimp only
  split
  · omega
  · split <;> omega

theorem le_roundHalfEven (hd : 0 < den) (h : c * den ≤ num) : c ≤ roundHalfEven num den := by
  have hq : c ≤ num / den := (Nat.le_div_iff_mul_le hd).mpr h
  rcases roundHalfEven_cases num den with ⟨hr, -⟩ | ⟨hr, -⟩ <;> omega

theorem roundHalfEven_le (hd : 0 < den) (h : num ≤ c * den) : roundHalfEven num den ≤ c := by
  have hq : num / den ≤ c := Nat.div_le_of_le_mul (by rwa [Nat.mul_comm])
  rcases roundHalfEven_cases num den with ⟨hr, -⟩ | ⟨hr, hhalf⟩
  · omega
  · have hlt : num / den < c := by
      refine Nat.lt_of_le_of_ne hq ?_
      rintro rfl
      have hsplit := Nat.div_add_mod num den
      rw [Nat.mul_comm] at hsplit
      omega
    omega

/-- A quotient is its whole part and a fraction. -/
theorem div_eq_whole_add (num : ℕ) (hd : 0 < den) :
    (num : ℚ) / den = (num / den : ℕ) + (num % den : ℕ) / den := by
  have hne : (den : ℚ) ≠ 0 := by exact_mod_cast hd.ne'
  rw [div_eq_iff hne, add_mul, div_mul_cancel₀ _ hne]
  exact_mod_cast (Nat.div_add_mod' num den).symm

/-- The rounded quotient is half a unit away at most. -/
theorem abs_roundHalfEven_sub_le (num : ℕ) (hd : 0 < den) :
    |(roundHalfEven num den : ℚ) - num / den| ≤ 1 / 2 := by
  have hpos : (0 : ℚ) < den := by exact_mod_cast hd
  have hrest : (0 : ℚ) ≤ (num % den : ℕ) / den := by positivity
  have hone : ((num % den : ℕ) : ℚ) / den ≤ 1 := by
    rw [div_le_one hpos]
    exact_mod_cast (Nat.mod_lt num hd).le
  rw [div_eq_whole_add num hd, abs_le]
  rcases roundHalfEven_cases num den with ⟨hr, hhalf⟩ | ⟨hr, hhalf⟩
  · have hhalf : ((num % den : ℕ) : ℚ) / den ≤ 1 / 2 := by
      rw [div_le_iff₀ hpos]
      have : (2 * (num % den : ℕ) : ℚ) ≤ den := by exact_mod_cast hhalf
      linarith
    rw [hr]
    constructor <;> linarith
  · have hhalf : (1 : ℚ) / 2 ≤ ((num % den : ℕ) : ℚ) / den := by
      rw [le_div_iff₀ hpos]
      have : (den : ℚ) ≤ 2 * (num % den : ℕ) := by exact_mod_cast hhalf
      linarith
    rw [hr, Nat.cast_add, Nat.cast_one]
    constructor <;> linarith

end Integers

/-! ## Powers of two -/

section Powers
variable {num den : ℕ}

theorem scaleDown_pos (num : ℕ) (hd : 0 < den) (e : ℤ) : 0 < (scaleDown num den e).2 := by
  cases e with
  | ofNat k => exact Nat.mul_pos hd (Nat.pow_pos (by decide))
  | negSucc k => exact hd

theorem scaleDown_div (num den : ℕ) (e : ℤ) :
    ((scaleDown num den e).1 : ℚ) / (scaleDown num den e).2 = num / den / 2 ^ e := by
  cases e with
  | ofNat k =>
    have hpow : ((Nat.pow 2 k : ℕ) : ℚ) = 2 ^ k := by exact_mod_cast rfl
    rw [scaleDown, Int.ofNat_eq_natCast, zpow_natCast, Nat.cast_mul, hpow, div_div]
  | negSucc k =>
    have hpow : ((Nat.pow 2 (k + 1) : ℕ) : ℚ) = 2 ^ (k + 1) := by exact_mod_cast rfl
    rw [scaleDown, zpow_negSucc, Nat.cast_mul, hpow, div_inv_eq_mul, div_mul_eq_mul_div]

/-- The power of two below a quotient. -/
theorem floorLog2_spec (hn : 0 < num) (hd : 0 < den) :
    (2 : ℚ) ^ floorLog2 num den ≤ num / den ∧ (num : ℚ) / den < 2 ^ (floorLog2 num den + 1) := by
  have hpos : (0 : ℚ) < den := by exact_mod_cast hd
  have hnum : (2 : ℚ) ^ num.log2 ≤ num ∧ (num : ℚ) < 2 ^ (num.log2 + 1) :=
    ⟨by exact_mod_cast Nat.log2_self_le hn.ne', by exact_mod_cast Nat.lt_log2_self⟩
  have hden : (2 : ℚ) ^ den.log2 ≤ den ∧ (den : ℚ) < 2 ^ (den.log2 + 1) :=
    ⟨by exact_mod_cast Nat.log2_self_le hd.ne', by exact_mod_cast Nat.lt_log2_self⟩
  have hlow : (2 : ℚ) ^ ((num.log2 : ℤ) - den.log2 - 1) ≤ num / den := by
    have hsplit : (2 : ℚ) ^ ((num.log2 : ℤ) - den.log2 - 1) * 2 ^ (den.log2 + 1) = 2 ^ num.log2 := by
      rw [← zpow_natCast, ← zpow_natCast, ← zpow_add₀ (by norm_num)]
      congr 1
      push_cast
      ring
    rw [le_div_iff₀ hpos]
    calc (2 : ℚ) ^ ((num.log2 : ℤ) - den.log2 - 1) * den
        ≤ 2 ^ ((num.log2 : ℤ) - den.log2 - 1) * 2 ^ (den.log2 + 1) := by gcongr; exact hden.2.le
      _ = 2 ^ num.log2 := hsplit
      _ ≤ num := hnum.1
  have hhigh : (num : ℚ) / den < 2 ^ ((num.log2 : ℤ) - den.log2 + 1) := by
    have hsplit : (2 : ℚ) ^ ((num.log2 : ℤ) - den.log2 + 1) * 2 ^ den.log2 = 2 ^ (num.log2 + 1) := by
      rw [← zpow_natCast, ← zpow_natCast, ← zpow_add₀ (by norm_num)]
      congr 1
      push_cast
      ring
    rw [div_lt_iff₀ hpos]
    calc (num : ℚ) < 2 ^ (num.log2 + 1) := hnum.2
      _ = 2 ^ ((num.log2 : ℤ) - den.log2 + 1) * 2 ^ den.log2 := hsplit.symm
      _ ≤ 2 ^ ((num.log2 : ℤ) - den.log2 + 1) * den := by gcongr; exact hden.1
  have htest : (scaleDown num den ((num.log2 : ℤ) - den.log2)).2 ≤
      (scaleDown num den ((num.log2 : ℤ) - den.log2)).1 ↔
      (2 : ℚ) ^ ((num.log2 : ℤ) - den.log2) ≤ num / den := by
    have hpos2 : (0 : ℚ) < (scaleDown num den ((num.log2 : ℤ) - den.log2)).2 := by
      exact_mod_cast scaleDown_pos num hd _
    have hpow : (0 : ℚ) < 2 ^ ((num.log2 : ℤ) - den.log2) := by positivity
    rw [← Nat.cast_le (α := ℚ), ← one_le_div hpos2, scaleDown_div, one_le_div hpow]
  unfold floorLog2
  dsimp only
  split
  · rename_i h
    exact ⟨htest.mp h, hhigh⟩
  · rename_i h
    rw [sub_add_cancel]
    exact ⟨hlow, lt_of_not_ge fun hle => h (htest.mpr hle)⟩

end Powers

namespace Double

/-! ## Units -/

section Units
variable {num den c : ℕ} {j : ℤ}

theorem lastPlace_le (hn : 0 < num) (hd : 0 < den) (hj : leastExponent ≤ j)
    (h : (num : ℚ) / den < 2 ^ (j + 53)) : lastPlace num den ≤ j := by
  have hlog : floorLog2 num den < j + 53 :=
    (zpow_lt_zpow_iff_right₀ (by norm_num)).mp ((floorLog2_spec hn hd).1.trans_lt h)
  rw [lastPlace]
  omega

theorem le_lastPlace (hn : 0 < num) (hd : 0 < den) (h : (2 : ℚ) ^ (j + 52) ≤ num / den) :
    j ≤ lastPlace num den := by
  have hlog : j + 52 < floorLog2 num den + 1 :=
    (zpow_lt_zpow_iff_right₀ (by norm_num)).mp (h.trans_lt (floorLog2_spec hn hd).2)
  rw [lastPlace]
  omega

theorem lt_two_zpow_lastPlace (hn : 0 < num) (hd : 0 < den) : (num : ℚ) / den < 2 ^ (lastPlace num den + 53) := by
  refine (floorLog2_spec hn hd).2.trans_le (zpow_le_zpow_right₀ (by norm_num) ?_)
  rw [lastPlace]
  omega

theorem two_zpow_lastPlace_le (hn : 0 < num) (hd : 0 < den) (h : leastExponent < lastPlace num den) :
    (2 : ℚ) ^ (lastPlace num den + 52) ≤ num / den := by
  have hplace : lastPlace num den + 52 = floorLog2 num den := by
    rw [lastPlace] at h ⊢
    omega
  rw [hplace]
  exact (floorLog2_spec hn hd).1

/-- The number of units that a quotient is rounded to. -/
def roundedMantissa (num den : ℕ) : ℕ :=
  let s := scaleDown num den (lastPlace num den)
  roundHalfEven s.1 s.2

/-- The value that a quotient is rounded to, unless that is infinite. -/
def roundedRatio (num den : ℕ) : ℚ := roundedMantissa num den * 2 ^ lastPlace num den

/-- The number of units is half of one away at most. -/
theorem abs_roundedMantissa_sub_le (num : ℕ) (hd : 0 < den) :
    |(roundedMantissa num den : ℚ) - num / den / 2 ^ lastPlace num den| ≤ 1 / 2 := by
  rw [← scaleDown_div]
  exact abs_roundHalfEven_sub_le _ (scaleDown_pos num hd (lastPlace num den))

theorem abs_roundedRatio_sub_le (num : ℕ) (hd : 0 < den) :
    |roundedRatio num den - num / den| ≤ 2 ^ lastPlace num den / 2 := by
  have hunit : (0 : ℚ) < 2 ^ lastPlace num den := by positivity
  have hfactor : roundedRatio num den - num / den =
      (roundedMantissa num den - num / den / 2 ^ lastPlace num den) * 2 ^ lastPlace num den := by
    rw [roundedRatio, sub_mul, div_mul_cancel₀ _ hunit.ne']
  rw [hfactor, abs_mul, abs_of_pos hunit]
  have hscaled := mul_le_mul_of_nonneg_right (abs_roundedMantissa_sub_le num hd) hunit.le
  linarith

theorem le_roundedMantissa (hd : 0 < den) (h : (c : ℚ) * 2 ^ lastPlace num den ≤ num / den) :
    c ≤ roundedMantissa num den := by
  have hunit : (0 : ℚ) < 2 ^ lastPlace num den := by positivity
  have hscale := scaleDown_pos num hd (lastPlace num den)
  have hscaleQ : (0 : ℚ) < (scaleDown num den (lastPlace num den)).2 := by exact_mod_cast hscale
  refine le_roundHalfEven hscale ?_
  rw [← Nat.cast_le (α := ℚ), Nat.cast_mul, ← le_div_iff₀ hscaleQ, scaleDown_div]
  rwa [le_div_iff₀ hunit]

theorem roundedMantissa_le (hd : 0 < den) (h : (num : ℚ) / den ≤ c * 2 ^ lastPlace num den) :
    roundedMantissa num den ≤ c := by
  have hunit : (0 : ℚ) < 2 ^ lastPlace num den := by positivity
  have hscale := scaleDown_pos num hd (lastPlace num den)
  have hscaleQ : (0 : ℚ) < (scaleDown num den (lastPlace num den)).2 := by exact_mod_cast hscale
  refine roundHalfEven_le hscale ?_
  rw [← Nat.cast_le (α := ℚ), Nat.cast_mul, ← div_le_iff₀ hscaleQ, scaleDown_div]
  rwa [div_le_iff₀ hunit]

theorem roundedMantissa_le_bound (hn : 0 < num) (hd : 0 < den) : roundedMantissa num den ≤ mantissaBound := by
  refine roundedMantissa_le hd ((lt_two_zpow_lastPlace hn hd).le.trans_eq ?_)
  rw [zpow_add₀ (by norm_num), mul_comm]
  norm_num [mantissaBound]

theorem bound_le_roundedMantissa (hn : 0 < num) (hd : 0 < den) (h : leastExponent < lastPlace num den) :
    mantissaBound / 2 ≤ roundedMantissa num den := by
  refine le_roundedMantissa hd ((two_zpow_lastPlace_le hn hd h).trans_eq' ?_)
  rw [zpow_add₀ (by norm_num), mul_comm]
  norm_num [mantissaBound]

/-- A whole number of units below a quotient is not passed over. -/
theorem le_roundedRatio (hd : 0 < den) (h : (c : ℚ) * 2 ^ lastPlace num den ≤ num / den) :
    (c : ℚ) * 2 ^ lastPlace num den ≤ roundedRatio num den := by
  have hc := le_roundedMantissa hd h
  rw [roundedRatio]
  gcongr

theorem roundedRatio_le (hd : 0 < den) (h : (num : ℚ) / den ≤ c * 2 ^ lastPlace num den) :
    roundedRatio num den ≤ c * 2 ^ lastPlace num den := by
  have hc := roundedMantissa_le hd h
  rw [roundedRatio]
  gcongr

/-- A power of two below a quotient is not passed over either, from the least normal number on. -/
theorem two_zpow_le_roundedRatio (hn : 0 < num) (hd : 0 < den) (hj : -1022 ≤ j)
    (h : (2 : ℚ) ^ j ≤ num / den) : (2 : ℚ) ^ j ≤ roundedRatio num den := by
  have hlog : j < floorLog2 num den + 1 :=
    (zpow_lt_zpow_iff_right₀ (by norm_num)).mp (h.trans_lt (floorLog2_spec hn hd).2)
  have hplace : floorLog2 num den = lastPlace num den + 52 := by
    rw [lastPlace, leastExponent]
    omega
  have hunits : (2 : ℚ) ^ floorLog2 num den = (2 ^ 52 : ℕ) * 2 ^ lastPlace num den := by
    rw [hplace, zpow_add₀ (by norm_num), mul_comm]
    norm_num
  calc (2 : ℚ) ^ j ≤ 2 ^ floorLog2 num den := zpow_le_zpow_right₀ (by norm_num) (by omega)
    _ = (2 ^ 52 : ℕ) * 2 ^ lastPlace num den := hunits
    _ ≤ roundedRatio num den := le_roundedRatio hd (hunits ▸ (floorLog2_spec hn hd).1)

/-- An integer is a whole number of units that are not larger than one. -/
theorem units_of_integer (c : ℕ) (h : j ≤ 0) : ((c * 2 ^ (-j).toNat : ℕ) : ℚ) * 2 ^ j = c := by
  rw [Nat.cast_mul, Nat.cast_pow, Nat.cast_ofNat, mul_assoc, ← zpow_natCast, ← zpow_add₀ (by norm_num)]
  rw [Int.toNat_of_nonneg (by omega), neg_add_cancel, zpow_zero, mul_one]

/-- An integer of fifty-three binary digits is not passed over. -/
theorem natCast_le_roundedRatio (hn : 0 < num) (hd : 0 < den) (hc : c < 2 ^ 53) (h : (c : ℚ) ≤ num / den) :
    (c : ℚ) ≤ roundedRatio num den := by
  by_cases hfar : (2 : ℚ) ^ (53 : ℤ) ≤ num / den
  · have hc : (c : ℚ) ≤ 2 ^ (53 : ℤ) := by exact_mod_cast hc.le
    exact hc.trans (two_zpow_le_roundedRatio hn hd (by decide) hfar)
  · have hplace : lastPlace num den ≤ 0 := lastPlace_le hn hd (by decide) (by simpa using not_le.mp hfar)
    rw [← units_of_integer c hplace] at h ⊢
    exact le_roundedRatio hd h

theorem roundedRatio_le_natCast (hn : 0 < num) (hd : 0 < den) (hc : c < 2 ^ 53) (h : (num : ℚ) / den ≤ c) :
    roundedRatio num den ≤ c := by
  have hnear : (num : ℚ) / den < 2 ^ ((0 : ℤ) + 53) := by
    have hc : (c : ℚ) < 2 ^ ((0 : ℤ) + 53) := by exact_mod_cast hc
    exact h.trans_lt hc
  have hplace : lastPlace num den ≤ 0 := lastPlace_le hn hd (by decide) hnear
  rw [← units_of_integer c hplace] at h ⊢
  exact roundedRatio_le hd h

end Units

/-! ## Values -/

/-- The size of a finite number. -/
def size (m : ℕ) (e : ℤ) : ℚ := m * 2 ^ e

theorem magnitude_pos (m : ℕ) (e : ℤ) : 0 < (magnitude m e).2 := by
  cases e with
  | ofNat k => exact Nat.one_pos
  | negSucc k => exact Nat.pow_pos (by decide)

theorem magnitude_div (m : ℕ) (e : ℤ) : ((magnitude m e).1 : ℚ) / (magnitude m e).2 = size m e := by
  cases e with
  | ofNat k =>
    have hpow : ((Nat.pow 2 k : ℕ) : ℚ) = 2 ^ k := by exact_mod_cast rfl
    rw [magnitude, size, Int.ofNat_eq_natCast, zpow_natCast, Nat.cast_mul, hpow, Nat.cast_one, div_one]
  | negSucc k =>
    have hpow : ((Nat.pow 2 (k + 1) : ℕ) : ℚ) = 2 ^ (k + 1) := by exact_mod_cast rfl
    rw [magnitude, size, zpow_negSucc, hpow, div_eq_mul_inv]

theorem toRat?_finite (negative : Bool) {m : ℕ} {e : ℤ} (form : HasForm m e) :
    toRat? (.finite negative m e form) = some (if negative then -size m e else size m e) := by
  rw [toRat?, ← magnitude_div, Rat.mkRat_eq_div, Int.cast_natCast]

/-- What rounding gives has a form once a carry is settled, unless its exponent is too large. -/
theorem hasForm_settled_iff {m : ℕ} {e : ℤ} (hm : m ≤ mantissaBound) (he : leastExponent ≤ e)
    (hnormal : mantissaBound / 2 ≤ m ∨ e = leastExponent) :
    HasForm (if m = mantissaBound then mantissaBound / 2 else m) (if m = mantissaBound then e + 1 else e) ↔
      (if m = mantissaBound then e + 1 else e) ≤ greatestExponent := by
  refine ⟨HasForm.greatest, fun hgreatest => ?_⟩
  by_cases hcarried : m = mantissaBound
  · rw [if_pos hcarried] at hgreatest
    rw [if_pos hcarried, if_pos hcarried]
    exact ⟨by decide, by omega, hgreatest, Or.inl (le_refl _)⟩
  · rw [if_neg hcarried] at hgreatest
    rw [if_neg hcarried, if_neg hcarried]
    exact ⟨by omega, he, hgreatest, hnormal⟩

theorem size_settled (m : ℕ) (e : ℤ) :
    size (if m = mantissaBound then mantissaBound / 2 else m) (if m = mantissaBound then e + 1 else e) =
      m * 2 ^ e := by
  by_cases hm : m = mantissaBound
  · rw [if_pos hm, if_pos hm, size, zpow_add_one₀ (by norm_num), hm]
    norm_num [mantissaBound]
    ring
  · rw [if_neg hm, if_neg hm, size]

/-- A number is settled without a change of its value, or becomes infinite. -/
theorem settle_cases (negative : Bool) (m : ℕ) (e : ℤ) : settle negative m e = .infinite negative ∨
    ∃ m' e' form, settle negative m e = .finite negative m' e' form ∧ size m' e' = m * 2 ^ e := by
  by_cases h : HasForm (if m = mantissaBound then mantissaBound / 2 else m) (if m = mantissaBound then e + 1 else e)
  · exact Or.inr ⟨_, _, h, dif_pos h, size_settled m e⟩
  · exact Or.inl (dif_neg h)

section Quotients
variable {num den : ℕ}

theorem ofRatio_eq_settle (negative : Bool) (den : ℕ) (hn : 0 < num) :
    ofRatio negative num den = settle negative (roundedMantissa num den) (lastPlace num den) :=
  if_neg hn.ne'

theorem ofRatio_cases (negative : Bool) (den : ℕ) (hn : 0 < num) : ofRatio negative num den = .infinite negative ∨
    ∃ m e form, ofRatio negative num den = .finite negative m e form ∧ size m e = roundedRatio num den := by
  rw [ofRatio_eq_settle negative den hn]
  exact settle_cases negative (roundedMantissa num den) (lastPlace num den)

/-- A rounded quotient has a form, unless its exponent is too large. -/
theorem hasForm_rounded_iff (hn : 0 < num) (hd : 0 < den) :
    HasForm (if roundedMantissa num den = mantissaBound then mantissaBound / 2 else roundedMantissa num den)
        (if roundedMantissa num den = mantissaBound then lastPlace num den + 1 else lastPlace num den) ↔
      (if roundedMantissa num den = mantissaBound then lastPlace num den + 1 else lastPlace num den) ≤
        greatestExponent := by
  have hplace : leastExponent ≤ lastPlace num den := le_max_left _ _
  refine hasForm_settled_iff (roundedMantissa_le_bound hn hd) hplace ?_
  rcases hplace.lt_or_eq with hlt | heq
  · exact Or.inl (bound_le_roundedMantissa hn hd hlt)
  · exact Or.inr heq.symm

theorem exists_ofRatio_eq_roundedRatio (negative : Bool) (hn : 0 < num) (hd : 0 < den)
    (h : lastPlace num den < greatestExponent) :
    ∃ m e form, ofRatio negative num den = .finite negative m e form ∧ size m e = roundedRatio num den := by
  have hform := (hasForm_rounded_iff hn hd).mpr (by split <;> omega)
  exact ⟨_, _, hform, (ofRatio_eq_settle negative den hn).trans (dif_pos hform), size_settled _ _⟩

/-- A quotient that is not too large is rounded to a finite number, half a unit away at most. -/
theorem exists_ofRatio (negative : Bool) {j : ℤ} (hd : 0 < den) (hlow : leastExponent ≤ j)
    (hhigh : j < greatestExponent) (h : (num : ℚ) / den < 2 ^ (j + 53)) :
    ∃ m e form, ofRatio negative num den = .finite negative m e form ∧ |size m e - num / den| ≤ 2 ^ j / 2 := by
  rcases Nat.eq_zero_or_pos num with rfl | hn
  · refine ⟨0, leastExponent, by decide, if_pos rfl, ?_⟩
    simp only [size, Nat.cast_zero, zero_mul, zero_div, sub_zero, abs_zero]
    positivity
  · have hplace := lastPlace_le hn hd hlow h
    obtain ⟨m, e, form, hfinite, hsize⟩ :=
      exists_ofRatio_eq_roundedRatio negative hn hd (hplace.trans_lt hhigh)
    refine ⟨m, e, form, hfinite, ?_⟩
    have hunit : (2 : ℚ) ^ lastPlace num den ≤ 2 ^ j := zpow_le_zpow_right₀ (by norm_num) hplace
    rw [hsize]
    exact (abs_roundedRatio_sub_le num hd).trans (by linarith)

/-- Integers of fifty-three binary digits are not changed. -/
theorem exists_ofRatio_eq (negative : Bool) {c : ℕ} (hd : 0 < den) (hc : c < 2 ^ 53) :
    ∃ m e form, ofRatio negative (c * den) den = .finite negative m e form ∧ size m e = c := by
  rcases Nat.eq_zero_or_pos c with rfl | hpos
  · refine ⟨0, leastExponent, by decide, if_pos (zero_mul den), ?_⟩
    rw [size, Nat.cast_zero, zero_mul]
  · have hn : 0 < c * den := Nat.mul_pos hpos hd
    have hdQ : (den : ℚ) ≠ 0 := by exact_mod_cast hd.ne'
    have hvalue : ((c * den : ℕ) : ℚ) / den = c := by rw [Nat.cast_mul, mul_div_cancel_right₀ _ hdQ]
    have hplace : lastPlace (c * den) den ≤ 0 := by
      refine lastPlace_le hn hd (by decide) ?_
      rw [hvalue]
      exact_mod_cast hc
    have hround : roundedRatio (c * den) den = c :=
      le_antisymm (roundedRatio_le_natCast hn hd hc hvalue.le) (natCast_le_roundedRatio hn hd hc hvalue.ge)
    obtain ⟨m, e, form, hfinite, hsize⟩ :=
      exists_ofRatio_eq_roundedRatio negative hn hd (hplace.trans_lt (by decide))
    exact ⟨m, e, form, hfinite, hsize.trans hround⟩

end Quotients
end Double
end GridQuery

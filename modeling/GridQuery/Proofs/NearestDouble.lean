import Mathlib.Algebra.Ring.Int.Parity
import Mathlib.Tactic.NormNum.Parity
import GridQuery.Proofs.DoubleRounding

/-! # The nearest floating point number

Of all floating point numbers, rounding gives the one that is nearest to a quotient, and of two that are equally
near the one with the even mantissa. It gives an infinity from half a unit above the greatest number on. -/
namespace GridQuery

/-! ## The nearest integer -/

section Integers
variable {num den : ℕ}

/-- Half-way between two integers, the even one is taken. -/
theorem even_roundHalfEven_of_half (hd : 0 < den) (h : |(roundHalfEven num den : ℚ) - num / den| = 1 / 2) :
    Even (roundHalfEven num den) := by
  have hpos : (0 : ℚ) < den := by exact_mod_cast hd
  have hrest : (0 : ℚ) ≤ (num % den : ℕ) / den := by positivity
  have hone : ((num % den : ℕ) : ℚ) / den < 1 := by
    rw [div_lt_one hpos]
    exact_mod_cast Nat.mod_lt num hd
  rw [div_eq_whole_add num hd] at h
  unfold roundHalfEven at h ⊢
  dsimp only at h ⊢
  split at h
  case isTrue hlow =>
    have hlow : ((num % den : ℕ) : ℚ) / den < 1 / 2 := by
      rw [div_lt_iff₀ hpos]
      have : (2 * (num % den : ℕ) : ℚ) < den := by exact_mod_cast hlow
      linarith
    have habs : |((num / den : ℕ) : ℚ) - ((num / den : ℕ) + (num % den : ℕ) / den)| < 1 / 2 := by
      rw [abs_lt]
      constructor <;> linarith
    exact absurd h habs.ne
  case isFalse hlow =>
    rw [if_neg hlow]
    split at h
    case isTrue hhigh =>
      have hhigh : (1 : ℚ) / 2 < ((num % den : ℕ) : ℚ) / den := by
        rw [lt_div_iff₀ hpos]
        have : (den : ℚ) < 2 * (num % den : ℕ) := by exact_mod_cast hhigh
        linarith
      have habs : |((num / den + 1 : ℕ) : ℚ) - ((num / den : ℕ) + (num % den : ℕ) / den)| < 1 / 2 := by
        rw [Nat.cast_add, Nat.cast_one, abs_lt]
        constructor <;> linarith
      exact absurd h habs.ne
    case isFalse hhigh =>
      rw [if_neg hhigh, Nat.even_iff]
      omega

/-- No integer is nearer to a quotient than the rounded one, and if another one is as near, that is even. -/
theorem roundHalfEven_nearest (num : ℕ) (hd : 0 < den) (k : ℤ) :
    |(roundHalfEven num den : ℚ) - num / den| ≤ |(k : ℚ) - num / den| ∧
      (|(roundHalfEven num den : ℚ) - num / den| = |(k : ℚ) - num / den| →
        k = roundHalfEven num den ∨ Even (roundHalfEven num den)) := by
  by_cases hk : k = roundHalfEven num den
  · rw [hk, Int.cast_natCast]
    exact ⟨le_refl _, fun _ => Or.inl rfl⟩
  · have hapart : (1 : ℚ) ≤ |(k : ℚ) - roundHalfEven num den| := by
      exact_mod_cast Int.one_le_abs (sub_ne_zero.mpr hk)
    have hpath := abs_sub_le (k : ℚ) (num / den) (roundHalfEven num den)
    rw [abs_sub_comm ((num : ℚ) / den)] at hpath
    have hhalf := abs_roundHalfEven_sub_le num hd
    exact ⟨by linarith, fun heq => Or.inr (even_roundHalfEven_of_half hd (by linarith))⟩

end Integers

namespace Double

/-! ## The numbers there are -/

/-- A finite number is nearest to a value if no other one is nearer; one that is as near leaves it the even
mantissa. -/
inductive IsNearest (x : ℚ) : Double → Prop
  | mk {negative : Bool} {m : ℕ} {e : ℤ} {form : HasForm m e} {y : ℚ}
      (value : toRat? (.finite negative m e form) = some y)
      (near : ∀ d z, toRat? d = some z → |y - x| ≤ |z - x| ∧ (|y - x| = |z - x| → z = y ∨ Even m)) :
      IsNearest x (.finite negative m e form)

theorem size_nonneg (m : ℕ) (e : ℤ) : 0 ≤ size m e := by
  unfold size
  positivity

theorem exists_abs_eq_size {d : Double} {z : ℚ} (hz : d.toRat? = some z) :
    ∃ m e, m < mantissaBound ∧ leastExponent ≤ e ∧ |z| = size m e := by
  cases d with
  | infinite negative => cases hz
  | nan => cases hz
  | finite negative m e form =>
    rw [toRat?_finite, Option.some.injEq] at hz
    refine ⟨m, e, form.short, form.least, ?_⟩
    rw [← hz]
    cases negative <;> simp [abs_of_nonneg (size_nonneg m e)]

/-- A number is a whole number of units, or it is too small to have fifty-three binary digits in that unit. -/
theorem units_or_small {z : ℚ} {m : ℕ} {e : ℤ} (hm : m < mantissaBound) (he : leastExponent ≤ e)
    (hz : |z| = size m e) (j : ℤ) :
    (∃ k : ℤ, z = k * 2 ^ j) ∨ leastExponent < j ∧ |z| < 2 ^ (j + 52) := by
  by_cases hj : j ≤ e
  · have hunits : size m e = (m * 2 ^ (e - j).toNat : ℕ) * 2 ^ j := by
      have hsplit : e = (e - j).toNat + j := by omega
      rw [size, Nat.cast_mul, Nat.cast_pow, Nat.cast_ofNat, mul_assoc, ← zpow_natCast,
        ← zpow_add₀ (by norm_num), ← hsplit]
    refine Or.inl ?_
    rcases abs_choice z with habs | habs
    · exact ⟨(m * 2 ^ (e - j).toNat : ℕ), by rw [← habs, hz, hunits, Int.cast_natCast]⟩
    · refine ⟨-(m * 2 ^ (e - j).toNat : ℕ), ?_⟩
      rw [Int.cast_neg, Int.cast_natCast, neg_mul, ← hunits, ← hz, habs, neg_neg]
  · refine Or.inr ⟨by omega, ?_⟩
    have hbound : (m : ℚ) < 2 ^ (53 : ℤ) := by exact_mod_cast hm
    calc |z| = m * 2 ^ e := hz
      _ < 2 ^ (53 : ℤ) * 2 ^ e := by gcongr
      _ = 2 ^ (e + 53) := by rw [← zpow_add₀ (by norm_num), add_comm]
      _ ≤ 2 ^ (j + 52) := zpow_le_zpow_right₀ (by norm_num) (by omega)

/-! ## The nearest of them -/

section Nearest
variable {num den : ℕ}

/-- No whole number of units is nearer to a quotient than the rounded one. -/
theorem roundedRatio_nearest_units (num : ℕ) (hd : 0 < den) (k : ℤ) :
    |roundedRatio num den - num / den| ≤ |(k : ℚ) * 2 ^ lastPlace num den - num / den| ∧
      (|roundedRatio num den - num / den| = |(k : ℚ) * 2 ^ lastPlace num den - num / den| →
        k = roundedMantissa num den ∨ Even (roundedMantissa num den)) := by
  have hunit : (0 : ℚ) < 2 ^ lastPlace num den := by positivity
  have hscaled (r : ℚ) : |r * 2 ^ lastPlace num den - num / den| =
      |r - num / den / 2 ^ lastPlace num den| * 2 ^ lastPlace num den := by
    rw [← abs_of_pos hunit, ← abs_mul, abs_of_pos hunit, sub_mul, div_mul_cancel₀ _ hunit.ne']
  have hnear := roundHalfEven_nearest (scaleDown num den (lastPlace num den)).1
    (scaleDown_pos num hd (lastPlace num den)) k
  rw [scaleDown_div] at hnear
  rw [roundedRatio, hscaled, hscaled, mul_le_mul_iff_left₀ hunit, mul_left_inj' hunit.ne']
  exact hnear

/-- No number is nearer to a quotient than the rounded one. -/
theorem roundedRatio_nearest (hn : 0 < num) (hd : 0 < den) {z : ℚ} {m : ℕ} {e : ℤ} (hm : m < mantissaBound)
    (he : leastExponent ≤ e) (hz : |z| = size m e) :
    |roundedRatio num den - num / den| ≤ |z - num / den| ∧
      (|roundedRatio num den - num / den| = |z - num / den| →
        z = roundedRatio num den ∨ Even (roundedMantissa num den)) := by
  rcases units_or_small hm he hz (lastPlace num den) with ⟨k, rfl⟩ | ⟨hplace, hsmall⟩
  · obtain ⟨hle, htie⟩ := roundedRatio_nearest_units num hd k
    refine ⟨hle, fun heq => (htie heq).imp_left fun hk => ?_⟩
    rw [hk, roundedRatio, Int.cast_natCast]
  · -- The least number with all its digits lies between, and is not nearer either.
    have hleast := two_zpow_lastPlace_le hn hd hplace
    have hbetween := (roundedRatio_nearest_units num hd (2 ^ 52)).1
    have hunits : ((2 ^ 52 : ℤ) : ℚ) * 2 ^ lastPlace num den = 2 ^ (lastPlace num den + 52) := by
      rw [zpow_add₀ (by norm_num), mul_comm]
      norm_num
    rw [hunits, abs_of_nonpos (by linarith : (2 : ℚ) ^ (lastPlace num den + 52) - num / den ≤ 0)] at hbetween
    have hbelow : z < 2 ^ (lastPlace num den + 52) := (le_abs_self z).trans_lt hsmall
    have hlt : |roundedRatio num den - num / den| < |z - num / den| := by
      rw [abs_of_neg (by linarith : z - num / den < 0)]
      linarith
    exact ⟨hlt.le, fun heq => absurd heq hlt.ne⟩

theorem isFinite_settle_iff {negative : Bool} {m : ℕ} {e : ℤ} : (settle negative m e).isFinite = true ↔
    HasForm (if m = mantissaBound then mantissaBound / 2 else m) (if m = mantissaBound then e + 1 else e) := by
  unfold settle
  dsimp only
  generalize (if m = mantissaBound then mantissaBound / 2 else m) = m'
  generalize (if m = mantissaBound then e + 1 else e) = e'
  by_cases h : HasForm m' e'
  · simp [h, isFinite]
  · simp [h, isFinite]

/-- What is settled has the same value, and an even mantissa if it had one before. -/
theorem exists_settle {negative : Bool} {m : ℕ} {e : ℤ} (hfinite : (settle negative m e).isFinite = true) :
    ∃ m' e' form, settle negative m e = .finite negative m' e' form ∧ size m' e' = m * 2 ^ e ∧
      (Even m → Even m') := by
  have hform := isFinite_settle_iff.mp hfinite
  refine ⟨_, _, hform, dif_pos hform, size_settled m e, fun heven => ?_⟩
  split
  · decide
  · exact heven

theorem isNearest_ofRatio_of_pos {negative : Bool} (hn : 0 < num) (hd : 0 < den)
    (hfinite : (ofRatio negative num den).isFinite = true) :
    IsNearest (if negative then -(num / den) else num / den) (ofRatio negative num den) := by
  rw [ofRatio_eq_settle negative den hn] at hfinite ⊢
  obtain ⟨m, e, form, hsettle, hsize, heven⟩ := exists_settle hfinite
  rw [hsettle]
  refine .mk (toRat?_finite negative form) fun d z hz => ?_
  obtain ⟨m', e', hm', he', habs⟩ := exists_abs_eq_size hz
  rw [← roundedRatio] at hsize
  cases negative with
  | false =>
    obtain ⟨hle, htie⟩ := roundedRatio_nearest hn hd hm' he' habs
    simp only [Bool.false_eq_true, if_false, hsize]
    exact ⟨hle, fun heq => (htie heq).imp_right heven⟩
  | true =>
    -- The other numbers are turned over together with the quotient.
    obtain ⟨hle, htie⟩ := roundedRatio_nearest hn hd hm' he' ((abs_neg z).trans habs)
    have hturn (a b : ℚ) : |-a - -b| = |a - b| := by rw [← abs_neg, neg_sub, sub_neg_eq_add, neg_add_eq_sub]
    have hother : |z - -((num : ℚ) / den)| = |-z - num / den| := by rw [← hturn, neg_neg]
    simp only [if_true, hsize, hturn, hother]
    exact ⟨hle, fun heq => (htie heq).imp (fun h => by rw [← h, neg_neg]) heven⟩

/-- Both zeros are nearest to zero. -/
theorem isNearest_zero (negative : Bool) : IsNearest 0 (zero negative) := by
  have hvalue : toRat? (zero negative) = some 0 := by
    rw [zero, toRat?_finite]
    cases negative <;> simp [size]
  refine .mk hvalue fun d z _ => ⟨?_, fun _ => Or.inr Even.zero⟩
  rw [sub_self, abs_zero]
  exact abs_nonneg _

/-- A quotient is rounded to the number that is nearest to it, if that is finite. -/
theorem isNearest_ofRatio {negative : Bool} (hd : 0 < den) (hfinite : (ofRatio negative num den).isFinite = true) :
    IsNearest (if negative then -(num / den) else num / den) (ofRatio negative num den) := by
  rcases Nat.eq_zero_or_pos num with rfl | hn
  · have hzero : ofRatio negative 0 den = zero negative := if_pos rfl
    rw [hzero]
    simpa using isNearest_zero negative
  · exact isNearest_ofRatio_of_pos hn hd hfinite

/-! ## Overflow -/

/-- The first value that is too large: half a unit above the greatest number. -/
def overflowBound : ℕ := 2 ^ 1024 - 2 ^ 970

theorem overflowBound_eq : (overflowBound : ℚ) = (mantissaBound - 1 / 2) * 2 ^ greatestExponent := by
  have hle : 2 ^ 970 ≤ 2 ^ 1024 := pow_le_pow_right₀ one_le_two (by norm_num)
  have hunit : (2 : ℚ) ^ greatestExponent = 2 ^ 970 * 2 := by
    rw [greatestExponent, ← pow_succ]
    exact zpow_natCast 2 971
  have htop : (2 : ℚ) ^ 1024 = 2 ^ 970 * 2 ^ 54 := by rw [← pow_add]
  rw [overflowBound, Nat.cast_sub hle, hunit, Nat.cast_pow, Nat.cast_pow, Nat.cast_ofNat, htop, mantissaBound]
  generalize (2 : ℚ) ^ 970 = half
  ring

/-- The mantissa is carried over from half a unit below the bound on, since the greatest one is odd. -/
theorem roundedMantissa_eq_bound_iff (hn : 0 < num) (hd : 0 < den) : roundedMantissa num den = mantissaBound ↔
    (mantissaBound - 1 / 2 : ℚ) ≤ num / den / 2 ^ lastPlace num den := by
  have herror := abs_le.mp (abs_roundedMantissa_sub_le num hd)
  constructor
  · intro hcarried
    rw [hcarried] at herror
    linarith [herror.2]
  · intro hlarge
    by_contra hne
    have hmantissa : roundedMantissa num den + 1 ≤ mantissaBound :=
      Nat.lt_of_le_of_ne (roundedMantissa_le_bound hn hd) hne
    have hmantissaQ : (roundedMantissa num den : ℚ) + 1 ≤ mantissaBound := by exact_mod_cast hmantissa
    have hlast : roundedMantissa num den + 1 = mantissaBound := by
      have : (mantissaBound : ℚ) ≤ roundedMantissa num den + 1 := by linarith [herror.1]
      exact le_antisymm hmantissa (by exact_mod_cast this)
    have hhalf : |(roundedMantissa num den : ℚ) - num / den / 2 ^ lastPlace num den| = 1 / 2 := by
      rw [abs_of_nonpos (by linarith)]
      linarith [herror.1]
    rw [← scaleDown_div] at hhalf
    have heven := even_roundHalfEven_of_half (scaleDown_pos num hd _) hhalf
    rw [← roundedMantissa, Nat.even_iff] at heven
    unfold mantissaBound at hlast
    omega

/-- A quotient below the bound is rounded to a finite number, and no other one is. -/
theorem isFinite_ofRatio_iff {negative : Bool} (hn : 0 < num) (hd : 0 < den) :
    (ofRatio negative num den).isFinite = true ↔ (num : ℚ) / den < overflowBound := by
  have hunit : (0 : ℚ) < 2 ^ greatestExponent := by positivity
  rw [ofRatio_eq_settle negative den hn, isFinite_settle_iff, hasForm_rounded_iff hn hd, overflowBound_eq,
    ← div_lt_iff₀ hunit]
  constructor
  · intro hplace
    by_contra hlarge
    rw [not_lt] at hlarge
    have hreach : (2 : ℚ) ^ (greatestExponent + 52) ≤ num / den := by
      rw [zpow_add₀ (by norm_num), mul_comm, ← le_div_iff₀ hunit]
      refine le_trans ?_ hlarge
      norm_num [mantissaBound]
    have hlow := le_lastPlace hn hd hreach
    split at hplace
    case isTrue => omega
    case isFalse hne =>
      have htop : lastPlace num den = greatestExponent := by omega
      exact hne ((roundedMantissa_eq_bound_iff hn hd).mpr (by rwa [htop]))
  · intro hsmall
    have hbelow : (num : ℚ) / den < 2 ^ (greatestExponent + 53) := by
      rw [zpow_add₀ (by norm_num), mul_comm, ← div_lt_iff₀ hunit]
      refine lt_trans hsmall ?_
      norm_num [mantissaBound]
    have hhigh := lastPlace_le hn hd (by decide) hbelow
    split
    case isFalse => exact hhigh
    case isTrue hcarried =>
      by_contra hfar
      have htop : lastPlace num den = greatestExponent := by omega
      have hlarge := (roundedMantissa_eq_bound_iff hn hd).mp hcarried
      rw [htop] at hlarge
      exact absurd hsmall (not_lt.mpr hlarge)

end Nearest

/-! ## Integers -/

/-- An integer below the bound is rounded to a finite number, and no other one is. -/
theorem isFinite_ofInt_iff {n : ℤ} : (ofInt n).isFinite = true ↔ n.natAbs < overflowBound := by
  have hcast : ((n.natAbs : ℕ) : ℚ) / (1 : ℕ) < overflowBound ↔ n.natAbs < overflowBound := by
    rw [Nat.cast_one, div_one, Nat.cast_lt]
  rcases Nat.eq_zero_or_pos n.natAbs with hzero | hpos
  · have hbound : 0 < overflowBound := by
      have : 2 ^ 970 < 2 ^ 1024 := pow_lt_pow_right₀ one_lt_two (by norm_num)
      exact Nat.sub_pos_of_lt this
    rw [hzero, Int.natAbs_eq_zero.mp hzero]
    exact iff_of_true rfl hbound
  · rw [← hcast]
    exact isFinite_ofRatio_iff hpos one_pos

/-- An integer is rounded to the number that is nearest to it, if that is finite. -/
theorem isNearest_ofInt {n : ℤ} (hfinite : (ofInt n).isFinite = true) : IsNearest n (ofInt n) := by
  have hnearest := isNearest_ofRatio one_pos hfinite
  have hvalue : (if decide (n < 0) = true then -((n.natAbs : ℚ) / (1 : ℕ)) else (n.natAbs : ℚ) / (1 : ℕ)) = n := by
    rw [Nat.cast_one, div_one, Nat.cast_natAbs]
    by_cases hneg : n < 0
    · simp [hneg, abs_of_neg hneg]
    · simp [hneg, abs_of_nonneg (not_lt.mp hneg)]
  rwa [hvalue] at hnearest

end Double
end GridQuery

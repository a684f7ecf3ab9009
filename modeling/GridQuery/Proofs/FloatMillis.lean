import GridQuery.Proofs.EpochMillis

/-! # Milliseconds given as floating point numbers

A floating point number of milliseconds gives a moment iff its instant is in the calendar. The numbers next to the
ends of the calendar are far enough from them: no rounding on the way moves an instant past an end. -/
namespace GridQuery

namespace Double

section Units
variable {c m k : ℕ} {e : ℤ}

/-- A number that is not small is a whole number of units. -/
theorem exists_units (hm : m < 2 ^ 53) (h : (2 : ℚ) ^ ((52 : ℤ) - k) ≤ size m e) : ∃ c : ℕ, size m e = c / 2 ^ k := by
  have hpow : (0 : ℚ) < 2 ^ e := by positivity
  have hlt : (2 : ℚ) ^ ((52 : ℤ) - k) < 2 ^ ((53 : ℤ) + e) := by
    have hm : (m : ℚ) < 2 ^ (53 : ℤ) := by exact_mod_cast hm
    rw [zpow_add₀ (by norm_num)]
    exact h.trans_lt (mul_lt_mul_of_pos_right hm hpow)
  have hexponent : (52 : ℤ) - k < 53 + e := (zpow_lt_zpow_iff_right₀ (by norm_num)).mp hlt
  refine ⟨m * 2 ^ (e + k).toNat, ?_⟩
  rw [eq_div_iff (by positivity), size, Nat.cast_mul, Nat.cast_pow, Nat.cast_ofNat, mul_assoc, ← zpow_natCast,
    ← zpow_natCast, ← zpow_add₀ (by norm_num), Int.toNat_of_nonneg (by omega)]

/-- A number below an integer is a unit below it at least. -/
theorem size_le_of_lt (hm : m < 2 ^ 53) (hc : (2 : ℚ) ^ ((52 : ℤ) - k) + 1 ≤ c) (h : size m e < c) :
    size m e ≤ c - 1 / 2 ^ k := by
  have hunit : (0 : ℚ) < 2 ^ k := by positivity
  have hone : (1 : ℚ) / 2 ^ k ≤ 1 := by
    rw [div_le_one hunit]
    exact one_le_pow₀ (by norm_num)
  by_cases hsmall : (2 : ℚ) ^ ((52 : ℤ) - k) ≤ size m e
  · obtain ⟨u, hu⟩ := exists_units hm hsmall
    rw [hu] at h ⊢
    rw [div_lt_iff₀ hunit] at h
    have hlt : u + 1 ≤ c * 2 ^ k := by exact_mod_cast h
    rw [div_le_iff₀ hunit, sub_mul, div_mul_cancel₀ _ hunit.ne', le_sub_iff_add_le]
    exact_mod_cast hlt
  · linarith

/-- A number above an integer is a unit above it at least. -/
theorem le_size_of_lt (hm : m < 2 ^ 53) (hc : (2 : ℚ) ^ ((52 : ℤ) - k) ≤ c) (h : c < size m e) :
    c + 1 / 2 ^ k ≤ size m e := by
  have hunit : (0 : ℚ) < 2 ^ k := by positivity
  obtain ⟨u, hu⟩ := exists_units hm (hc.trans h.le)
  rw [hu] at h ⊢
  rw [lt_div_iff₀ hunit] at h
  have hlt : c * 2 ^ k + 1 ≤ u := by exact_mod_cast h
  rw [le_div_iff₀ hunit, add_mul, div_mul_cancel₀ _ hunit.ne']
  exact_mod_cast hlt

end Units
end Double

namespace EpochMillis
open Time Double

/-! ## The ends of the calendar -/

section Ends
variable {m : ℕ} {e : ℤ}

/-- A thousandth of a number, rounded. -/
def thousandth (m : ℕ) (e : ℤ) : ℚ := roundedRatio (magnitude m e).1 ((magnitude m e).2 * 1000)

theorem magnitude_div_thousand (m : ℕ) (e : ℤ) :
    ((magnitude m e).1 : ℚ) / ((magnitude m e).2 * 1000 : ℕ) = size m e / 1000 := by
  rw [Nat.cast_mul, ← div_div, magnitude_div, Nat.cast_ofNat]

theorem thousandth_pos (m : ℕ) (e : ℤ) : 0 < (magnitude m e).2 * 1000 := Nat.mul_pos (magnitude_pos m e) (by decide)

theorem num_pos (hm : 0 < m) (e : ℤ) : 0 < (magnitude m e).1 := by
  cases e with
  | ofNat k => exact Nat.mul_pos hm (Nat.pow_pos (by decide))
  | negSucc k => exact hm

theorem abs_thousandth_sub_le {j : ℤ} (hm : 0 < m) (hj : leastExponent ≤ j) (h : size m e / 1000 < 2 ^ (j + 53)) :
    |thousandth m e - size m e / 1000| ≤ 2 ^ j / 2 := by
  have hplace : lastPlace (magnitude m e).1 ((magnitude m e).2 * 1000) ≤ j := by
    refine lastPlace_le (num_pos hm e) (thousandth_pos m e) hj ?_
    rwa [magnitude_div_thousand]
  have hround := abs_roundedRatio_sub_le (magnitude m e).1 (thousandth_pos m e)
  rw [magnitude_div_thousand] at hround
  have hunit : (2 : ℚ) ^ lastPlace (magnitude m e).1 ((magnitude m e).2 * 1000) ≤ 2 ^ j :=
    zpow_le_zpow_right₀ (by norm_num) hplace
  exact hround.trans (by linarith)

theorem natCast_le_thousandth {c : ℕ} (hm : 0 < m) (hc : c < 2 ^ 53) (h : (c : ℚ) ≤ size m e / 1000) :
    (c : ℚ) ≤ thousandth m e :=
  natCast_le_roundedRatio (num_pos hm e) (thousandth_pos m e) hc (by rwa [magnitude_div_thousand])

theorem thousandth_le_natCast {c : ℕ} (hm : 0 < m) (hc : c < 2 ^ 53) (h : size m e / 1000 ≤ c) :
    thousandth m e ≤ c :=
  roundedRatio_le_natCast (num_pos hm e) (thousandth_pos m e) hc (by rwa [magnitude_div_thousand])

/-- Below the end of the calendar the seconds stay below it by fifteen microseconds. -/
theorem thousandth_of_lt_end (hm : 0 < m) (hshort : m < 2 ^ 53) (h : size m e < 253402300800000) :
    thousandth m e ≤ 253402300800 - 15 / 1000000 := by
  have hgap : size m e ≤ (253402300800000 : ℕ) - 1 / 2 ^ 5 :=
    size_le_of_lt hshort (by norm_num) (by exact_mod_cast h)
  have hnear : size m e / 1000 < 2 ^ ((-15 : ℤ) + 53) := by
    norm_num
    linarith
  have hupper := (abs_le.mp (abs_thousandth_sub_le hm (by decide) hnear)).2
  norm_num at hgap hupper
  linarith

theorem end_le_thousandth (hm : 0 < m) (h : 253402300800000 ≤ size m e) : 253402300800 ≤ thousandth m e := by
  have hquotient : ((253402300800 : ℕ) : ℚ) ≤ size m e / 1000 := by
    norm_num
    linarith
  exact_mod_cast natCast_le_thousandth hm (by norm_num) hquotient

theorem thousandth_le_start (hm : 0 < m) (h : size m e ≤ 62135596800000) : thousandth m e ≤ 62135596800 := by
  have hquotient : size m e / 1000 ≤ (62135596800 : ℕ) := by
    norm_num
    linarith
  exact_mod_cast thousandth_le_natCast hm (by norm_num) hquotient

/-- Before the start of the calendar the seconds stay before it by three microseconds. -/
theorem lt_thousandth_of_start_lt (hm : 0 < m) (hshort : m < 2 ^ 53) (h : 62135596800000 < size m e) :
    62135596800 + 3 / 1000000 ≤ thousandth m e := by
  have hgap : (62135596800000 : ℕ) + 1 / 2 ^ 7 ≤ size m e :=
    le_size_of_lt hshort (by norm_num) (by exact_mod_cast h)
  norm_num at hgap
  by_cases hnear : size m e / 1000 < 2 ^ ((-17 : ℤ) + 53)
  · have hlower := (abs_le.mp (abs_thousandth_sub_le hm (by decide) hnear)).1
    norm_num at hlower
    linarith
  · have hquotient : ((2 ^ 36 : ℕ) : ℚ) ≤ size m e / 1000 := by
      norm_num at hnear ⊢
      exact hnear
    have hfar := natCast_le_thousandth hm (by norm_num) hquotient
    norm_num at hfar
    linarith

end Ends

/-- A finite number of milliseconds gives an instant near its rounded seconds. Numbers that are too large for this
are far from the calendar. -/
theorem ofMillisDouble?_cases (negative : Bool) {m : ℕ} {e : ℤ} (form : HasForm m e) (hm : 0 < m) :
    ofMillisDouble? (.finite negative m e form) = none ∧ 2 ^ 53 ≤ size m e / 1000 ∨
    ∃ t : ℤ, ofMillisDouble? (.finite negative m e form) = atInstant? t ∧
      |(t : ℚ) - 1000000 * signed negative (thousandth m e)| ≤ slack := by
  have hquotient := magnitude_div_thousand m e
  rw [ofMillisDouble?, divNat]
  rcases ofRatio_cases negative ((magnitude m e).2 * 1000) (num_pos hm e) with hinf | ⟨m', e', form', hratio, hsize⟩
  · refine Or.inl ⟨by rw [hinf]; rfl, ?_⟩
    by_contra hnear
    rw [not_le, ← hquotient] at hnear
    obtain ⟨m', e', form', hfinite, -⟩ := exists_ofRatio negative (j := 0) (thousandth_pos m e) (by decide)
      (by decide) (by simpa using hnear)
    rw [hinf] at hfinite
    cases hfinite
  · obtain ⟨t, ht, hclose⟩ := exists_instant negative form'
    rw [hsize] at hclose
    exact Or.inr ⟨t, by rw [hratio, ht], hclose⟩

theorem isSome_atInstant?_iff_cast {t : ℤ} : (atInstant? t).isSome = true ↔
    (-62135596800000001 : ℚ) < t ∧ ¬(253402300799999999 : ℚ) < t := by
  have hlow : (-62135596800000001 : ℚ) < t ↔ -62135596800000001 < t := by exact_mod_cast Iff.rfl
  have hhigh : (253402300799999999 : ℚ) < t ↔ 253402300799999999 < t := by exact_mod_cast Iff.rfl
  rw [isSome_atInstant?_iff, hlow, hhigh, firstInstant, endInstant]
  omega

theorem isSome_ofMillisDouble?_zero (negative : Bool) {e : ℤ} (form : HasForm 0 e) :
    (ofMillisDouble? (.finite negative 0 e form)).isSome = true := by
  have hnum : (magnitude 0 e).1 = 0 := by
    cases e with
    | ofNat k => exact Nat.zero_mul _
    | negSucc k => rfl
  obtain ⟨t, ht, hclose⟩ := exists_instant negative (by decide : HasForm 0 leastExponent)
  have hzero : 1000000 * signed negative (size 0 leastExponent) = 0 := by simp [size, signed]
  rw [hzero, sub_zero, slack, abs_le] at hclose
  rw [ofMillisDouble?, divNat, hnum, ofRatio, if_pos rfl, zero, ht, isSome_atInstant?_iff_cast]
  constructor <;> linarith

theorem isSome_ofMillisDouble?_finite (negative : Bool) {m : ℕ} {e : ℤ} (form : HasForm m e) :
    (ofMillisDouble? (.finite negative m e form)).isSome = true ↔
      -62135596800000 ≤ signed negative (size m e) ∧ signed negative (size m e) < 253402300800000 := by
  rcases Nat.eq_zero_or_pos m with rfl | hm
  · refine iff_of_true (isSome_ofMillisDouble?_zero negative form) ?_
    simp [signed, size]
  have hshort : m < 2 ^ 53 := form.short
  have hsize : 0 ≤ size m e := by
    rw [size]
    positivity
  have hpos : 0 ≤ thousandth m e := by
    rw [thousandth, roundedRatio]
    positivity
  rcases ofMillisDouble?_cases negative form hm with ⟨hnone, hfar⟩ | ⟨t, ht, hclose⟩
  · rw [hnone]
    refine iff_of_false (by simp) fun h => ?_
    cases negative <;> simp only [signed, Bool.false_eq_true, if_false, if_true] at h <;> linarith
  rw [ht, isSome_atInstant?_iff_cast]
  rw [slack, abs_le] at hclose
  cases negative with
  | false =>
    simp only [signed, Bool.false_eq_true, if_false] at hclose ⊢
    by_cases h : size m e < 253402300800000
    · have hbelow := thousandth_of_lt_end hm hshort h
      exact iff_of_true ⟨by linarith, by linarith⟩ ⟨by linarith, h⟩
    · have habove := end_le_thousandth hm (not_lt.mp h)
      exact iff_of_false (fun hin => hin.2 (by linarith)) fun hin => h hin.2
  | true =>
    simp only [signed, if_true] at hclose ⊢
    by_cases h : size m e ≤ 62135596800000
    · have hafter := thousandth_le_start hm h
      exact iff_of_true ⟨by linarith, by linarith⟩ ⟨by linarith, by linarith⟩
    · have hbefore := lt_thousandth_of_start_lt hm hshort (not_le.mp h)
      exact iff_of_false (fun hin => by linarith [hin.1]) fun hin => h (by linarith [hin.1])

/-- A floating point number of milliseconds gives a moment iff its exact instant is in the calendar. -/
theorem isSome_ofMillisDouble?_iff {d : Double} : (ofMillisDouble? d).isSome = true ↔
    ∃ q, d.toRat? = some q ∧ (firstInstant : ℚ) ≤ 1000 * q ∧ 1000 * q < endInstant := by
  cases d with
  | nan => simp [ofMillisDouble?, divNat, ofDouble?, toRat?]
  | infinite negative => simp [ofMillisDouble?, divNat, ofDouble?, toRat?]
  | finite negative m e form =>
    rw [isSome_ofMillisDouble?_finite negative form, toRat?_finite, firstInstant, endInstant]
    simp only [Option.some.injEq, exists_eq_left', signed]
    push_cast
    constructor
    · rintro ⟨hlow, hhigh⟩
      constructor <;> linarith
    · rintro ⟨hlow, hhigh⟩
      constructor <;> linarith

end EpochMillis
end GridQuery

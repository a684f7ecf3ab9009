import GridQuery.Proofs.FloatMillis
import GridQuery.Proofs.NearestDouble

/-! # What the value of a date field stands for

Null stands for no date, and a moment for itself. A text stands for the moment that is written in it, where each `Z`
is written for an offset of zero, and in UTC if it has no offset. A number of milliseconds of an instant in the
calendar stands for a moment in UTC: its seconds are rounded to a floating point number, and the fraction of these is
rounded once more to a floating point number of microseconds and then to an integer. -/
namespace GridQuery

namespace EpochMillis
open Time Double

/-! ## Numbers of seconds -/

/-- The whole part of a number, towards zero. -/
def IsWholePart (q : ℚ) (k : ℤ) : Prop := |(k : ℚ)| ≤ |q| ∧ |q - k| < 1

/-- No integer is nearer to a number, and if another one is as near, the even one is taken. -/
def IsNearestInt (q : ℚ) (k : ℤ) : Prop :=
  ∀ j : ℤ, |k - q| ≤ |j - q| ∧ (|k - q| = |j - q| → j = k ∨ Even k)

/-- The moment in UTC a number of seconds after the epoch. -/
inductive AtSeconds (q : ℚ) (m : Moment) : Prop
  | mk {x y : Double} {seconds micros : ℚ} {whole micro : ℤ} (hx : x.IsNearest q)
      (hseconds : x.toRat? = some seconds) (hwhole : IsWholePart seconds whole)
      (hy : y.IsNearest (1000000 * (seconds - whole))) (hmicros : y.toRat? = some micros)
      (hmicro : IsNearestInt micros micro) (hutc : m.offset = some Offset.utc)
      (hinstant : instantOf m.date m.clock = 1000000 * whole + micro) : AtSeconds q m

theorem AtSeconds.isSome_offset {q : ℚ} {m : Moment} (h : AtSeconds q m) : m.offset.isSome = true := by
  obtain ⟨-, -, -, -, -, -, hutc, -⟩ := h
  rw [hutc]
  rfl

theorem isWholePart_signed (negative : Bool) {whole rest den : ℕ} (h : rest < den) :
    IsWholePart (signed negative ((whole : ℚ) + rest / den)) (signed negative (whole : ℤ)) := by
  have hden : (0 : ℚ) < den := by exact_mod_cast (Nat.zero_le rest).trans_lt h
  have hrest : (0 : ℚ) ≤ rest / den := by positivity
  have hfraction : (rest : ℚ) / den < 1 := by
    rw [div_lt_one hden]
    exact_mod_cast h
  constructor
  · rw [intCast_signed, abs_signed, abs_signed, Int.cast_natCast, abs_of_nonneg (by positivity),
      abs_of_nonneg (by positivity)]
    linarith
  · rw [intCast_signed, abs_signed_sub, Int.cast_natCast, add_sub_cancel_left, abs_of_nonneg hrest]
    exact hfraction

theorem signed_signed (negative : Bool) {α : Type} [InvolutiveNeg α] (x : α) :
    signed negative (signed negative x) = x := by
  cases negative <;> simp [signed]

theorem even_signed (negative : Bool) {n : ℕ} (h : Even n) : Even (signed negative (n : ℤ)) := by
  cases negative <;> simpa [signed] using h

/-- The integers are turned over together with the number. -/
theorem isNearestInt_signed (negative : Bool) (m : ℕ) (e : ℤ) :
    IsNearestInt (signed negative (size m e)) (nearestInt negative m e) := by
  intro j
  obtain ⟨n, hn⟩ : ∃ n, roundHalfEven (magnitude m e).1 (magnitude m e).2 = n := ⟨_, rfl⟩
  have hself : nearestInt negative m e = signed negative (n : ℤ) := by
    rw [← hn]
    rfl
  have hnearest := roundHalfEven_nearest (magnitude m e).1 (magnitude_pos m e) (signed negative j)
  rw [magnitude_div, hn] at hnearest
  have hother : |(j : ℚ) - signed negative (size m e)| = |((signed negative j : ℤ) : ℚ) - size m e| := by
    rw [← abs_signed_sub negative, intCast_signed, signed_signed]
  rw [hself, hother, intCast_signed, abs_signed_sub, Int.cast_natCast]
  refine ⟨hnearest.1, fun heq => (hnearest.2 heq).imp (fun hj => ?_) (even_signed negative)⟩
  rw [← hj, signed_signed]

/-- The fraction of a number of seconds, in microseconds, is rounded to the nearest number. -/
theorem isNearest_fraction {negative : Bool} {rest den k : ℕ} {f : ℤ} {form : HasForm k f} (h : rest < den)
    (hfraction : ofRatio negative (1000000 * rest) den = .finite negative k f form) (whole : ℕ) :
    IsNearest (1000000 * (signed negative ((whole : ℚ) + rest / den) - (signed negative (whole : ℤ) : ℤ)))
      (.finite negative k f form) := by
  have hfinite : (ofRatio negative (1000000 * rest) den).isFinite = true := by
    rw [hfraction]
    rfl
  have hnearest := isNearest_ofRatio ((Nat.zero_le rest).trans_lt h) hfinite
  have htarget : (if negative then -(((1000000 * rest : ℕ) : ℚ) / den) else ((1000000 * rest : ℕ) : ℚ) / den) =
      1000000 * (signed negative ((whole : ℚ) + rest / den) - (signed negative (whole : ℤ) : ℤ)) := by
    rw [intCast_signed, Int.cast_natCast]
    cases negative <;> simp [signed] <;> ring
  rwa [htarget, hfraction] at hnearest

theorem atSeconds_of_ofDouble? {x : Double} {q : ℚ} {m : Moment} (hx : x.IsNearest q) (h : ofDouble? x = some m) :
    AtSeconds q m := by
  cases x with
  | infinite negative => cases h
  | nan => cases h
  | finite negative c e form =>
    obtain ⟨t, ht, hsplit⟩ := exists_split negative form
    rw [ht] at h
    obtain ⟨hutc, hinstant⟩ := atInstant?_eq_some_iff.mp h
    obtain @⟨whole, rest, den, k, micro, f, form', hseconds, hrest, hfraction, hmicro, -⟩ := hsplit
    have hvalue : toRat? (.finite negative c e form) = some (signed negative ((whole : ℚ) + rest / den)) := by
      rw [toRat?_finite, hseconds, signed]
    refine .mk hx hvalue (isWholePart_signed negative hrest) (isNearest_fraction hrest hfraction whole)
      (toRat?_finite negative form') (isNearestInt_signed negative k f) hutc ?_
    rw [hinstant, hmicro]
    cases negative <;> simp [signed] <;> ring

theorem isFinite_of_ofDouble? {x : Double} {m : Moment} (h : ofDouble? x = some m) : x.isFinite = true := by
  cases x with
  | finite => rfl
  | infinite => cases h
  | nan => cases h

/-- A count of milliseconds is divided by a thousand in floating point. -/
theorem atSeconds_of_ofMillis? {n : ℤ} {m : Moment} (h : ofMillis? n = some m) : AtSeconds (n / 1000) m := by
  have hnearest := isNearest_ofRatio (by decide) (isFinite_of_ofDouble? h)
  have hquotient : signed (decide (n < 0)) ((n.natAbs : ℚ) / (1000 : ℕ)) = n / 1000 := by
    have hthousandth := signed_thousandth n
    linarith
  rw [← signed, hquotient] at hnearest
  exact atSeconds_of_ofDouble? hnearest h

theorem atSeconds_of_ofMillisDouble? {d : Double} {q : ℚ} {m : Moment} (hq : d.toRat? = some q)
    (h : ofMillisDouble? d = some m) : AtSeconds (q / 1000) m := by
  cases d with
  | infinite negative => cases hq
  | nan => cases hq
  | finite negative c e form =>
    have hnearest := isNearest_ofRatio (thousandth_pos c e) (isFinite_of_ofDouble? h)
    rw [toRat?_finite, ← signed, Option.some.injEq] at hq
    have hquotient : signed negative (size c e / 1000) = q / 1000 := by
      rw [← hq]
      cases negative <;> simp [signed, neg_div]
    rw [← signed, magnitude_div_thousand, hquotient] at hnearest
    exact atSeconds_of_ofDouble? hnearest h

end EpochMillis

namespace DateField
open Time EpochMillis

/-! ## Values of date fields -/

/-- The value stands for a date, or for none. -/
inductive Stands : Value → Value → Prop
  | null : Stands .null .null
  | date (m : Moment) : Stands (.date m) (.date m)
  | text {s : String} {m : Moment}
      (h : IsoReader.moment? ((Text.trim s.toList).flatMap fun c => if c = 'Z' then "+00:00".toList else [c]) =
        some m) : Stands (.text s) (.date ⟨m.date, m.clock, some (m.offset.getD Offset.utc)⟩)
  | int {n : ℤ} {m : Moment} (hlow : firstInstant ≤ 1000 * n) (hhigh : 1000 * n < endInstant)
      (h : AtSeconds (n / 1000) m) : Stands (.int n) (.date m)
  | double {d : Double} {q : ℚ} {m : Moment} (hq : d.toRat? = some q) (hlow : (firstInstant : ℚ) ≤ 1000 * q)
      (hhigh : 1000 * q < endInstant) (h : AtSeconds (q / 1000) m) : Stands (.double d) (.date m)

def IsReadable (v : Value) : Prop := ∃ date, Stands v date

variable {v : Value}

theorem stands_of_moment? {m : Moment} (h : moment? v = some m) : Stands v (.date m) := by
  cases v with
  | date m' =>
    cases h
    exact .date m
  | text s =>
    obtain ⟨m', hm', rfl⟩ := Option.map_eq_some_iff.mp h
    exact .text hm'
  | int n =>
    obtain ⟨hlow, hhigh⟩ := isSome_ofMillis?_iff.mp (Option.isSome_iff_exists.mpr ⟨m, h⟩)
    exact .int hlow hhigh (atSeconds_of_ofMillis? h)
  | double d =>
    obtain ⟨q, hq, hlow, hhigh⟩ := isSome_ofMillisDouble?_iff.mp (Option.isSome_iff_exists.mpr ⟨m, h⟩)
    exact .double hq hlow hhigh (atSeconds_of_ofMillisDouble? hq h)
  | _ => cases h

theorem isReadable_iff_moment? (hv : v ≠ .null) : IsReadable v ↔ ∃ m, moment? v = some m := by
  refine ⟨?_, fun ⟨m, hm⟩ => ⟨_, stands_of_moment? hm⟩⟩
  rintro ⟨_, _ | m | h | ⟨hlow, hhigh, -⟩ | ⟨hq, hlow, hhigh, -⟩⟩
  · exact absurd rfl hv
  · exact ⟨m, rfl⟩
  · exact ⟨_, Option.map_eq_some_iff.mpr ⟨_, h, rfl⟩⟩
  · exact Option.isSome_iff_exists.mp (isSome_ofMillis?_iff.mpr ⟨hlow, hhigh⟩)
  · exact Option.isSome_iff_exists.mp (isSome_ofMillisDouble?_iff.mpr ⟨_, hq, hlow, hhigh⟩)

end DateField
end GridQuery

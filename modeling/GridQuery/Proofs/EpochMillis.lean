import GridQuery.Proofs.CalendarDays
import GridQuery.Proofs.DoubleRounding
import GridQuery.Proofs.MomentTexts

/-! # Milliseconds since the epoch

A count of milliseconds is divided by a thousand in floating point, and the fraction of the quotient is rounded
to microseconds. The quotient of a number below `2 ^ 33 * 1000` is so close that the microseconds come out
right; farther from the epoch only whole seconds are sure to be hit, and other instants are missed by a few
microseconds. -/
namespace GridQuery.EpochMillis
open Time Double

/-! ## From a floating point number to an instant -/

/-- A size with its sign. -/
def signed {α : Type} [Neg α] (negative : Bool) (x : α) : α := if negative then -x else x

theorem signed_natAbs (n : ℤ) : signed (decide (n < 0)) (n.natAbs : ℤ) = n := by
  by_cases h : n < 0
  · simp only [signed, h, decide_true, if_true]
    omega
  · simp only [signed, h, decide_false, Bool.false_eq_true, if_false]
    omega

theorem intCast_signed (negative : Bool) (n : ℤ) : ((signed negative n : ℤ) : ℚ) = signed negative (n : ℚ) := by
  cases negative <;> simp [signed]

theorem mul_signed (negative : Bool) (a q : ℚ) : a * signed negative q = signed negative (a * q) := by
  cases negative <;> simp [signed]

theorem abs_signed (negative : Bool) (q : ℚ) : |signed negative q| = |q| := by
  cases negative <;> simp [signed]

theorem abs_signed_sub (negative : Bool) (p q : ℚ) : |signed negative p - signed negative q| = |p - q| := by
  cases negative with
  | false => rfl
  | true =>
    rw [signed, signed, if_pos rfl, if_pos rfl, neg_sub_neg, abs_sub_comm]

/-- Microseconds of up to one second more or less are carried over to the seconds. -/
theorem carried_eq {whole micro : ℤ} (hlow : -1000000 ≤ micro) (hhigh : micro ≤ 1000000) :
    (if micro ≥ 1000000 then ofSeconds? (whole + 1) (micro - 1000000).toNat
      else if micro < 0 then ofSeconds? (whole - 1) (micro + 1000000).toNat
      else ofSeconds? whole micro.toNat) = atInstant? (whole * 1000000 + micro) := by
  rw [atInstant?]
  split
  · congr 1 <;> omega
  · split <;> congr 1 <;> omega

/-- How far from the exact instant a moment may be, in microseconds, by the roundings of the fraction. -/
def slack : ℚ := 1 / 2 + 1 / 100

/-- The microseconds that a fraction of a second becomes. -/
theorem exists_micro (negative : Bool) {rest den : ℕ} (h : rest < den) :
    ∃ (k : ℕ) (f : ℤ) (form : HasForm k f) (micro : ℕ),
      ofRatio negative (1000000 * rest) den = .finite negative k f form ∧
      nearestInt negative k f = signed negative (micro : ℤ) ∧
      micro ≤ 1000000 ∧ |(micro : ℚ) - 1000000 * (rest / den)| ≤ slack := by
  have hden : 0 < den := by omega
  have hdenQ : (0 : ℚ) < den := by exact_mod_cast hden
  have hfraction : (rest : ℚ) / den < 1 := by
    rw [div_lt_one hdenQ]
    exact_mod_cast h
  have hscaled : ((1000000 * rest : ℕ) : ℚ) / den = 1000000 * (rest / den) := by
    rw [Nat.cast_mul, Nat.cast_ofNat, mul_div_assoc]
  have hbelow : ((1000000 * rest : ℕ) : ℚ) / den < 2 ^ ((-33 : ℤ) + 53) := by
    have hpow : (2 : ℚ) ^ ((-33 : ℤ) + 53) = 1048576 := by norm_num
    rw [hscaled, hpow]
    linarith
  obtain ⟨k, f, form, hratio, hround⟩ := exists_ofRatio negative hden (by decide) (by decide) hbelow
  have hnearest := abs_roundHalfEven_sub_le (magnitude k f).1 (magnitude_pos k f)
  rw [magnitude_div] at hnearest
  have hunit : (2 : ℚ) ^ (-33 : ℤ) / 2 ≤ 1 / 100 := by norm_num
  have hclose : |(roundHalfEven (magnitude k f).1 (magnitude k f).2 : ℚ) - 1000000 * (rest / den)| ≤ slack := by
    rw [hscaled] at hround
    rw [slack]
    exact (abs_sub_le _ (size k f) _).trans (add_le_add hnearest (hround.trans hunit))
  refine ⟨k, f, form, _, hratio, rfl, ?_, hclose⟩
  have hlt : (roundHalfEven (magnitude k f).1 (magnitude k f).2 : ℚ) < (1000001 : ℕ) := by
    have hupper := (abs_le.mp hclose).2
    rw [slack] at hupper
    rw [Nat.cast_ofNat]
    linarith
  exact Nat.lt_succ_iff.mp (by exact_mod_cast hlt)

/-- The instant of a number of seconds, from its whole seconds and the microseconds that its fraction becomes. -/
inductive Split (negative : Bool) (seconds : ℚ) : ℤ → Prop
  | mk {whole rest den k micro : ℕ} {f : ℤ} {form : HasForm k f} (hseconds : seconds = whole + rest / den)
      (hrest : rest < den) (hfraction : ofRatio negative (1000000 * rest) den = .finite negative k f form)
      (hmicro : nearestInt negative k f = signed negative (micro : ℤ))
      (hclose : |(micro : ℚ) - 1000000 * (rest / den)| ≤ slack) :
      Split negative seconds (signed negative ((whole * 1000000 + micro : ℕ) : ℤ))

theorem exists_split (negative : Bool) {m : ℕ} {e : ℤ} (form : HasForm m e) :
    ∃ t : ℤ, ofDouble? (.finite negative m e form) = atInstant? t ∧ Split negative (size m e) t := by
  obtain ⟨whole, hwhole⟩ : ∃ whole, (magnitude m e).1 / (magnitude m e).2 = whole := ⟨_, rfl⟩
  obtain ⟨rest, hrest⟩ : ∃ rest, (magnitude m e).1 % (magnitude m e).2 = rest := ⟨_, rfl⟩
  have hpos := magnitude_pos m e
  have hsplit : size m e = whole + rest / (magnitude m e).2 := by
    rw [← magnitude_div, div_eq_whole_add _ hpos, hwhole, hrest]
  have hlt : rest < (magnitude m e).2 := hrest ▸ Nat.mod_lt _ hpos
  obtain ⟨k, f, _, micro, hratio, hmicro, hle, hclose⟩ := exists_micro negative hlt
  refine ⟨signed negative ((whole * 1000000 + micro : ℕ) : ℤ), ?_, .mk hsplit hlt hratio hmicro hclose⟩
  have hbounds : -1000000 ≤ signed negative (micro : ℤ) ∧ signed negative (micro : ℤ) ≤ 1000000 := by
    unfold signed
    split <;> omega
  have htotal : signed negative ((whole * 1000000 + micro : ℕ) : ℤ) =
      signed negative (whole : ℤ) * 1000000 + signed negative (micro : ℤ) := by
    unfold signed
    split <;> omega
  have hsigned : (if negative = true then -(((magnitude m e).1 : ℤ) / (magnitude m e).2)
      else ((magnitude m e).1 : ℤ) / (magnitude m e).2) = signed negative (whole : ℤ) := by
    rw [← hwhole, Int.natCast_ediv]
    rfl
  rw [htotal, ← carried_eq hbounds.1 hbounds.2, ← hmicro, ofDouble?]
  dsimp only
  rw [hrest, hratio, hsigned]

/-- The moment of a number of seconds is at the nearest microsecond, but for what its fraction loses. -/
theorem Split.abs_sub_le {negative : Bool} {seconds : ℚ} {t : ℤ} (h : Split negative seconds t) :
    |(t : ℚ) - 1000000 * signed negative seconds| ≤ slack := by
  obtain @⟨whole, rest, den, k, micro, f, form, rfl, hrest, hfraction, hmicro, hclose⟩ := h
  have hcancel : ((whole * 1000000 + micro : ℕ) : ℚ) - 1000000 * (whole + rest / den) =
      micro - 1000000 * (rest / den) := by
    push_cast
    ring
  rw [intCast_signed, mul_signed, abs_signed_sub, Int.cast_natCast, hcancel]
  exact hclose

theorem exists_instant (negative : Bool) {m : ℕ} {e : ℤ} (form : HasForm m e) : ∃ t : ℤ,
    ofDouble? (.finite negative m e form) = atInstant? t ∧
      |(t : ℚ) - 1000000 * signed negative (size m e)| ≤ slack := by
  obtain ⟨t, ht, hsplit⟩ := exists_split negative form
  exact ⟨t, ht, hsplit.abs_sub_le⟩

/-! ## From milliseconds to an instant -/

section Millis
variable {n : ℤ}

theorem signed_thousandth (n : ℤ) :
    1000000 * signed (decide (n < 0)) ((n.natAbs : ℚ) / (1000 : ℕ)) = 1000 * n := by
  have hn : (n : ℚ) = signed (decide (n < 0)) (n.natAbs : ℚ) := by
    rw [← Int.cast_natCast, ← intCast_signed, signed_natAbs]
  rw [hn, mul_signed, mul_signed]
  congr 1
  push_cast
  ring

theorem eq_of_abs_sub_lt_one {a b : ℤ} (h : |(a : ℚ) - b| < 1) : a = b := by
  have hint : |a - b| < 1 := by exact_mod_cast h
  rw [Int.abs_lt_one_iff] at hint
  omega

/-- Below a power of two the instant is missed by half a unit of the quotient, and what its fraction loses. -/
theorem exists_instant_of_lt {j : ℤ} (hlow : leastExponent ≤ j) (hhigh : j < greatestExponent)
    (h : (n.natAbs : ℚ) / (1000 : ℕ) < 2 ^ (j + 53)) :
    ∃ t : ℤ, ofMillis? n = atInstant? t ∧ |(t : ℚ) - 1000 * n| ≤ 1000000 * (2 ^ j / 2) + slack := by
  obtain ⟨m, e, form, hratio, hround⟩ := exists_ofRatio (decide (n < 0)) (by decide) hlow hhigh h
  obtain ⟨t, ht, hclose⟩ := exists_instant (decide (n < 0)) form
  have hquotient : |1000000 * signed (decide (n < 0)) (size m e) - 1000 * n| ≤ 1000000 * (2 ^ j / 2) := by
    rw [← signed_thousandth, ← mul_sub, abs_mul, abs_signed_sub, abs_of_pos (by norm_num)]
    exact mul_le_mul_of_nonneg_left hround (by norm_num)
  refine ⟨t, by rw [ofMillis?, hratio, ht], ?_⟩
  rw [add_comm]
  exact (abs_sub_le _ (1000000 * signed (decide (n < 0)) (size m e)) _).trans (add_le_add hclose hquotient)

theorem quotient_lt {k : ℕ} (h : n.natAbs < 2 ^ k * 1000) : (n.natAbs : ℚ) / (1000 : ℕ) < 2 ^ (k : ℤ) := by
  rw [div_lt_iff₀ (by norm_num), zpow_natCast]
  exact_mod_cast h

/-- Near the epoch the error is below one microsecond, so that there is none. -/
theorem ofMillis?_near (h : n.natAbs < 2 ^ 33 * 1000) : ofMillis? n = atInstant? (1000 * n) := by
  obtain ⟨t, ht, hclose⟩ := exists_instant_of_lt (j := -20) (by decide) (by decide) (quotient_lt h)
  have hexact : t = 1000 * n := by
    refine eq_of_abs_sub_lt_one ?_
    push_cast
    refine hclose.trans_lt ?_
    norm_num [slack]
  rw [ht, hexact]

/-- Up to the end of the calendar, and some time beyond it, the error is below sixteen microseconds. -/
theorem ofMillis?_within (h : n.natAbs < 2 ^ 38 * 1000) :
    ∃ t : ℤ, ofMillis? n = atInstant? t ∧ |t - 1000 * n| ≤ 15 := by
  obtain ⟨t, ht, hclose⟩ := exists_instant_of_lt (j := -15) (by decide) (by decide) (quotient_lt h)
  refine ⟨t, ht, Int.lt_add_one_iff.mp ?_⟩
  have hlt : |(t : ℚ) - 1000 * n| < 16 := by
    refine hclose.trans_lt ?_
    norm_num [slack]
  exact_mod_cast hlt

/-- Whole seconds are kept by the division. -/
theorem ofMillis?_whole (hn : n % 1000 = 0) (h : n.natAbs < 2 ^ 53 * 1000) :
    ofMillis? n = atInstant? (1000 * n) := by
  obtain ⟨c, hc, habs⟩ : ∃ c < 2 ^ 53, n.natAbs = c * 1000 := ⟨n.natAbs / 1000, by omega, by omega⟩
  obtain ⟨m, e, form, hratio, hsize⟩ := exists_ofRatio_eq (decide (n < 0)) (by decide : 0 < 1000) hc
  obtain ⟨t, ht, hclose⟩ := exists_instant (decide (n < 0)) form
  have hvalue : 1000000 * signed (decide (n < 0)) (size m e) = ((1000 * n : ℤ) : ℚ) := by
    have hthousandth := signed_thousandth n
    rw [habs, Nat.cast_mul, mul_div_cancel_right₀ _ (by norm_num), ← hsize] at hthousandth
    rw [hthousandth]
    push_cast
    rfl
  have hexact : t = 1000 * n := by
    refine eq_of_abs_sub_lt_one ?_
    rw [← hvalue]
    refine hclose.trans_lt ?_
    norm_num [slack]
  rw [ofMillis?, habs, hratio, ht, hexact]

/-- Far beyond the calendar a quotient stays beyond it. -/
theorem ofMillis?_far (h : 2 ^ 38 * 1000 ≤ n.natAbs) : ofMillis? n = none := by
  have hpos : 0 < n.natAbs := by omega
  have hquotient : (2 : ℚ) ^ (38 : ℤ) ≤ (n.natAbs : ℚ) / (1000 : ℕ) := by
    rw [le_div_iff₀ (by norm_num)]
    exact_mod_cast h
  rw [ofMillis?]
  rcases ofRatio_cases (decide (n < 0)) 1000 hpos with hinf | ⟨m, e, form, hratio, hsize⟩
  · rw [hinf, ofDouble?]
    exact fun _ _ _ _ => Double.noConfusion
  · obtain ⟨t, ht, hclose⟩ := exists_instant (decide (n < 0)) form
    have hfar := two_zpow_le_roundedRatio hpos (by decide) (by decide) hquotient
    rw [← hsize] at hfar
    rw [hratio, ht, Option.eq_none_iff_forall_ne_some]
    intro r hr
    obtain ⟨hlow, hhigh⟩ := between_of_atInstant? hr
    have hwithin : |(t : ℚ)| ≤ 253402300800000000 := by
      rw [firstInstant] at hlow
      rw [endInstant] at hhigh
      have hint : |t| ≤ 253402300800000000 := abs_le.mpr ⟨by omega, by omega⟩
      exact_mod_cast hint
    have hreach : 1000000 * size m e ≤ |(t : ℚ)| + slack := by
      have hsigned : |1000000 * signed (decide (n < 0)) (size m e)| = |1000000 * size m e| := by
        rw [mul_signed, abs_signed]
      have htriangle := abs_sub_abs_le_abs_sub (1000000 * signed (decide (n < 0)) (size m e)) t
      rw [hsigned, abs_sub_comm] at htriangle
      linarith [le_abs_self (1000000 * size m e)]
    norm_num at hfar
    rw [slack] at hreach
    linarith

/-- A number of milliseconds gives a moment iff its instant is in the calendar. -/
theorem isSome_ofMillis?_iff :
    (ofMillis? n).isSome = true ↔ firstInstant ≤ 1000 * n ∧ 1000 * n < endInstant := by
  rw [firstInstant, endInstant]
  by_cases h : n.natAbs < 2 ^ 38 * 1000
  · obtain ⟨t, ht, hclose⟩ := ofMillis?_within h
    rw [abs_le] at hclose
    by_cases hn : n % 1000 = 0
    · rw [ofMillis?_whole hn (by omega), isSome_atInstant?_iff, firstInstant, endInstant]
    · -- Both ends are whole seconds, and no instant between two seconds is moved past one of them.
      rw [ht, isSome_atInstant?_iff, firstInstant, endInstant]
      omega
  · rw [ofMillis?_far (Nat.not_lt.mp h)]
    simp only [Option.isSome_none, Bool.false_eq_true, false_iff]
    omega

theorem utc_of_ofMillis? {r : Moment} (hr : ofMillis? n = some r) :
    r.offset = some Offset.utc ∧ |instantOf r.date r.clock - 1000 * n| ≤ 15 := by
  have hnear : n.natAbs < 2 ^ 38 * 1000 := by
    by_contra hfar
    rw [ofMillis?_far (Nat.not_lt.mp hfar)] at hr
    cases hr
  obtain ⟨t, ht, hclose⟩ := ofMillis?_within hnear
  rw [ht] at hr
  obtain ⟨hutc, rfl⟩ := atInstant?_eq_some_iff.mp hr
  exact ⟨hutc, hclose⟩

theorem ofMillis?_of_exact {m : Moment} (hutc : m.offset = some Offset.utc)
    (hinstant : instantOf m.date m.clock = 1000 * n) (hn : n % 1000 = 0 ∨ |n| < 2 ^ 33 * 1000) :
    ofMillis? n = some m := by
  have hat := atInstant?_eq_some_iff.mpr ⟨hutc, hinstant⟩
  obtain ⟨hlow, hhigh⟩ := between_of_atInstant? hat
  rw [firstInstant] at hlow
  rw [endInstant] at hhigh
  rcases hn with hn | hn
  · rw [ofMillis?_whole hn (by omega), hat]
  · rw [abs_lt] at hn
    rw [ofMillis?_near (by omega), hat]

end Millis

/-! ## Texts -/

section Texts
open IsoReader Layout Numeral

/-- A time of day with three figures behind the seconds. -/
def millisClockText (c : Clock) : List Char :=
  padded 2 c.hour ++ ':' :: (padded 2 c.minute ++ ':' :: (padded 2 c.second ++ '.' :: padded 3 (c.micro / 1000)))

/-- The ISO 8601 text of a moment with three fractional digits. -/
def millisText (m : Moment) (zone : List Char) : List Char :=
  Moment.dateText m.date ++ 'T' :: (millisClockText m.clock ++ zone)

/-- The names of UTC. -/
def utcNames : List (List Char) := [['Z'], ['+', '0', '0', ':', '0', '0']]

theorem fields?_millisClockText {c : Clock} (h : c.micro % 1000 = 0) :
    fields? (millisClockText c) = some ⟨c.hour, c.minute, c.second, c.micro, false⟩ := by
  have hh : c.hour < 10 ^ 2 := c.hour_lt.trans (by decide)
  have hm : c.minute < 10 ^ 2 := c.minute_lt.trans (by decide)
  have hs : c.second < 10 ^ 2 := c.second_lt.trans (by decide)
  have hmicro := c.micro_lt
  have hf : c.micro / 1000 < 10 ^ 3 := by omega
  have hread := fraction?_padded (by decide) (by decide) hf
  have hback : c.micro / 1000 * 10 ^ (6 - 3) = c.micro := by omega
  obtain ⟨x, t, hxt, -⟩ := exists_padded_eq_cons (by decide) hf
  rw [hback, hxt] at hread
  rw [millisClockText, hxt]
  exact fields?_fraction hh hm hs hread

theorem forall_mem_millisClockText {p : Char → Prop} (hdigit : ∀ d < 10, p (Text.digitChar d)) (hcolon : p ':')
    (hpoint : p '.') (c : Clock) : ∀ ch ∈ millisClockText c, p ch := by
  have hpadded := forall_mem_padded hdigit
  rw [millisClockText]
  simp only [List.forall_mem_append, List.forall_mem_cons]
  exact ⟨hpadded 2 _, hcolon, hpadded 2 _, hcolon, hpadded 2 _, hpoint, hpadded 3 _⟩

theorem moment?_millisText {m : Moment} (hutc : m.offset = some Offset.utc) (h : m.clock.micro % 1000 = 0) :
    moment? (millisText m ['+', '0', '0', ':', '0', '0']) = some m := by
  have hunsigned : ∀ c ∈ millisClockText m.clock, (!isSign c) = true :=
    forall_mem_millisClockText (by decide) (by decide) (by decide) m.clock
  have hreadable : HasReadableOffset m := by
    intro o ho
    rw [hutc] at ho
    cases ho
    exact Or.inl rfl
  have hzone : zoneOf m = ['+', '0', '0', ':', '0', '0'] := by
    rw [zoneOf, hutc]
    decide +kernel
  have hread := moment?_dateText m.date (time?_append hunsigned (fields?_millisClockText h) hreadable)
  rwa [hzone] at hread

theorem ofText?_millisText {m : Moment} (hutc : m.offset = some Offset.utc) (h : m.clock.micro % 1000 = 0)
    {zone : List Char} (hzone : zone ∈ utcNames) : DateField.ofText? (millisText m zone) = some m := by
  have hdigit : ∀ d < 10, Text.isBlank (Text.digitChar d) = false ∧ Text.digitChar d ≠ 'Z' := by decide
  have hfront : ∀ c ∈ Moment.dateText m.date ++ 'T' :: millisClockText m.clock,
      Text.isBlank c = false ∧ c ≠ 'Z' := by
    have hdate := forall_mem_dateText (p := fun c => Text.isBlank c = false ∧ c ≠ 'Z') hdigit (by decide) m.date
    have hclock := forall_mem_millisClockText (p := fun c => Text.isBlank c = false ∧ c ≠ 'Z') hdigit (by decide)
      (by decide) m.clock
    simp only [List.forall_mem_append, List.forall_mem_cons]
    exact ⟨hdate, by decide, hclock⟩
  have htext (zone : List Char) : millisText m zone =
      (Moment.dateText m.date ++ 'T' :: millisClockText m.clock) ++ zone := by simp [millisText]
  have hblank : ∀ zone ∈ utcNames, zone.all (!Text.isBlank ·) = true := by decide
  have hzulu : ∀ zone ∈ utcNames, DateField.expandZulu zone = ['+', '0', '0', ':', '0', '0'] := by decide
  have htrim : Text.trim (millisText m zone) = millisText m zone := by
    refine trimBy_eq_self ?_
    rw [htext]
    exact List.forall_mem_append.mpr ⟨fun c hc => (hfront c hc).1, by simpa using hblank zone hzone⟩
  have hexpand : DateField.expandZulu (millisText m zone) = millisText m ['+', '0', '0', ':', '0', '0'] := by
    have hself := DateField.expandZulu_eq_self fun c hc => (hfront c hc).2
    have hend := hzulu zone hzone
    rw [DateField.expandZulu] at hself hend ⊢
    rw [htext, htext, List.flatMap_append, hself, hend]
  rw [DateField.ofText?, htrim, hexpand, moment?_millisText hutc h, Option.map_some, Moment.orUtc_of_isSome]
  rw [hutc]
  rfl

end Texts

/-! ## Date fields -/

theorem read_int (field : String) (n : ℤ) : DateField.read field (.int n) =
    match ofMillis? n with
    | some m => .ok (.date m)
    | none => .error (Error.ofValue field "date" (.int n) .date) := by
  rw [DateField.read]
  · rfl
  · rintro ⟨⟩

theorem read_text (field : String) (s : String) : DateField.read field (.text s) =
    match DateField.ofText? s.toList with
    | some m => .ok (.date m)
    | none => .error (Error.ofValue field "date" (.text s) .date) := by
  rw [DateField.read]
  · rfl
  · rintro ⟨⟩

/-- A whole number of milliseconds is refused iff its instant is outside the calendar. What it gives is in UTC and
fifteen microseconds away at most. It is the instant itself for whole seconds and for less than `2 ^ 33` seconds
on either side of the epoch; the ISO text of the instant gives the instant itself everywhere. -/
theorem millis_read (field : String) (n : ℤ) :
    (DateField.read field (.int n) = .error (Error.ofValue field "date" (.int n) .date) ↔
      ¬∃ m : Moment, m.offset = some Offset.utc ∧ instantOf m.date m.clock = 1000 * n) ∧
    (∀ v, DateField.read field (.int n) = .ok v → ∃ r, v = .date r ∧ r.offset = some Offset.utc ∧
      |instantOf r.date r.clock - 1000 * n| ≤ 15) ∧
    ∀ m : Moment, m.offset = some Offset.utc → instantOf m.date m.clock = 1000 * n →
      (n % 1000 = 0 ∨ |n| < 2 ^ 33 * 1000 → DateField.read field (.int n) = .ok (.date m)) ∧
      ∀ zone ∈ utcNames, DateField.read field (.text (String.ofList (millisText m zone))) = .ok (.date m) := by
  refine ⟨?_, ?_, ?_⟩
  · rw [exists_moment_iff, ← isSome_ofMillis?_iff, read_int]
    cases ofMillis? n <;> simp
  · intro v hv
    rw [read_int] at hv
    split at hv
    case h_1 r hr =>
      cases hv
      exact ⟨r, rfl, utc_of_ofMillis? hr⟩
    case h_2 => cases hv
  · intro m hutc hinstant
    refine ⟨fun hn => ?_, fun zone hzone => ?_⟩
    · rw [read_int, ofMillis?_of_exact hutc hinstant hn]
    · have hmicro : m.clock.micro % 1000 = 0 := by
        rw [instantOf] at hinstant
        omega
      rw [read_text, String.toList_ofList, ofText?_millisText hutc hmicro hzone]

/-- A moment in the year 2024, with 123 milliseconds. -/
def recent : Moment :=
  ⟨⟨2024, 5, 17, by decide, by decide, by decide, by decide, by decide, by decide⟩,
    ⟨10, 20, 30, 123000, by decide, by decide, by decide, by decide⟩, some Offset.utc⟩

theorem millis_read_recent :
    (recent.offset = some Offset.utc ∧ instantOf recent.date recent.clock = 1000 * 1715941230123 ∧
      |(1715941230123 : ℤ)| < 2 ^ 33 * 1000 ∧ ['Z'] ∈ utcNames) ∧
    DateField.read "sold" (.int 1715941230123) = .ok (.date recent) ∧
    DateField.read "sold" (.text (String.ofList (millisText recent ['Z']))) = .ok (.date recent) := by
  have hinstant : instantOf recent.date recent.clock = 1000 * 1715941230123 := by decide
  have hnear : |(1715941230123 : ℤ)| < 2 ^ 33 * 1000 := by decide
  have hzone : ['Z'] ∈ utcNames := by decide
  obtain ⟨-, -, hread⟩ := millis_read "sold" 1715941230123
  obtain ⟨hint, htext⟩ := hread recent rfl hinstant
  exact ⟨⟨rfl, hinstant, hnear, hzone⟩, hint (Or.inr hnear), htext ['Z'] hzone⟩

/-- One millisecond past `2 ^ 33` seconds after the epoch, as it is read. -/
def missed : Moment :=
  ⟨⟨2242, 3, 16, by decide, by decide, by decide, by decide, by decide, by decide⟩,
    ⟨12, 56, 32, 999, by decide, by decide, by decide, by decide⟩, some Offset.utc⟩

/-- The first instant that is missed, by a microsecond. -/
theorem millisecond_missed : DateField.read "sold" (.int 8589934592001) = .ok (.date missed) ∧
    instantOf missed.date missed.clock = 1000 * 8589934592001 - 1 := by
  refine ⟨?_, by decide⟩
  have hread : ofMillis? 8589934592001 = some missed := by decide +kernel
  rw [read_int, hread]

end GridQuery.EpochMillis

import Mathlib.Algebra.Order.Group.Nat
import GridQuery.Time.Epoch

/-! # Days and moments by number

The numbers of the days run through the years 1 to 9999 without a gap, so that a date and its number determine
each other; moments in UTC are numbered by microseconds in the same way. -/
namespace GridQuery.Time

/-! ## Years -/

def yearLength (year : Nat) : Nat := if isLeap year then 366 else 365

theorem isLeap_iff (year : Nat) : isLeap year = true ↔ 4 ∣ year ∧ (¬100 ∣ year ∨ 400 ∣ year) := by
  simp [isLeap, Nat.dvd_iff_mod_eq_zero]

theorem daysBeforeYear_succ (year : Nat) :
    daysBeforeYear (year + 2) = daysBeforeYear (year + 1) + yearLength (year + 1) := by
  have hle : year / 100 ≤ year / 4 := Nat.div_le_div_left (by decide) (by decide)
  have h4 := @Nat.succ_div year 4
  have h100 := @Nat.succ_div year 100
  have h400 := @Nat.succ_div year 400
  simp only [daysBeforeYear, yearLength, isLeap_iff, Nat.add_sub_cancel, Nat.add_succ_sub_one, h4, h100, h400]
  generalize year / 4 = a, year / 100 = b, year / 400 = c at hle ⊢
  split_ifs <;> omega

theorem daysBeforeYear_monotone : Monotone daysBeforeYear := by
  refine monotone_nat_of_le_succ fun year => ?_
  cases year with
  | zero => exact le_rfl
  | succ year =>
    rw [daysBeforeYear_succ]
    exact Nat.le_add_right _ _

/-- Days by cycles of four hundred years, centuries, groups of four years and years. -/
theorem daysBeforeYear_cycles (a : Nat) {b c d : Nat} (hb : b ≤ 3) (hc : c ≤ 24) (hd : d ≤ 3) :
    daysBeforeYear (a * 400 + b * 100 + c * 4 + d + 1) = a * 146097 + b * 36524 + c * 1461 + d * 365 := by
  rw [daysBeforeYear]
  omega

theorem isLeap_cycles (a : Nat) {b c d : Nat} (hb : b ≤ 3) (hc : c ≤ 24) (hd : d ≤ 3) :
    isLeap (a * 400 + b * 100 + c * 4 + d + 1) = true ↔ d = 3 ∧ (c = 24 → b = 3) := by
  rw [isLeap_iff]
  omega

/-- A number lies within the year that it is put into. -/
theorem yearOfNumber_spec {n : Nat} (h : 1 ≤ n) : daysBeforeYear (Date.yearOfNumber n) < n ∧
    n ≤ daysBeforeYear (Date.yearOfNumber n) + yearLength (Date.yearOfNumber n) := by
  rw [Date.yearOfNumber]
  generalize ha : (n - 1) / 146097 = a
  generalize hr : (n - 1) % 146097 = r
  generalize hb : min (r / 36524) 3 = b
  generalize hs : r - b * 36524 = s
  generalize hc : s / 1461 = c
  generalize hd : min (s % 1461 / 365) 3 = d
  have hn : n = a * 146097 + r + 1 := by omega
  have hr : r = b * 36524 + s := by omega
  have hs : s = c * 1461 + s % 1461 := by omega
  have hb : b ≤ 3 := by omega
  have hc : c ≤ 24 := by omega
  have hd : d ≤ 3 := by omega
  simp only [daysBeforeYear_cycles a hb hc hd, yearLength, isLeap_cycles a hb hc hd]
  split <;> omega

/-! ## Months -/

theorem daysBeforeMonth_succ (year : Nat) {month : Nat} (h : 1 ≤ month) :
    daysBeforeMonth year (month + 1) = daysBeforeMonth year month + daysInMonth year month := by
  obtain ⟨k, rfl⟩ := Nat.exists_eq_add_of_le' h
  rfl

theorem daysBeforeMonth_monotone (year : Nat) : Monotone (daysBeforeMonth year) := by
  refine monotone_nat_of_le_succ fun month => ?_
  cases month with
  | zero => exact le_rfl
  | succ month =>
    rw [daysBeforeMonth_succ year (Nat.le_add_left 1 month)]
    exact Nat.le_add_right _ _

/-- The months fill their year. -/
theorem daysBeforeMonth_thirteen (year : Nat) : daysBeforeMonth year 13 = yearLength year := by
  by_cases hleap : isLeap year = true <;> simp [daysBeforeMonth, daysInMonth, yearLength, hleap]

/-- Each day before the end of a month is in that month or in one before it. -/
theorem exists_month (year : Nat) {index : Nat} (k : Nat) (h : index < daysBeforeMonth year (k + 1)) :
    ∃ m < k, daysBeforeMonth year (m + 1) ≤ index ∧
      index < daysBeforeMonth year (m + 1) + daysInMonth year (m + 1) := by
  induction k with
  | zero => exact absurd h (Nat.not_lt_zero _)
  | succ k ih =>
    by_cases hk : index < daysBeforeMonth year (k + 1)
    · obtain ⟨m, hm, hin⟩ := ih hk
      exact ⟨m, by omega, hin⟩
    · rw [daysBeforeMonth_succ year (by omega)] at h
      exact ⟨k, by omega, by omega, h⟩

/-! ## Dates -/

/-- At most one step of a monotone count goes past a number. -/
theorem eq_of_between {f : Nat → Nat} (hf : Monotone f) {a b n : Nat} (ha : f a ≤ n ∧ n < f (a + 1))
    (hb : f b ≤ n ∧ n < f (b + 1)) : a = b :=
  le_antisymm (Nat.lt_succ_iff.mp (hf.reflect_lt (ha.1.trans_lt hb.2)))
    (Nat.lt_succ_iff.mp (hf.reflect_lt (hb.1.trans_lt ha.2)))

namespace Date

/-- The index of a date in its year, counted from zero. -/
def index (d : Date) : Nat := daysBeforeMonth d.year d.month + (d.day - 1)

theorem index_between (d : Date) :
    daysBeforeMonth d.year d.month ≤ d.index ∧ d.index < daysBeforeMonth d.year (d.month + 1) := by
  have hpos := d.day_pos
  have hle := d.day_le
  rw [index, daysBeforeMonth_succ d.year d.month_pos]
  omega

theorem index_lt (d : Date) : d.index < yearLength d.year := by
  rw [← daysBeforeMonth_thirteen]
  exact d.index_between.2.trans_le (daysBeforeMonth_monotone d.year (Nat.succ_le_succ d.month_le))

theorem number_eq (d : Date) : d.number = daysBeforeYear d.year + d.index + 1 := by
  have hpos := d.day_pos
  rw [number, index]
  omega

theorem number_pos (d : Date) : 1 ≤ d.number := by
  rw [number_eq]
  omega

theorem number_between (d : Date) :
    daysBeforeYear d.year ≤ d.number - 1 ∧ d.number - 1 < daysBeforeYear (d.year + 1) := by
  have hlt := d.index_lt
  obtain ⟨year, hyear⟩ := Nat.exists_eq_add_of_le' d.year_pos
  rw [hyear] at hlt
  rw [number_eq, hyear, daysBeforeYear_succ]
  omega

theorem eq_of_index_eq {d d' : Date} (hyear : d.year = d'.year) (hindex : d.index = d'.index) : d = d' := by
  have hmonth : d.month = d'.month := by
    refine eq_of_between (daysBeforeMonth_monotone d.year) d.index_between ?_
    rw [hyear, hindex]
    exact d'.index_between
  have hday : d.day = d'.day := by
    rw [index, index, hyear, hmonth] at hindex
    have := d.day_pos
    have := d'.day_pos
    omega
  have hself := of?_self d
  rw [hyear, hmonth, hday, of?_self] at hself
  exact (Option.some.inj hself).symm

theorem number_injective : Function.Injective number := by
  intro d d' h
  have hyear : d.year = d'.year := by
    refine eq_of_between daysBeforeYear_monotone d.number_between ?_
    rw [h]
    exact d'.number_between
  rw [number_eq, number_eq, hyear] at h
  exact eq_of_index_eq hyear (by omega)

/-- The number of the last day of the year 9999. -/
def greatestNumber : Nat := 3652059

theorem number_le (d : Date) : d.number ≤ greatestNumber := by
  have hlast : daysBeforeYear (d.year + 1) ≤ daysBeforeYear 10000 :=
    daysBeforeYear_monotone (Nat.succ_le_succ d.year_le)
  have hlt := d.number_between.2
  have htotal : daysBeforeYear 10000 = greatestNumber := by decide
  omega

theorem ofDayOfYear?_eq {year index : Nat} {d : Date} (h : ofDayOfYear? year index = some d) :
    d.year = year ∧ d.index = index := by
  obtain ⟨m, -, hm⟩ := List.exists_of_findSome?_eq_some h
  dsimp only at hm
  split at hm
  case isFalse => cases hm
  case isTrue hin =>
    rw [of?] at hm
    split at hm
    case isFalse => cases hm
    case isTrue =>
      cases hm
      refine ⟨rfl, ?_⟩
      dsimp only [Date.index]
      omega

theorem exists_ofDayOfYear? {year index : Nat} (hyear : 1 ≤ year ∧ year ≤ 9999) (h : index < yearLength year) :
    ∃ d, ofDayOfYear? year index = some d := by
  rw [← daysBeforeMonth_thirteen] at h
  obtain ⟨m, hm, hlow, hhigh⟩ := exists_month year 12 h
  rw [← Option.isSome_iff_exists, ofDayOfYear?, List.findSome?_isSome_iff]
  refine ⟨m, List.mem_range.mpr hm, ?_⟩
  have hvalid : (1 ≤ year ∧ year ≤ 9999) ∧ (1 ≤ m + 1 ∧ m + 1 ≤ 12) ∧
      1 ≤ index - daysBeforeMonth year (m + 1) + 1 ∧
      index - daysBeforeMonth year (m + 1) + 1 ≤ daysInMonth year (m + 1) := by omega
  dsimp only
  rw [if_pos ⟨hlow, hhigh⟩, of?, dif_pos hvalid]
  rfl

theorem number_of_ofNumber? {n : Nat} {d : Date} (h : ofNumber? n = some d) : d.number = n := by
  unfold ofNumber? at h
  split at h
  case isTrue => cases h
  case isFalse hn =>
    obtain ⟨hyear, hindex⟩ := ofDayOfYear?_eq h
    have hspec := yearOfNumber_spec (Nat.one_le_iff_ne_zero.mpr hn)
    rw [number_eq, hyear, hindex]
    omega

theorem exists_ofNumber? {n : Nat} (hpos : 1 ≤ n) (hle : n ≤ greatestNumber) : ∃ d, ofNumber? n = some d := by
  obtain ⟨hlow, hhigh⟩ := yearOfNumber_spec hpos
  have htotal : daysBeforeYear 10000 = greatestNumber := by decide
  have hfirst : 1 ≤ yearOfNumber n := Nat.le_add_left 1 _
  have hlast : yearOfNumber n < 10000 := by
    refine daysBeforeYear_monotone.reflect_lt ?_
    omega
  have hindex : n - 1 - daysBeforeYear (yearOfNumber n) < yearLength (yearOfNumber n) := by omega
  rw [ofNumber?, if_neg (Nat.one_le_iff_ne_zero.mp hpos)]
  exact exists_ofDayOfYear? ⟨hfirst, Nat.lt_succ_iff.mp hlast⟩ hindex

/-- A number gives the date that has it. -/
theorem ofNumber?_eq_some_iff {n : Nat} {d : Date} : ofNumber? n = some d ↔ d.number = n := by
  refine ⟨number_of_ofNumber?, ?_⟩
  rintro rfl
  obtain ⟨d', hd'⟩ := exists_ofNumber? d.number_pos d.number_le
  rw [hd', number_injective (number_of_ofNumber? hd')]

end Date

/-! ## Moments -/

/-- Seconds since midnight. -/
def Clock.seconds (c : Clock) : Nat := c.hour * 3600 + c.minute * 60 + c.second

theorem Clock.seconds_lt (c : Clock) : c.seconds < 86400 := by
  have := c.hour_lt
  have := c.minute_lt
  have := c.second_lt
  rw [seconds]
  omega

theorem Clock.of?_seconds (c : Clock) :
    Clock.of? (c.seconds / 3600) (c.seconds / 60 % 60) (c.seconds % 60) c.micro = some c := by
  have := c.minute_lt
  have := c.second_lt
  have hhour : c.seconds / 3600 = c.hour := by
    rw [seconds]
    omega
  have hminute : c.seconds / 60 % 60 = c.minute := by
    rw [seconds]
    omega
  have hsecond : c.seconds % 60 = c.second := by
    rw [seconds]
    omega
  rw [hhour, hminute, hsecond, of?_self]

theorem Clock.exists_of? {seconds micro : Nat} (hs : seconds < 86400) (hm : micro < 1000000) :
    ∃ c : Clock, c.seconds = seconds ∧ c.micro = micro := by
  have hvalid : seconds / 3600 < 24 ∧ seconds / 60 % 60 < 60 ∧ seconds % 60 < 60 ∧ micro < 1000000 := by omega
  refine ⟨⟨seconds / 3600, seconds / 60 % 60, seconds % 60, micro, hvalid.1, hvalid.2.1, hvalid.2.2.1,
    hvalid.2.2.2⟩, ?_, rfl⟩
  dsimp only [Clock.seconds]
  omega

/-- Microseconds from the epoch to a date and time of day in UTC. -/
def instantOf (d : Date) (c : Clock) : Int := ((d.number - epochDay) * 86400 + c.seconds) * 1000000 + c.micro

/-- The instants of the years 1 to 9999. -/
def firstInstant : Int := -62135596800000000
def endInstant : Int := 253402300800000000

theorem exists_instantOf {t : Int} (hlow : firstInstant ≤ t) (hhigh : t < endInstant) :
    ∃ d c, instantOf d c = t := by
  rw [firstInstant] at hlow
  rw [endInstant] at hhigh
  have hnumber : 1 ≤ (epochDay + t / 1000000 / 86400).toNat ∧
      (epochDay + t / 1000000 / 86400).toNat ≤ Date.greatestNumber := by
    rw [epochDay, Date.greatestNumber]
    omega
  have hseconds : (t / 1000000 % 86400).toNat < 86400 := by omega
  have hmicro : (t % 1000000).toNat < 1000000 := by omega
  obtain ⟨d, hread⟩ := Date.exists_ofNumber? hnumber.1 hnumber.2
  have hd := Date.number_of_ofNumber? hread
  obtain ⟨c, hs, hm⟩ := Clock.exists_of? hseconds hmicro
  refine ⟨d, c, ?_⟩
  rw [instantOf, hd, hs, hm, epochDay]
  omega

/-- The moment in UTC at an instant. -/
def atInstant? (t : Int) : Option Moment := ofSeconds? (t / 1000000) (t % 1000000).toNat

theorem atInstant?_instantOf (d : Date) (c : Clock) :
    atInstant? (instantOf d c) = some ⟨d, c, some Offset.utc⟩ := by
  have hseconds := c.seconds_lt
  have hmicro := c.micro_lt
  have hnumber : (epochDay + instantOf d c / 1000000 / 86400).toNat = d.number := by
    rw [instantOf]
    omega
  have hclock : (instantOf d c / 1000000 % 86400).toNat = c.seconds := by
    rw [instantOf]
    omega
  have hfraction : (instantOf d c % 1000000).toNat = c.micro := by
    rw [instantOf]
    omega
  rw [atInstant?, ofSeconds?, hnumber, hclock, hfraction, Date.ofNumber?_eq_some_iff.mpr rfl, Clock.of?_seconds]
  rfl

theorem between_of_atInstant? {t : Int} {m : Moment} (h : atInstant? t = some m) :
    firstInstant ≤ t ∧ t < endInstant := by
  obtain ⟨d, hd, -⟩ := Option.bind_eq_some_iff.mp h
  have hnumber := Date.ofNumber?_eq_some_iff.mp hd
  have hlow := d.number_pos
  have hhigh : d.number ≤ 3652059 := d.number_le
  rw [epochDay] at hnumber
  rw [firstInstant, endInstant]
  omega

/-- Instants and moments in UTC determine each other. -/
theorem atInstant?_eq_some_iff {t : Int} {m : Moment} :
    atInstant? t = some m ↔ m.offset = some Offset.utc ∧ instantOf m.date m.clock = t := by
  constructor
  · intro h
    obtain ⟨hlow, hhigh⟩ := between_of_atInstant? h
    obtain ⟨d, c, rfl⟩ := exists_instantOf hlow hhigh
    rw [atInstant?_instantOf] at h
    cases h
    exact ⟨rfl, rfl⟩
  · obtain ⟨d, c, o⟩ := m
    rintro ⟨rfl, rfl⟩
    exact atInstant?_instantOf d c

theorem isSome_atInstant?_iff {t : Int} : (atInstant? t).isSome = true ↔ firstInstant ≤ t ∧ t < endInstant := by
  constructor
  · intro h
    obtain ⟨m, hm⟩ := Option.isSome_iff_exists.mp h
    exact between_of_atInstant? hm
  · rintro ⟨hlow, hhigh⟩
    obtain ⟨d, c, rfl⟩ := exists_instantOf hlow hhigh
    rw [atInstant?_instantOf]
    rfl

theorem exists_moment_iff {t : Int} :
    (∃ m : Moment, m.offset = some Offset.utc ∧ instantOf m.date m.clock = t) ↔
      firstInstant ≤ t ∧ t < endInstant := by
  rw [← isSome_atInstant?_iff, Option.isSome_iff_exists]
  simp only [atInstant?_eq_some_iff]

end GridQuery.Time

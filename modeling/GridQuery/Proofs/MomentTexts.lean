import GridQuery.Crud.DateField
import GridQuery.Json.Plain
import GridQuery.Proofs.DecimalNumerals

/-! # Moments written and read back

A response shows a moment as ISO 8601 text. This text has neither blanks nor the letter for UTC, so nothing
is changed before it is read; its fields have fixed widths, and each of them is read from the place where it
was written. -/
namespace GridQuery

/-! ## Numbers of fixed width -/

namespace Numeral
open Text

theorem isDigit_digitChar {d : Nat} (h : d < 10) : (digitChar d).isDigit = true := by
  have hall : ∀ d : Fin 10, (digitChar d.val).isDigit = true := by decide
  exact hall ⟨d, h⟩

theorem asciiDigit?_digitChar {d : Nat} (h : d < 10) : asciiDigit? (digitChar d) = some d := by
  have hall : ∀ d : Fin 10, asciiDigit? (digitChar d.val) = some d.val := by decide
  exact hall ⟨d, h⟩

theorem asciiDigits_map_digitChar {ds : List Nat} (h : ∀ d ∈ ds, d < 10) :
    asciiDigits (ds.map digitChar) = ds := by
  induction ds with
  | nil => rfl
  | cons d r ih =>
    have hd := asciiDigit?_digitChar (h d List.mem_cons_self)
    have hr := ih fun e he => h e (List.mem_cons_of_mem _ he)
    rw [asciiDigits] at hr ⊢
    rw [List.map_cons, List.filterMap_cons_some hd, hr]

theorem ofDigits_replicate_zero_append (k : Nat) (ds : List Nat) :
    ofDigits (List.replicate k 0 ++ ds) = ofDigits ds := by
  induction k with
  | zero => rfl
  | succ k ih => exact ih

/-- The digits of a number with zeros in front. -/
def places (width n : Nat) : List Nat := List.replicate (width - (digits n).length) 0 ++ digits n

theorem lt_ten_of_mem_places {width n d : Nat} (h : d ∈ places width n) : d < 10 := by
  rcases List.mem_append.mp h with h | h
  · rw [List.eq_of_mem_replicate h]
    decide
  · exact lt_ten_of_mem_digits h

theorem length_places {width n : Nat} (hw : 0 < width) (h : n < 10 ^ width) :
    (places width n).length = width := by
  have := length_digits_le hw h
  rw [places, List.length_append, List.length_replicate]
  omega

theorem padded_eq (width n : Nat) : Layout.padded width n = (places width n).map digitChar := by
  rw [Layout.padded, decimalDigits_eq, places, List.map_append, List.map_replicate, List.length_map]
  rfl

theorem length_padded {width n : Nat} (hw : 0 < width) (h : n < 10 ^ width) :
    (Layout.padded width n).length = width := by
  rw [padded_eq, List.length_map, length_places hw h]

theorem forall_mem_padded {p : Char → Prop} (hp : ∀ d < 10, p (digitChar d)) (width n : Nat) :
    ∀ c ∈ Layout.padded width n, p c := by
  intro c hc
  rw [padded_eq] at hc
  obtain ⟨d, hd, rfl⟩ := List.mem_map.mp hc
  exact hp d (lt_ten_of_mem_places hd)

theorem ofDigits_asciiDigits_padded (width n : Nat) : ofDigits (asciiDigits (Layout.padded width n)) = n := by
  rw [padded_eq, asciiDigits_map_digitChar fun d => lt_ten_of_mem_places, places,
    ofDigits_replicate_zero_append, ofDigits_digits]

end Numeral

namespace Time.IsoReader
open Text Layout Numeral

theorem digits?_padded {width n : Nat} (hw : 0 < width) (h : n < 10 ^ width) (rest : List Char) :
    digits? width (padded width n ++ rest) = some (n, rest) := by
  have hlength := length_padded hw h
  have hall : (padded width n).all Char.isDigit = true :=
    List.all_eq_true.mpr (forall_mem_padded (fun d => isDigit_digitChar) width n)
  have htake : (padded width n ++ rest).take width = padded width n := List.take_left' hlength
  have hdrop : (padded width n ++ rest).drop width = rest := List.drop_left' hlength
  rw [digits?, htake, hdrop, if_pos ⟨hlength, hall⟩, ofDigits_asciiDigits_padded]

theorem digits?_padded_end {width n : Nat} (hw : 0 < width) (h : n < 10 ^ width) :
    digits? width (padded width n) = some (n, []) := by
  have hread := digits?_padded hw h []
  rwa [List.append_nil] at hread

theorem exists_padded_eq_cons {width n : Nat} (hw : 0 < width) (h : n < 10 ^ width) :
    ∃ c r, padded width n = c :: r ∧ c.isDigit = true := by
  have hlength := length_padded hw h
  have hdigit := forall_mem_padded (p := (·.isDigit = true)) (fun d => isDigit_digitChar) width n
  cases hcs : padded width n with
  | nil =>
    rw [hcs, List.length_nil] at hlength
    omega
  | cons c r =>
    rw [hcs] at hdigit
    exact ⟨c, r, rfl, hdigit c List.mem_cons_self⟩

/-! ## Dates -/

section Dates
variable (d : Date)

theorem year_lt : d.year < 10 ^ 4 := Nat.lt_succ_of_le d.year_le

theorem month_lt : d.month < 10 ^ 2 := Nat.lt_of_le_of_lt d.month_le (by decide)

theorem day_lt : d.day < 10 ^ 2 := by
  have hmonth : daysInMonth d.year d.month ≤ 31 := by
    unfold daysInMonth
    split
    · split <;> decide
    · split <;> decide
  exact Nat.lt_of_le_of_lt (Nat.le_trans d.day_le hmonth) (by decide)

/-- The month begins with a figure, which is not the letter of a week date. -/
theorem exists_month_eq_cons : ∃ c r, padded 2 d.month = c :: r ∧ c ≠ 'W' := by
  obtain ⟨c, r, hcr, hc⟩ := exists_padded_eq_cons (by decide) (month_lt d)
  refine ⟨c, r, hcr, ?_⟩
  rintro rfl
  cases hc

theorem length_dateText : (Moment.dateText d).length = 10 := by
  have hy := length_padded (by decide) (year_lt d)
  have hm := length_padded (by decide) (month_lt d)
  have hd := length_padded (by decide) (day_lt d)
  simp [Moment.dateText, hy, hm, hd]

theorem dateLength?_dateText (rest : List Char) : dateLength? (Moment.dateText d ++ rest) = some 10 := by
  have hlength : (Moment.dateText d ++ rest).length = 10 + rest.length := by
    rw [List.length_append, length_dateText]
  obtain ⟨c, r, hcr, hc⟩ := exists_month_eq_cons d
  have htext : Moment.dateText d ++ rest =
      padded 4 d.year ++ '-' :: c :: (r ++ '-' :: (padded 2 d.day ++ rest)) := by
    rw [Moment.dateText, hcr]
    simp
  have hy := length_padded (by decide) (year_lt d)
  have hhyphen : (Moment.dateText d ++ rest)[4]? = some '-' := by
    rw [htext, List.getElem?_append_right (by omega), hy]
    rfl
  have hmonth : (Moment.dateText d ++ rest)[5]? = some c := by
    rw [htext, List.getElem?_append_right (by omega), hy]
    rfl
  have hshort : ¬10 + rest.length < 7 ∧ ¬10 + rest.length = 7 := by omega
  simp [dateLength?, hlength, hshort, hhyphen, hmonth, hc]

theorem date?_dateText : date? (Moment.dateText d) = some d := by
  have hyear := digits?_padded (by decide) (year_lt d) ('-' :: padded 2 d.month ++ '-' :: padded 2 d.day)
  have hmonth := digits?_padded (by decide) (month_lt d) ('-' :: padded 2 d.day)
  have hday := digits?_padded_end (by decide) (day_lt d)
  obtain ⟨c, r, hcr, hc⟩ := exists_month_eq_cons d
  rw [hcr] at hmonth hyear
  rw [date?, Moment.dateText, hcr, List.append_assoc, hyear]
  rw [List.cons_append] at hmonth
  simp [hyphen?, hmonth, hday, hc]

end Dates

/-! ## Times -/

theorem fraction?_padded {width n : Nat} (hw : 0 < width) (hle : width ≤ 6) (h : n < 10 ^ width) :
    fraction? (padded width n) = some (n * 10 ^ (6 - width), false) := by
  have hlength := length_padded hw h
  have hmin : min 6 width = width := Nat.min_eq_right hle
  have hread := digits?_padded_end hw h
  simp [fraction?, hlength, hmin, hread]

/-- A point and six figures, if there is a fraction at all. -/
def fractionText (micro : Nat) : List Char := if micro = 0 then [] else '.' :: padded 6 micro

section Times
variable {hour minute second micro : Nat}

theorem fields?_minutes (hh : hour < 10 ^ 2) (hm : minute < 10 ^ 2) :
    fields? (padded 2 hour ++ ':' :: padded 2 minute) = some ⟨hour, minute, 0, 0, false⟩ := by
  have hhour := digits?_padded (by decide) hh (':' :: padded 2 minute)
  have hminute := digits?_padded_end (by decide) hm
  obtain ⟨c, r, hcr, -⟩ := exists_padded_eq_cons (by decide) hm
  rw [hcr] at hhour hminute ⊢
  simp [fields?, hhour, hminute, follow]

/-- A fraction behind the third pair is read by itself. -/
theorem fields?_fraction (hh : hour < 10 ^ 2) (hm : minute < 10 ^ 2) (hs : second < 10 ^ 2) {x : Char}
    {t : List Char} (hread : fraction? (x :: t) = some (micro, false)) :
    fields? (padded 2 hour ++ ':' :: (padded 2 minute ++ ':' :: (padded 2 second ++ '.' :: x :: t))) =
      some ⟨hour, minute, second, micro, false⟩ := by
  have hhour := digits?_padded (by decide) hh
    (':' :: (padded 2 minute ++ ':' :: (padded 2 second ++ '.' :: x :: t)))
  have hminute := digits?_padded (by decide) hm (':' :: (padded 2 second ++ '.' :: x :: t))
  have hsecond := digits?_padded (by decide) hs ('.' :: x :: t)
  obtain ⟨c, r, hcr, -⟩ := exists_padded_eq_cons (by decide) hm
  obtain ⟨e, q, heq, -⟩ := exists_padded_eq_cons (by decide) hs
  rw [hcr] at hhour hminute ⊢
  rw [heq] at hhour hminute hsecond ⊢
  simp only [List.cons_append] at hhour hminute hsecond ⊢
  simp [fields?, hhour, hminute, hsecond, follow, hread]

theorem fields?_seconds (hh : hour < 10 ^ 2) (hm : minute < 10 ^ 2) (hs : second < 10 ^ 2)
    (hf : micro < 10 ^ 6) :
    fields? (padded 2 hour ++ ':' :: (padded 2 minute ++ ':' :: (padded 2 second ++ fractionText micro))) =
      some ⟨hour, minute, second, micro, false⟩ := by
  by_cases hzero : micro = 0
  · have hhour := digits?_padded (by decide) hh (':' :: (padded 2 minute ++ ':' :: padded 2 second))
    have hminute := digits?_padded (by decide) hm (':' :: padded 2 second)
    have hsecond := digits?_padded_end (by decide) hs
    obtain ⟨c, r, hcr, -⟩ := exists_padded_eq_cons (by decide) hm
    obtain ⟨e, q, heq, -⟩ := exists_padded_eq_cons (by decide) hs
    rw [fractionText, if_pos hzero, List.append_nil]
    rw [hcr] at hhour hminute ⊢
    rw [heq] at hhour hminute hsecond ⊢
    simp only [List.cons_append] at hhour hminute ⊢
    simp [fields?, hhour, hminute, hsecond, follow, hzero]
  · obtain ⟨x, t, hxt, -⟩ := exists_padded_eq_cons (by decide) hf
    have hread := fraction?_padded (by decide) (Nat.le_refl 6) hf
    rw [hxt, Nat.sub_self, Nat.pow_zero, Nat.mul_one] at hread
    rw [fractionText, if_neg hzero, hxt]
    exact fields?_fraction hh hm hs hread

end Times

theorem clockText_eq (c : Clock) : Moment.clockText c =
    padded 2 c.hour ++ ':' :: (padded 2 c.minute ++ ':' :: (padded 2 c.second ++ fractionText c.micro)) := by
  simp [Moment.clockText, fractionText]

theorem fields?_clockText (c : Clock) :
    fields? (Moment.clockText c) = some ⟨c.hour, c.minute, c.second, c.micro, false⟩ := by
  have hh : c.hour < 10 ^ 2 := Nat.lt_trans c.hour_lt (by decide)
  have hm : c.minute < 10 ^ 2 := Nat.lt_trans c.minute_lt (by decide)
  have hs : c.second < 10 ^ 2 := Nat.lt_trans c.second_lt (by decide)
  rw [clockText_eq, fields?_seconds hh hm hs c.micro_lt]

/-! ## Offsets -/

section Offsets
variable (o : Offset)

/-- An offset without its sign. -/
def zoneText : List Char := (Moment.offsetText o).tail

theorem offsetText_eq : Moment.offsetText o = (if o.micros < 0 then '-' else '+') :: zoneText o := rfl

/-- The fields that are written for an offset. -/
theorem fields?_zoneText : ∃ f, fields? (zoneText o) = some f ∧ f.surplus = false ∧
    f.hour * 3600 + f.minute * 60 + f.second = o.micros.natAbs / 1000000 ∧
    f.micro = o.micros.natAbs % 1000000 := by
  have habs : o.micros.natAbs < 86400000000 := by
    have habove : -86400000000 < o.micros := o.above
    have hbelow : o.micros < 86400000000 := o.below
    omega
  generalize hus : o.micros.natAbs = us at habs
  have hh : us / 1000000 / 3600 < 10 ^ 2 := by omega
  have hm : us / 1000000 / 60 % 60 < 10 ^ 2 := by omega
  have hs : us / 1000000 % 60 < 10 ^ 2 := by omega
  have hf : us % 1000000 < 10 ^ 6 := by omega
  have hsum : us / 1000000 / 3600 * 3600 + us / 1000000 / 60 % 60 * 60 + us / 1000000 % 60 = us / 1000000 := by
    omega
  have hminutes := fields?_minutes hh hm
  have hseconds := fields?_seconds hh hm hs hf
  by_cases hshort : us % 1000000 = 0 ∧ us / 1000000 % 60 = 0
  · obtain ⟨hmicro, hsecond⟩ := hshort
    have htext : zoneText o = padded 2 (us / 1000000 / 3600) ++ ':' :: padded 2 (us / 1000000 / 60 % 60) := by
      simp [zoneText, Moment.offsetText, hus, hmicro, hsecond]
    rw [htext]
    exact ⟨_, hminutes, rfl, by simpa [hsecond] using hsum, by simp [hmicro]⟩
  · have htext : zoneText o = padded 2 (us / 1000000 / 3600) ++ ':' :: (padded 2 (us / 1000000 / 60 % 60) ++
        ':' :: (padded 2 (us / 1000000 % 60) ++ fractionText (us % 1000000))) := by
      by_cases hmicro : us % 1000000 = 0
      · have hsecond : us / 1000000 % 60 ≠ 0 := fun hs => hshort ⟨hmicro, hs⟩
        simp [zoneText, Moment.offsetText, hus, hmicro, hsecond, fractionText]
      · simp [zoneText, Moment.offsetText, hus, hmicro, fractionText]
    rw [htext]
    exact ⟨_, hseconds, rfl, hsum, rfl⟩

theorem of?_micros : Offset.of? o.micros = some o := by
  rw [Offset.of?, dif_pos ⟨o.above, o.below⟩]

/-- An offset is read back, unless it is a fraction of a second alone. -/
theorem offset?_zoneText (h : o.micros = 0 ∨ 1000000 ≤ o.micros.natAbs) :
    offset? (decide (o.micros < 0)) (zoneText o) = some o := by
  obtain ⟨f, hf, hsurplus, hseconds, hmicro⟩ := fields?_zoneText o
  have hcast : (f.hour : Int) * 3600 + f.minute * 60 + f.second = o.micros.natAbs / 1000000 := by
    omega
  have hmicros : (if (o.micros.natAbs : Int) / 1000000 = 0 then 0
      else (o.micros.natAbs : Int) / 1000000 * 1000000 + f.micro) = o.micros.natAbs := by
    split <;> omega
  have hsigned : (if decide (o.micros < 0) = true then -(o.micros.natAbs : Int) else o.micros.natAbs) =
      o.micros := by
    by_cases hneg : o.micros < 0
    · simp only [hneg, decide_true, if_true]
      omega
    · simp only [hneg, decide_false]
      rw [if_neg (by decide)]
      omega
  rw [offset?, hf]
  simp only [Option.bind_eq_bind, Option.bind_some, hsurplus]
  rw [hcast, hmicros, hsigned, if_neg (by decide), of?_micros]

end Offsets

/-! ## What the text is made of -/

section Characters
variable {p : Char → Prop} (hdigit : ∀ d < 10, p (digitChar d))
include hdigit

theorem forall_mem_dateText (hhyphen : p '-') (d : Date) : ∀ c ∈ Moment.dateText d, p c := by
  have hpadded := forall_mem_padded hdigit
  simp only [Moment.dateText, List.forall_mem_append, List.forall_mem_cons]
  exact ⟨⟨hpadded 4 _, hhyphen, hpadded 2 _⟩, hhyphen, hpadded 2 _⟩

theorem forall_mem_clockText (hcolon : p ':') (hpoint : p '.') (k : Clock) : ∀ c ∈ Moment.clockText k, p c := by
  have hpadded := forall_mem_padded hdigit
  have hfraction : ∀ c ∈ fractionText k.micro, p c := by
    unfold fractionText
    split
    · intro c hc
      cases hc
    · simp only [List.forall_mem_cons]
      exact ⟨hpoint, hpadded 6 _⟩
  rw [clockText_eq]
  simp only [List.forall_mem_append, List.forall_mem_cons]
  exact ⟨hpadded 2 _, hcolon, hpadded 2 _, hcolon, hpadded 2 _, hfraction⟩

theorem forall_mem_offsetText (hminus : p '-') (hplus : p '+') (hcolon : p ':') (hpoint : p '.') (o : Offset) :
    ∀ c ∈ Moment.offsetText o, p c := by
  have hpadded := forall_mem_padded hdigit
  rw [Moment.offsetText]
  simp only [List.cons_append, List.forall_mem_append, List.forall_mem_cons]
  refine ⟨?_, ⟨hpadded 2 _, hcolon, hpadded 2 _⟩, ?_⟩
  · split
    · exact hminus
    · exact hplus
  · split
    · simp only [List.forall_mem_append, List.forall_mem_cons]
      exact ⟨hcolon, hpadded 2 _, hpoint, hpadded 6 _⟩
    · split
      · simp only [List.forall_mem_cons]
        exact ⟨hcolon, hpadded 2 _⟩
      · intro c hc
        cases hc

end Characters

/-! ## Moments -/

variable {m : Moment}

/-- Offsets that can be read back. -/
def HasReadableOffset (m : Moment) : Prop :=
  ∀ o, m.offset = some o → o.micros = 0 ∨ 1000000 ≤ o.micros.natAbs

def zoneOf (m : Moment) : List Char := (m.offset.map Moment.offsetText).getD []

/-- A time of day without a sign is read apart from the offset behind it. -/
theorem time?_append {s : List Char} {c : Clock} (hunsigned : ∀ ch ∈ s, (!isSign ch) = true)
    (hclock : fields? s = some ⟨c.hour, c.minute, c.second, c.micro, false⟩) (h : HasReadableOffset m) :
    time? (s ++ zoneOf m) = some (c, m.offset) := by
  rw [time?, List.takeWhile_append_of_pos hunsigned, List.dropWhile_append_of_pos hunsigned]
  cases hoffset : m.offset with
  | none =>
    have hzone : zoneOf m = [] := by rw [zoneOf, hoffset]; rfl
    simp [hzone, hclock]
  | some o =>
    have hzone : zoneOf m = (if o.micros < 0 then '-' else '+') :: zoneText o := by
      rw [zoneOf, hoffset]
      exact offsetText_eq o
    have hread := offset?_zoneText o (h o hoffset)
    rw [hzone]
    by_cases hneg : o.micros < 0
    · rw [decide_eq_true hneg] at hread
      simp [hneg, isSign, hclock, hread]
    · rw [decide_eq_false hneg] at hread
      simp [hneg, isSign, hclock, hread]

/-- A date is read apart from the time behind it. -/
theorem moment?_dateText (d : Date) {s : List Char} {c : Clock} {o : Option Offset}
    (hs : time? s = some (c, o)) : moment? (Moment.dateText d ++ 'T' :: s) = some ⟨d, c, o⟩ := by
  have hlength := length_dateText d
  have htake : (Moment.dateText d ++ 'T' :: s).take 10 = Moment.dateText d := List.take_left' hlength
  have hdrop : (Moment.dateText d ++ 'T' :: s).drop 10 = 'T' :: s := List.drop_left' hlength
  rw [moment?, dateLength?_dateText]
  simp only [Option.bind_eq_bind, Option.bind_some, htake, hdrop, date?_dateText, hs, Option.map_some]

theorem moment?_isoText (h : HasReadableOffset m) : moment? (m.isoText 'T') = some m := by
  have htext : m.isoText 'T' = Moment.dateText m.date ++ 'T' :: (Moment.clockText m.clock ++ zoneOf m) := by
    simp [Moment.isoText, zoneOf]
  have hunsigned : ∀ c ∈ Moment.clockText m.clock, (!isSign c) = true :=
    forall_mem_clockText (by decide) (by decide) (by decide) m.clock
  rw [htext]
  exact moment?_dateText m.date (time?_append hunsigned (fields?_clockText m.clock) h)

end Time.IsoReader

namespace DateField
open Text Time

theorem expandZulu_eq_self {s : List Char} (h : ∀ c ∈ s, c ≠ 'Z') : expandZulu s = s := by
  induction s with
  | nil => rfl
  | cons c r ih =>
    have hr : expandZulu r = r := ih fun e he => h e (List.mem_cons_of_mem _ he)
    rw [expandZulu] at hr ⊢
    rw [List.flatMap_cons, if_neg (h c List.mem_cons_self), hr]
    rfl

/-- What may be changed before a text is read does not occur in the text of a moment. -/
theorem forall_mem_isoText (m : Moment) : ∀ c ∈ m.isoText 'T', isBlank c = false ∧ c ≠ 'Z' := by
  have hdigit : ∀ d < 10, isBlank (digitChar d) = false ∧ digitChar d ≠ 'Z' := by decide
  have hminus : isBlank '-' = false ∧ '-' ≠ 'Z' := by decide
  have hcolon : isBlank ':' = false ∧ ':' ≠ 'Z' := by decide
  have hpoint : isBlank '.' = false ∧ '.' ≠ 'Z' := by decide
  have hplus : isBlank '+' = false ∧ '+' ≠ 'Z' := by decide
  let p (c : Char) : Prop := isBlank c = false ∧ c ≠ 'Z'
  have hdate := IsoReader.forall_mem_dateText (p := p) hdigit hminus m.date
  have hclock := IsoReader.forall_mem_clockText (p := p) hdigit hcolon hpoint m.clock
  have hoffset := IsoReader.forall_mem_offsetText (p := p) hdigit hminus hplus hcolon hpoint
  simp only [Moment.isoText, List.forall_mem_append, List.forall_mem_cons]
  refine ⟨⟨hdate, by decide, hclock⟩, ?_⟩
  cases m.offset with
  | none =>
    intro c hc
    cases hc
  | some o => exact hoffset o

theorem ofText?_isoText {m : Moment} (h : IsoReader.HasReadableOffset m) :
    ofText? (m.isoText 'T') = some m.orUtc := by
  have htrim : trim (m.isoText 'T') = m.isoText 'T' := trimBy_eq_self fun c hc => (forall_mem_isoText m c hc).1
  have hzulu : expandZulu (m.isoText 'T') = m.isoText 'T' :=
    expandZulu_eq_self fun c hc => (forall_mem_isoText m c hc).2
  rw [ofText?, htrim, hzulu, IsoReader.moment?_isoText h]
  rfl

end DateField

namespace MomentTexts
open Time

/-- A moment whose offset, if there is one, is a whole number of seconds is shown as a text that a date field
reads as the same date and time of day, with the same offset, or as UTC where there is none. -/
theorem shown_moment_read (field : String) (m : Moment)
    (h : ∀ o, m.offset = some o → o.micros % 1000000 = 0) :
    ∃ s r, Json.plain? (.date m) = some (.text s) ∧ DateField.read field (.text s) = .ok (.date r) ∧
      r.date = m.date ∧ r.clock = m.clock ∧ r.offset = some (m.offset.getD Offset.utc) := by
  have hreadable : IsoReader.HasReadableOffset m := by
    intro o ho
    have := h o ho
    omega
  refine ⟨_, m.orUtc, rfl, ?_, rfl, rfl, rfl⟩
  rw [DateField.read]
  · rw [DateField.moment?, String.toList_ofList, DateField.ofText?_isoText hreadable]
  · rintro ⟨⟩

/-- The last second of the calendar, on a clock that is a quarter of an hour and a second behind UTC. -/
def lastSecond : Moment :=
  ⟨⟨9999, 12, 31, by decide, by decide, by decide, by decide, by decide, by decide⟩,
    ⟨23, 59, 59, 7, by decide, by decide, by decide, by decide⟩,
    some ⟨-901000000, by decide, by decide⟩⟩

theorem shown_moment_read_behind :
    (∀ o, lastSecond.offset = some o → o.micros % 1000000 = 0) ∧
      ∃ s r, Json.plain? (.date lastSecond) = some (.text s) ∧
        DateField.read "sold" (.text s) = .ok (.date r) ∧
        r.date = lastSecond.date ∧ r.clock = lastSecond.clock ∧
        r.offset = some ⟨-901000000, by decide, by decide⟩ := by
  have hwhole : ∀ o, lastSecond.offset = some o → o.micros % 1000000 = 0 := by
    intro o ho
    cases ho
    decide
  exact ⟨hwhole, shown_moment_read "sold" lastSecond hwhole⟩

end MomentTexts
end GridQuery

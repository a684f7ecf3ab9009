import GridQuery.Proofs.EpochMillis
import GridQuery.Proofs.IsoLayouts

/-! # Texts with a `Z`

Each `Z` in the text of a date field is read as the offset of UTC. Where the first one stands behind a date, its
plus sign is the separator of a time of day that begins at midnight; behind a time of day it begins an offset, which
what stands behind the `Z` may continue. -/
namespace GridQuery

namespace Time.IsoReader

/-- The date and time of day that a text without an offset gives, whatever is left over behind them. -/
def unzoned? (s : List Char) : Option Moment := do
  let (date, r) ← dated? s
  match r with
  | [] => some ⟨date, Clock.midnight, none⟩
  | _ :: t => if t.any isSign then none else (clock? t).map (⟨date, ·, none⟩)

theorem unzoned?_eq_some_iff {s : List Char} {m : Moment} :
    unzoned? s = some m ↔ ∃ d r, dated? s = some (d, r) ∧ (r = [] ∧ m = ⟨d, Clock.midnight, none⟩ ∨
      ∃ separator t c, r = separator :: t ∧ (∀ ch ∈ t, isSign ch = false) ∧ clock? t = some c ∧
        m = ⟨d, c, none⟩) := by
  simp only [unzoned?, Option.bind_eq_bind, Option.bind_eq_some_iff, Prod.exists]
  constructor
  · rintro ⟨d, r, hdated, h⟩
    refine ⟨d, r, hdated, ?_⟩
    split at h
    · cases h
      exact Or.inl ⟨rfl, rfl⟩
    · rename_i separator t
      simp only [Option.ite_none_left_eq_some, Option.map_eq_some_iff, List.any_eq_true, not_exists, not_and,
        Bool.not_eq_true] at h
      obtain ⟨hunsigned, c, hc, rfl⟩ := h
      exact Or.inr ⟨separator, t, c, rfl, hunsigned, hc, rfl⟩
  · rintro ⟨d, r, hdated, ⟨rfl, rfl⟩ | ⟨separator, t, c, rfl, hunsigned, hc, rfl⟩⟩
    · exact ⟨d, [], hdated, rfl⟩
    · refine ⟨d, separator :: t, hdated, ?_⟩
      dsimp only
      rw [if_neg (by simpa using hunsigned), hc, Option.map_some]

theorem unzoned?_of_moment? {s : List Char} {m : Moment} (h : moment? s = some m) (ho : m.offset = none) :
    unzoned? s = some m := by
  obtain ⟨d, r, hdated, hr⟩ := moment?_eq_some_iff.mp h
  refine unzoned?_eq_some_iff.mpr ⟨d, r, hdated, ?_⟩
  rcases hr with hr | ⟨separator, t, c, o, rfl, ht, rfl⟩
  · exact Or.inl hr
  · cases ho
    have hunsigned := unsigned_of_time? ht
    obtain ⟨f, hf, -, hc, -⟩ := (time?_unsigned hunsigned).mp ht
    exact Or.inr ⟨separator, t, c, rfl, hunsigned, by rw [clock?, hf, Option.bind_some, hc], rfl⟩

end Time.IsoReader

namespace DateField
open Time IsoReader

/-- What stands behind the plus sign of the first `Z`, with what is behind this letter. -/
def afterPlus (back : List Char) : List Char := '0' :: '0' :: ':' :: '0' :: '0' :: expandZulu back

theorem expandZulu_append {front : List Char} (h : 'Z' ∉ front) (back : List Char) :
    expandZulu (front ++ 'Z' :: back) = front ++ '+' :: afterPlus back := by
  have hfront : expandZulu front = front := expandZulu_eq_self fun c hc hz => h (hz ▸ hc)
  rw [expandZulu] at hfront ⊢
  rw [List.flatMap_append, hfront, List.flatMap_cons]
  rfl

theorem read_text_eq_ok_iff {field s : String} {v : Value} :
    read field (.text s) = .ok v ↔ ∃ m, ofText? s.toList = some m ∧ v = .date m := by
  rw [EpochMillis.read_text]
  cases ofText? s.toList <;> simp [eq_comm]

/-- The ways to read a text with a `Z`, by what is in front of the first one and what is behind it. -/
inductive ReadsZulu (front back : List Char) : Moment → Prop
  /-- Behind a date alone, the plus sign is its separator from a time of day. -/
  | date {d : Date} {c : Clock} {o : Option Offset} (hd : date? front = some d)
      (ht : time? (afterPlus back) = some (c, o)) : ReadsZulu front back (Moment.orUtc ⟨d, c, o⟩)
  /-- Behind a time of day, the plus sign begins an offset. -/
  | clock {d : Date} {separator : Char} {t : List Char} {c : Clock} {o : Offset}
      (hd : dated? front = some (d, separator :: t)) (ht : ∀ ch ∈ t, isSign ch = false) (hc : clock? t = some c)
      (ho : offset? false (afterPlus back) = some o) : ReadsZulu front back ⟨d, c, some o⟩
  /-- In an offset, a null character hides the letter. -/
  | hidden {d : Date} {separator sign : Char} {t zone : List Char} {c : Clock} {o : Offset}
      (hd : dated? front = some (d, separator :: (t ++ sign :: zone))) (ht : ∀ ch ∈ t, isSign ch = false)
      (hsign : isSign sign = true) (hc : clock? t = some c)
      (ho : offset? (sign == '-') (zone ++ '+' :: afterPlus back) = some o) (hnull : '\x00' ∈ zone) :
      ReadsZulu front back ⟨d, c, some o⟩

theorem ofText?_eq_some_iff {s front back : List Char} (hs : Text.trim s = front ++ 'Z' :: back)
    (hfront : 'Z' ∉ front) (m : Moment) : ofText? s = some m ↔ ReadsZulu front back m := by
  have hplus : isSign '+' = true := rfl
  rw [ofText?, hs, expandZulu_append hfront, Option.map_eq_some_iff]
  constructor
  · rintro ⟨m, hm, rfl⟩
    obtain ⟨d, r, c, o, hd, ht, rfl⟩ := moment?_append.mp hm
    cases r with
    | nil => exact .date (dated?_eq_some_nil_iff.mp hd) ht
    | cons separator t =>
      by_cases hsigned : ∀ ch ∈ t, isSign ch = false
      · obtain ⟨hc, o, ho, rfl⟩ := (time?_sign hsigned hplus).mp ht
        exact .clock hd hsigned hc ho
      · obtain ⟨t, sign, zone, rfl, hunsigned, hsign⟩ := exists_sign hsigned
        rw [List.cons_append, List.tail_cons, List.append_assoc] at ht
        obtain ⟨hc, o, ho, rfl⟩ := (time?_sign hunsigned hsign).mp ht
        have hnull := mem_of_isVisibleTime (isVisibleTime_of_offset? ho) (by simp [IsTimeMark]) (by decide)
        exact .hidden hd hunsigned hsign hc ho hnull
  · rintro (⟨hd, ht⟩ | ⟨hd, ht, hc, ho⟩ | ⟨hd, ht, hsign, hc, ho, -⟩)
    · exact ⟨_, moment?_append.mpr ⟨_, [], _, _, dated?_eq_some_nil_iff.mpr hd, ht, rfl⟩, rfl⟩
    · have htime := (time?_sign ht hplus).mpr ⟨hc, _, ho, rfl⟩
      exact ⟨_, moment?_append.mpr ⟨_, _, _, _, hd, htime, rfl⟩, rfl⟩
    · have htime := (time?_sign ht hsign).mpr ⟨hc, _, ho, rfl⟩
      rw [← List.cons_append, ← List.append_assoc] at htime
      exact ⟨_, moment?_append.mpr ⟨_, _, _, _, hd, htime, rfl⟩, rfl⟩

/-- The characters that can go on with a time of day of hours and minutes: three marks, and the null character. -/
def continuations : List Char := [':', '.', ',', '\x00']

theorem follow_of_not_mem {c : Char} (h : c ∉ continuations) (r : List Char) :
    follow (some true) (c :: r) = .finished true ∨ follow (some true) (c :: r) = .malformed := by
  simp only [continuations, List.mem_cons, List.not_mem_nil, or_false, not_or] at h
  obtain ⟨hcolon, hpoint, hcomma, hnull⟩ := h
  cases r with
  | nil =>
    rw [follow]
    split
    · left
      simp [isSurplus, hnull]
    · exact Or.inr rfl
  | cons e r => right; simp [follow, hcolon, hpoint, hcomma]

theorem surplus_of_fields?_zeros {c : Char} (h : c ∉ continuations) {r : List Char} {f : Fields}
    (hf : fields? ('0' :: '0' :: ':' :: '0' :: '0' :: c :: r) = some f) : f.surplus = true := by
  have hzeros (s : List Char) : digits? 2 ('0' :: '0' :: s) = some (0, s) := rfl
  have hcolon : follow none (':' :: '0' :: '0' :: c :: r) = .pair true ('0' :: '0' :: c :: r) := rfl
  simp only [fields?, hzeros, Option.bind_eq_bind, Option.bind_some, hcolon] at hf
  rcases follow_of_not_mem h r with hfollow | hfollow
  · rw [hfollow] at hf
    cases hf
    rfl
  · rw [hfollow] at hf
    cases hf

/-- What follows a `Z` follows the offset that it is read as, and another `Z` is no continuation either. -/
theorem exists_afterPlus_eq {c : Char} (h : c ∉ continuations) (back : List Char) :
    ∃ e r, afterPlus (c :: back) = '0' :: '0' :: ':' :: '0' :: '0' :: e :: r ∧ e ∉ continuations := by
  rw [afterPlus, expandZulu, List.flatMap_cons]
  split
  · exact ⟨'+', _, rfl, by decide⟩
  · exact ⟨c, _, rfl, h⟩

theorem offset?_afterPlus_of_not_mem {c : Char} (h : c ∉ continuations) (back : List Char) :
    offset? false (afterPlus (c :: back)) = none := by
  obtain ⟨e, r, htext, he⟩ := exists_afterPlus_eq h back
  refine Option.eq_none_iff_forall_ne_some.mpr fun o ho => ?_
  simp only [offset?, Option.bind_eq_bind, Option.bind_eq_some_iff, Option.ite_none_left_eq_some] at ho
  obtain ⟨f, hf, hsurplus, -⟩ := ho
  rw [htext] at hf
  exact hsurplus (surplus_of_fields?_zeros he hf)

/-- Without a sign and another `Z`, what follows a `Z` behind a date alone must go on with its time of day. -/
theorem time?_afterPlus_of_not_mem {c : Char} (h : c ∉ continuations) {back : List Char}
    (hback : ∀ e ∈ c :: back, e ∉ ['+', '-', 'Z']) : time? (afterPlus (c :: back)) = none := by
  obtain ⟨e, r, htext, he⟩ := exists_afterPlus_eq h back
  have hexpand : expandZulu (c :: back) = c :: back :=
    expandZulu_eq_self fun e he hz => hback e he (by simp [hz])
  have hsign : ∀ e ∈ c :: back, isSign e = false := by
    intro e he
    have hother := hback e he
    simp only [List.mem_cons, List.not_mem_nil, or_false, not_or] at hother
    simp [isSign, hother]
  have hunsigned : ∀ e ∈ afterPlus (c :: back), isSign e = false := by
    rw [afterPlus, hexpand]
    rw [List.forall_mem_cons] at hsign
    simp only [List.forall_mem_cons]
    exact ⟨rfl, rfl, rfl, rfl, rfl, hsign⟩
  refine Option.eq_none_iff_forall_ne_some.mpr fun t ht => ?_
  obtain ⟨f, hf, hsurplus, -⟩ := (time?_unsigned hunsigned).mp ht
  rw [htext] at hf
  rw [surplus_of_fields?_zeros he hf] at hsurplus
  cases hsurplus

theorem offset?_afterPlus_nil : offset? false (afterPlus []) = some Offset.utc := by decide +kernel

theorem time?_afterPlus_nil : time? (afterPlus []) = some (Clock.midnight, none) := by decide +kernel

section Ends
variable {front back : List Char} {m : Moment}

theorem readsZulu_of_unzoned? (h : unzoned? front = some m) : ReadsZulu front [] m.orUtc := by
  obtain ⟨d, r, hd, ⟨rfl, rfl⟩ | ⟨separator, t, c, rfl, ht, hc, rfl⟩⟩ := unzoned?_eq_some_iff.mp h
  · exact .date (dated?_eq_some_nil_iff.mp hd) time?_afterPlus_nil
  · exact .clock hd ht hc offset?_afterPlus_nil

/-- A `Z` at the end: what stands in front of it is in UTC. -/
theorem readsZulu_nil_iff (h : '\x00' ∉ front) :
    ReadsZulu front [] m ↔ ∃ m', unzoned? front = some m' ∧ m = m'.orUtc := by
  constructor
  · rintro (⟨hd, ht⟩ | ⟨hd, ht, hc, ho⟩ | ⟨hd, -, -, -, -, hnull⟩)
    · cases time?_afterPlus_nil.symm.trans ht
      exact ⟨_, unzoned?_eq_some_iff.mpr ⟨_, [], dated?_eq_some_nil_iff.mpr hd, Or.inl ⟨rfl, rfl⟩⟩, rfl⟩
    · cases offset?_afterPlus_nil.symm.trans ho
      exact ⟨_, unzoned?_eq_some_iff.mpr ⟨_, _, hd, Or.inr ⟨_, _, _, rfl, ht, hc, rfl⟩⟩, rfl⟩
    · obtain ⟨date, -, rfl, -⟩ := dated?_eq_some_iff.mp hd
      exact absurd (by simp [hnull]) h
  · rintro ⟨m', hm', rfl⟩
    exact readsZulu_of_unzoned? hm'

/-- A `Z` with something behind it that does not go on with the offset or time of day is refused. -/
theorem not_readsZulu_cons {c : Char} (hnull : '\x00' ∉ front) (hc : c ∉ continuations)
    (h : date? front = none ∨ ∀ e ∈ c :: back, e ∉ ['+', '-', 'Z']) : ¬ReadsZulu front (c :: back) m := by
  rintro (⟨hd, ht⟩ | ⟨-, -, -, ho⟩ | ⟨hd, -, -, -, -, hmem⟩)
  · rcases h with hdate | hback
    · cases hdate.symm.trans hd
    · cases (time?_afterPlus_of_not_mem hc hback).symm.trans ht
  · cases (offset?_afterPlus_of_not_mem hc back).symm.trans ho
  · obtain ⟨date, -, rfl, -⟩ := dated?_eq_some_iff.mp hd
    exact absurd (by simp [hmem]) hnull

end Ends

end DateField

namespace ZuluTexts
open DateField Time

/-- A text with a `Z` is read in one of three ways, or refused. Where something is behind the first `Z`, the text is
refused unless this begins with one of four characters, or has a sign or another `Z` and stands behind a date alone,
or a null character is in front. Where the `Z` is the last character, what is returned is the date and time of day
in front of it, in UTC, unless a null character is there. -/
theorem zulu_read {s : String} {front back : List Char} (hs : Text.trim s.toList = front ++ 'Z' :: back)
    (hfront : 'Z' ∉ front) (field : String) :
    (∀ m, read field (.text s) = .ok (.date m) ↔ ReadsZulu front back m) ∧
    ((∀ m, ¬ReadsZulu front back m) →
      read field (.text s) = .error (.invalidValue field "date" (.text s) .date)) ∧
    (∀ c rest, back = c :: rest → '\x00' ∉ front → c ∉ continuations →
      (IsoReader.date? front = none ∨ ∀ e ∈ back, e ∉ ['+', '-', 'Z']) →
      read field (.text s) = .error (.invalidValue field "date" (.text s) .date)) ∧
    (back = [] → '\x00' ∉ front → ∀ v, read field (.text s) = .ok v ↔
      ∃ m, IsoReader.unzoned? front = some m ∧ v = .date m.orUtc) ∧
    (back = [] → ∀ m, IsoReader.moment? front = some m → m.offset = none →
      read field (.text s) = .ok (.date m.orUtc)) := by
  have hzulu : ∀ m, ofText? s.toList = some m ↔ ReadsZulu front back m := ofText?_eq_some_iff hs hfront
  have hok : ∀ v, read field (.text s) = .ok v ↔ ∃ m, ReadsZulu front back m ∧ v = .date m := by
    intro v
    simp only [read_text_eq_ok_iff, hzulu]
  have herror : (∀ m, ¬ReadsZulu front back m) →
      read field (.text s) = .error (.invalidValue field "date" (.text s) .date) := by
    intro h
    have hnone : ofText? s.toList = none :=
      Option.eq_none_iff_forall_ne_some.mpr fun m hm => h m ((hzulu m).mp hm)
    rw [EpochMillis.read_text, hnone]
    rfl
  refine ⟨fun m => ?_, herror, ?_, ?_, ?_⟩
  · rw [hok]
    simp
  · rintro c rest rfl hnull hc h
    exact herror fun m => not_readsZulu_cons hnull hc h
  · rintro rfl hnull v
    rw [hok]
    constructor
    · rintro ⟨m, hm, rfl⟩
      obtain ⟨m', hm', rfl⟩ := (readsZulu_nil_iff hnull).mp hm
      exact ⟨m', hm', rfl⟩
    · rintro ⟨m, hm, rfl⟩
      exact ⟨_, (readsZulu_nil_iff hnull).mpr ⟨m, hm, rfl⟩, rfl⟩
  · rintro rfl m hm ho
    exact (hok _).mpr ⟨_, readsZulu_of_unzoned? (IsoReader.unzoned?_of_moment? hm ho), rfl⟩

/-- A moment as a clock shows it that is not tied to a zone. -/
def unzoned : Moment :=
  ⟨⟨2021, 7, 8, by decide, by decide, by decide, by decide, by decide, by decide⟩,
    ⟨11, 22, 33, 444000, by decide, by decide, by decide, by decide⟩, none⟩

theorem zulu_read_unzoned :
    read "since" (.text " 2021-07-08T11:22:33.444Z") = .ok (.date unzoned.orUtc) ∧
    read "since" (.text "2021-07-08T11:22:33.444ZZ") =
      .error (.invalidValue "since" "date" (.text "2021-07-08T11:22:33.444ZZ") .date) := by
  let front := "2021-07-08T11:22:33.444".toList
  have hfront : 'Z' ∉ front := by decide +kernel
  have hlast : Text.trim " 2021-07-08T11:22:33.444Z".toList = front ++ 'Z' :: [] := by decide +kernel
  have hinside : Text.trim "2021-07-08T11:22:33.444ZZ".toList = front ++ 'Z' :: ['Z'] := by decide +kernel
  constructor
  · obtain ⟨-, -, -, -, hread⟩ := zulu_read hlast hfront "since"
    exact hread rfl unzoned (by decide +kernel) rfl
  · obtain ⟨-, -, hrefused, -⟩ := zulu_read hinside hfront "since"
    exact hrefused 'Z' [] rfl (by decide +kernel) (by decide) (Or.inl (by decide +kernel))

/-- Texts with something behind the first `Z` are not all refused: what stands there may continue the offset. -/
theorem zulu_inside_read : ¬∀ s front back, Text.trim (String.toList s) = front ++ 'Z' :: back → back ≠ [] →
    ∃ e, read "d" (.text s) = .error e := by
  intro h
  obtain ⟨e, he⟩ := h "2020-01-01T10:00Z:30" "2020-01-01T10:00".toList ":30".toList (by decide +kernel)
    (by decide +kernel)
  obtain ⟨m, hm⟩ : ∃ m, ofText? "2020-01-01T10:00Z:30".toList = some m :=
    Option.isSome_iff_exists.mp (by decide +kernel)
  have hread : read "d" (.text "2020-01-01T10:00Z:30") = .ok (.date m) := read_text_eq_ok_iff.mpr ⟨m, hm, rfl⟩
  rw [hread] at he
  cases he

end ZuluTexts
end GridQuery

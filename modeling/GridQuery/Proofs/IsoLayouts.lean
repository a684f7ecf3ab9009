import Mathlib.Data.List.Basic
import Mathlib.Data.List.TakeWhile
import GridQuery.Time.IsoReader

/-! # What the reader of ISO 8601 texts accepts

A date has one of a few layouts, none of which has a plus sign. So a text with a plus sign has its date in front of
the sign, and the same one as without the sign and what is behind it. A time of day or an offset is made of digits
and three marks, except for what a null character hides. -/
namespace GridQuery.Time.IsoReader

/-! ## Dates in front of other text -/

/-- A run of digits of the given length. -/
def IsNumber (n : Nat) (s : List Char) : Prop := s.length = n ∧ ∀ c ∈ s, c.isDigit = true

/-- The layouts of dates, with or without hyphens. -/
inductive DateLayout : List Char → Prop
  | day {hyphen y m d : List Char} (hh : hyphen = [] ∨ hyphen = ['-']) (hy : IsNumber 4 y) (hm : IsNumber 2 m)
      (hd : IsNumber 2 d) : DateLayout (y ++ (hyphen ++ (m ++ (hyphen ++ d))))
  | week {hyphen y w : List Char} (hh : hyphen = [] ∨ hyphen = ['-']) (hy : IsNumber 4 y) (hw : IsNumber 2 w) :
      DateLayout (y ++ (hyphen ++ 'W' :: w))
  | weekday {hyphen y w d : List Char} (hh : hyphen = [] ∨ hyphen = ['-']) (hy : IsNumber 4 y)
      (hw : IsNumber 2 w) (hd : IsNumber 1 d) : DateLayout (y ++ (hyphen ++ 'W' :: (w ++ (hyphen ++ d))))

theorem IsNumber.exists_cons {n : Nat} {s : List Char} (h : IsNumber (n + 1) s) :
    ∃ c r, s = c :: r ∧ c.isDigit = true ∧ IsNumber n r := by
  obtain ⟨hlength, hdigit⟩ := h
  obtain ⟨c, r, rfl⟩ := List.exists_cons_of_length_eq_add_one hlength
  rw [List.forall_mem_cons] at hdigit
  exact ⟨c, r, rfl, hdigit.1, Nat.succ.inj hlength, hdigit.2⟩

theorem IsNumber.exists_pair {s : List Char} (h : IsNumber 2 s) : ∃ c e, s = [c, e] ∧ c.isDigit = true := by
  obtain ⟨c, r, rfl, hc, hr⟩ := h.exists_cons
  obtain ⟨e, rfl⟩ := List.length_eq_one_iff.mp hr.1
  exact ⟨c, e, rfl, hc⟩

theorem IsNumber.exists_four {s : List Char} (h : IsNumber 4 s) : ∃ a b c e, s = [a, b, c, e] := by
  obtain ⟨a, r, rfl, -, hr⟩ := h.exists_cons
  obtain ⟨b, c, e, rfl⟩ := List.length_eq_three.mp hr.1
  exact ⟨a, b, c, e, rfl⟩

theorem exists_number_of_digits? {n v : Nat} {s r : List Char} (h : digits? n s = some (v, r)) :
    ∃ ds, IsNumber n ds ∧ s = ds ++ r := by
  simp only [digits?, Option.ite_none_right_eq_some, Option.some.injEq, Prod.mk.injEq] at h
  obtain ⟨⟨hlength, hall⟩, -, rfl⟩ := h
  exact ⟨s.take n, ⟨hlength, List.all_eq_true.mp hall⟩, (List.take_append_drop n s).symm⟩

theorem eq_append_of_hyphen? {used : Bool} {s r : List Char} (h : hyphen? used s = some r) :
    ∃ hyphen, (hyphen = [] ∨ hyphen = ['-']) ∧ hyphen = (if used then ['-'] else []) ∧ s = hyphen ++ r := by
  cases used with
  | false =>
    cases h
    exact ⟨[], Or.inl rfl, rfl, rfl⟩
  | true =>
    simp only [hyphen?, if_true] at h
    split at h
    · cases h
      exact ⟨['-'], Or.inr rfl, rfl, rfl⟩
    · cases h

theorem layout_of_date? {s : List Char} {d : Date} (h : date? s = some d) : DateLayout s := by
  simp only [date?, Option.bind_eq_bind, Option.bind_eq_some_iff, Prod.exists] at h
  obtain ⟨year, s₁, hyear, s₂, hfirst, h⟩ := h
  generalize (s₁.head? == some '-') = used at hfirst h
  obtain ⟨y, hy, rfl⟩ := exists_number_of_digits? hyear
  obtain ⟨hyphen, hh, hused, rfl⟩ := eq_append_of_hyphen? hfirst
  split at h
  · simp only [Option.bind_eq_some_iff, Prod.exists] at h
    obtain ⟨week, s₃, hweek, h⟩ := h
    obtain ⟨w, hw, rfl⟩ := exists_number_of_digits? hweek
    split at h
    · rename_i hend
      rw [hend, List.append_nil]
      exact .week hh hy hw
    · simp only [Option.bind_eq_some_iff, Prod.exists, Option.ite_none_right_eq_some] at h
      obtain ⟨s₄, hsecond, day, s₅, hday, rfl, -⟩ := h
      obtain ⟨hyphen', hh', hused', rfl⟩ := eq_append_of_hyphen? hsecond
      obtain ⟨d, hd, rfl⟩ := exists_number_of_digits? hday
      rw [List.append_nil, hused'.trans hused.symm]
      exact .weekday hh hy hw hd
  · simp only [Option.bind_eq_some_iff, Prod.exists, Option.ite_none_right_eq_some] at h
    obtain ⟨month, s₃, hmonth, s₄, hsecond, day, s₅, hday, rfl, -⟩ := h
    obtain ⟨m, hm, rfl⟩ := exists_number_of_digits? hmonth
    obtain ⟨hyphen', hh', hused', rfl⟩ := eq_append_of_hyphen? hsecond
    obtain ⟨d, hd, rfl⟩ := exists_number_of_digits? hday
    rw [List.append_nil, hused'.trans hused.symm]
    exact .day hh hy hm hd

theorem takeWhile_digits_append (s x : List Char) :
    (s ++ '+' :: x).takeWhile Char.isDigit = s.takeWhile Char.isDigit := by
  induction s with
  | nil => rfl
  | cons c s ih => rw [List.cons_append, List.takeWhile_cons, List.takeWhile_cons, ih]

theorem isDigitAt_append {s : List Char} {i : Nat} (h : i ≤ s.length) (x : List Char) :
    isDigitAt (s ++ '+' :: x) i = isDigitAt s i := by
  rcases Nat.lt_or_eq_of_le h with h | rfl
  · rw [isDigitAt, List.getElem?_append_left h, isDigitAt]
  · rw [isDigitAt, List.getElem?_append_right h, Nat.sub_self, isDigitAt, List.getElem?_eq_none h]
    rfl

theorem ne_of_isDigit {c : Char} (h : c.isDigit = true) : c ≠ '-' ∧ c ≠ 'W' := by
  constructor
  · rintro rfl
    cases h
  · rintro rfl
    cases h

namespace DateLayout

theorem forall_mem {s : List Char} (h : DateLayout s) : ∀ c ∈ s, c.isDigit = true ∨ c = '-' ∨ c = 'W' := by
  have hnumber {n : Nat} {ds : List Char} (h : IsNumber n ds) :
      ∀ c ∈ ds, c.isDigit = true ∨ c = '-' ∨ c = 'W' := fun c hc => Or.inl (h.2 c hc)
  have hhyphen {hyphen : List Char} (h : hyphen = [] ∨ hyphen = ['-']) :
      ∀ c ∈ hyphen, c.isDigit = true ∨ c = '-' ∨ c = 'W' := by
    rcases h with rfl | rfl <;> simp
  cases h with
  | day hh hy hm hd =>
    simp only [List.forall_mem_append]
    exact ⟨hnumber hy, hhyphen hh, hnumber hm, hhyphen hh, hnumber hd⟩
  | week hh hy hw =>
    simp only [List.forall_mem_append, List.forall_mem_cons]
    exact ⟨hnumber hy, hhyphen hh, by decide, hnumber hw⟩
  | weekday hh hy hw hd =>
    simp only [List.forall_mem_append, List.forall_mem_cons]
    exact ⟨hnumber hy, hhyphen hh, by decide, hnumber hw, hhyphen hh, hnumber hd⟩

/-- A plus sign behind the text that follows a date leaves the date as it is, unless this text is one hyphen. -/
theorem dateLength?_append {s : List Char} (h : DateLayout s) {r : List Char} (hr : r ≠ ['-']) (x : List Char) :
    dateLength? (s ++ (r ++ '+' :: x)) = some s.length ↔ dateLength? (s ++ r) = some s.length := by
  cases h with
  | @day hyphen y m d hh hy hm hd =>
    obtain ⟨a, b, c, e, rfl⟩ := hy.exists_four
    obtain ⟨m₁, m₂, rfl, hm₁⟩ := hm.exists_pair
    obtain ⟨d₁, d₂, rfl, -⟩ := hd.exists_pair
    have hm₁ := ne_of_isDigit hm₁
    rcases hh with rfl | rfl
    · simp [dateLength?, hm₁]
    · simp [dateLength?, hm₁]
  | @week hyphen y w hh hy hw =>
    obtain ⟨a, b, c, e, rfl⟩ := hy.exists_four
    obtain ⟨w₁, w₂, rfl, -⟩ := hw.exists_pair
    cases r with
    | nil => rcases hh with rfl | rfl <;> simp [dateLength?]
    | cons k r =>
      rcases hh with rfl | rfl
      · have hrun : (k :: (r ++ '+' :: x)).takeWhile Char.isDigit = (k :: r).takeWhile Char.isDigit :=
          takeWhile_digits_append (k :: r) x
        simp [dateLength?, hrun]
      · -- A hyphen there belongs to the date only if a digit follows that is not the first of two.
        by_cases hk : k = '-'
        · have hend : r ≠ [] := fun h => hr (by rw [hk, h])
          have hdigit : isDigitAt (a :: b :: c :: e :: '-' :: 'W' :: w₁ :: w₂ :: k :: (r ++ '+' :: x)) 10 =
              isDigitAt (a :: b :: c :: e :: '-' :: 'W' :: w₁ :: w₂ :: k :: r) 10 :=
            isDigitAt_append (s := a :: b :: c :: e :: '-' :: 'W' :: w₁ :: w₂ :: k :: r)
              (by simpa [Nat.one_le_iff_ne_zero] using hend) x
          simp [dateLength?, hdigit, hend]
        · simp [dateLength?, hk]
  | @weekday hyphen y w d hh hy hw hd =>
    obtain ⟨a, b, c, e, rfl⟩ := hy.exists_four
    obtain ⟨w₁, w₂, rfl, -⟩ := hw.exists_pair
    obtain ⟨d₁, rfl⟩ := List.length_eq_one_iff.mp hd.1
    rcases hh with rfl | rfl
    · have hrun : (d₁ :: (r ++ '+' :: x)).takeWhile Char.isDigit = (d₁ :: r).takeWhile Char.isDigit :=
        takeWhile_digits_append (d₁ :: r) x
      simp [dateLength?, hrun]
    · have hdigit : isDigitAt (a :: b :: c :: e :: '-' :: 'W' :: w₁ :: w₂ :: '-' :: d₁ :: (r ++ '+' :: x)) 10 =
          isDigitAt (a :: b :: c :: e :: '-' :: 'W' :: w₁ :: w₂ :: '-' :: d₁ :: r) 10 :=
        isDigitAt_append (s := a :: b :: c :: e :: '-' :: 'W' :: w₁ :: w₂ :: '-' :: d₁ :: r) (by simp) x
      simp [dateLength?, hdigit]

/-- A date by itself is read as a whole. -/
theorem dateLength?_self {s : List Char} (h : DateLayout s) : dateLength? s = some s.length := by
  cases h with
  | day hh hy hm hd =>
    obtain ⟨a, b, c, e, rfl⟩ := hy.exists_four
    obtain ⟨m₁, m₂, rfl, hm₁⟩ := hm.exists_pair
    obtain ⟨d₁, d₂, rfl, -⟩ := hd.exists_pair
    have hm₁ := ne_of_isDigit hm₁
    rcases hh with rfl | rfl <;> simp [dateLength?, hm₁]
  | week hh hy hw =>
    obtain ⟨a, b, c, e, rfl⟩ := hy.exists_four
    obtain ⟨w₁, w₂, rfl, -⟩ := hw.exists_pair
    rcases hh with rfl | rfl <;> simp [dateLength?]
  | weekday hh hy hw hd =>
    obtain ⟨a, b, c, e, rfl⟩ := hy.exists_four
    obtain ⟨w₁, w₂, rfl, -⟩ := hw.exists_pair
    obtain ⟨d₁, rfl⟩ := List.length_eq_one_iff.mp hd.1
    have hd₁ := hd.2 d₁ List.mem_cons_self
    rcases hh with rfl | rfl <;> simp [dateLength?, isDigitAt, hd₁]

end DateLayout

/-- The date that a text begins with, and what is behind it. -/
def dated? (s : List Char) : Option (Date × List Char) := do
  let n ← dateLength? s
  let date ← date? (s.take n)
  return (date, s.drop n)

theorem dated?_eq_some_iff {s r : List Char} {d : Date} :
    dated? s = some (d, r) ↔
      ∃ front, DateLayout front ∧ s = front ++ r ∧ dateLength? s = some front.length ∧ date? front = some d := by
  simp only [dated?, Option.bind_eq_bind, Option.bind_eq_some_iff, Option.pure_def, Option.some.injEq,
    Prod.mk.injEq]
  constructor
  · rintro ⟨n, hn, date, hdate, rfl, rfl⟩
    have hlayout := layout_of_date? hdate
    refine ⟨s.take n, hlayout, (List.take_append_drop n s).symm, ?_, hdate⟩
    rw [hn, List.length_take]
    rcases Nat.le_total n s.length with hle | hle
    · rw [Nat.min_eq_left hle]
    · rw [List.take_of_length_le hle] at hlayout
      rw [Nat.min_eq_right hle, ← hn, hlayout.dateLength?_self]
  · rintro ⟨front, -, rfl, hlength, hdate⟩
    exact ⟨front.length, hlength, d, by rw [List.take_left, hdate], rfl, List.drop_left⟩

theorem dated?_eq_some_nil_iff {s : List Char} {d : Date} : dated? s = some (d, []) ↔ date? s = some d := by
  rw [dated?_eq_some_iff]
  constructor
  · rintro ⟨front, -, rfl, -, hdate⟩
    rwa [List.append_nil]
  · intro hdate
    have hlayout := layout_of_date? hdate
    exact ⟨s, hlayout, (List.append_nil s).symm, hlayout.dateLength?_self, hdate⟩

/-- What is in front of a character that does not occur there is in front of its first place. -/
theorem exists_append_of_not_mem {c : Char} {s x front r : List Char} (h : s ++ c :: x = front ++ r)
    (hc : c ∉ front) : ∃ r', s = front ++ r' ∧ r = r' ++ c :: x := by
  rcases List.append_eq_append_iff.mp h with ⟨a, rfl, ha⟩ | ⟨r', hs, hr⟩
  · cases a with
    | nil => exact ⟨[], by simp, ha.symm⟩
    | cons e a =>
      cases ha
      exact absurd (by simp) hc
  · exact ⟨r', hs, hr⟩

theorem moment?_eq_some_iff {s : List Char} {m : Moment} :
    moment? s = some m ↔ ∃ d r, dated? s = some (d, r) ∧ (r = [] ∧ m = ⟨d, Clock.midnight, none⟩ ∨
      ∃ separator t c o, r = separator :: t ∧ time? t = some (c, o) ∧ m = ⟨d, c, o⟩) := by
  simp only [moment?, dated?, Option.bind_eq_bind, Option.bind_eq_some_iff, Option.pure_def, Option.some.injEq,
    Prod.mk.injEq]
  constructor
  · rintro ⟨n, hn, d, hd, h⟩
    refine ⟨d, s.drop n, ⟨n, hn, d, hd, rfl, rfl⟩, ?_⟩
    split at h
    · rename_i hend
      cases h
      exact Or.inl ⟨hend, rfl⟩
    · rename_i separator t hr
      obtain ⟨⟨c, o⟩, ht, rfl⟩ := Option.map_eq_some_iff.mp h
      exact Or.inr ⟨separator, t, c, o, hr, ht, rfl⟩
  · rintro ⟨d, r, ⟨n, hn, d', hd, rfl, rfl⟩, h⟩
    refine ⟨n, hn, d', hd, ?_⟩
    rcases h with ⟨hend, rfl⟩ | ⟨separator, t, c, o, hr, ht, rfl⟩
    · rw [hend]
    · rw [hr]
      dsimp only
      rw [ht, Option.map_some]

/-- A text with a plus sign in it: the date stands in front of the sign, which is the separator if nothing else is
behind the date. -/
theorem moment?_append {s x : List Char} {m : Moment} :
    moment? (s ++ '+' :: x) = some m ↔ ∃ d r c o, dated? s = some (d, r) ∧
      time? (r ++ '+' :: x).tail = some (c, o) ∧ m = ⟨d, c, o⟩ := by
  have hhyphen : ∀ {r c o}, time? (r ++ '+' :: x).tail = some (c, o) → r ≠ ['-'] := by
    rintro r c o h rfl
    cases h
  rw [moment?_eq_some_iff]
  constructor
  · rintro ⟨d, r, hdated, h⟩
    obtain ⟨front, hlayout, htext, hlength, hdate⟩ := dated?_eq_some_iff.mp hdated
    have hplus : '+' ∉ front := fun h => absurd (hlayout.forall_mem '+' h) (by decide)
    obtain ⟨r', rfl, rfl⟩ := exists_append_of_not_mem htext hplus
    rcases h with ⟨hend, -⟩ | ⟨separator, t, c, o, hr, ht, rfl⟩
    · simp at hend
    · have ht' : time? (r' ++ '+' :: x).tail = some (c, o) := by rw [hr, List.tail_cons, ht]
      refine ⟨d, r', c, o, dated?_eq_some_iff.mpr ⟨front, hlayout, rfl, ?_, hdate⟩, ht', rfl⟩
      rw [List.append_assoc] at hlength
      exact (hlayout.dateLength?_append (hhyphen ht') x).mp hlength
  · rintro ⟨d, r, c, o, hdated, ht, rfl⟩
    obtain ⟨front, hlayout, rfl, hlength, hdate⟩ := dated?_eq_some_iff.mp hdated
    refine ⟨d, r ++ '+' :: x, ?_, Or.inr ?_⟩
    · have hlength' := (hlayout.dateLength?_append (hhyphen ht) x).mpr hlength
      rw [← List.append_assoc] at hlength'
      exact dated?_eq_some_iff.mpr ⟨front, hlayout, List.append_assoc .., hlength', hdate⟩
    · obtain ⟨separator, t, hr⟩ : ∃ separator t, r ++ '+' :: x = separator :: t :=
        List.exists_cons_of_ne_nil (by simp)
      rw [hr, List.tail_cons] at ht
      exact ⟨separator, t, c, o, hr, ht, rfl⟩

/-! ## Times in front of a sign -/

/-- The time of day that a text gives, whatever is left over behind it. -/
def clock? (s : List Char) : Option Clock := (fields? s).bind fun f => Clock.of? f.hour f.minute f.second f.micro

/-- The time of day stands in front of the first sign. -/
theorem time?_sign {s zone : List Char} {sign : Char} (hs : ∀ c ∈ s, isSign c = false) (hsign : isSign sign = true)
    {c : Clock} {o : Option Offset} :
    time? (s ++ sign :: zone) = some (c, o) ↔
      clock? s = some c ∧ ∃ o', offset? (sign == '-') zone = some o' ∧ o = some o' := by
  have hunsigned : ∀ c ∈ s, (!isSign c) = true := fun c hc => by rw [hs c hc]; rfl
  have htake : (s ++ sign :: zone).takeWhile (!isSign ·) = s := by
    rw [List.takeWhile_append_of_pos hunsigned, List.takeWhile_cons, hsign]
    simp
  have hdrop : (s ++ sign :: zone).dropWhile (!isSign ·) = sign :: zone := by
    rw [List.dropWhile_append_of_pos hunsigned, List.dropWhile_cons, hsign]
    simp
  rw [time?, htake, hdrop]
  simp only [clock?, Option.bind_eq_bind, Option.bind_eq_some_iff, Option.map_eq_some_iff, Prod.mk.injEq]
  constructor
  · rintro ⟨f, hf, o', ho, c', hc, rfl, rfl⟩
    exact ⟨⟨f, hf, hc⟩, o', ho, rfl⟩
  · rintro ⟨⟨f, hf, hc⟩, o', ho, rfl⟩
    exact ⟨f, hf, o', ho, c, hc, rfl, rfl⟩

/-- Without a sign there is no offset, and nothing may be left over. -/
theorem time?_unsigned {s : List Char} (hs : ∀ c ∈ s, isSign c = false) {c : Clock} {o : Option Offset} :
    time? s = some (c, o) ↔ ∃ f, fields? s = some f ∧ f.surplus = false ∧
      Clock.of? f.hour f.minute f.second f.micro = some c ∧ o = none := by
  have hunsigned : ∀ c ∈ s, (!isSign c) = true := fun c hc => by rw [hs c hc]; rfl
  rw [time?, List.takeWhile_eq_self_iff.mpr hunsigned, List.dropWhile_eq_nil_iff.mpr hunsigned]
  simp only [Option.bind_eq_bind, Option.bind_eq_some_iff, Option.ite_none_left_eq_some, Bool.not_eq_true,
    Option.map_eq_some_iff, Prod.mk.injEq]
  constructor
  · rintro ⟨f, hf, hsurplus, c', hc, rfl, rfl⟩
    exact ⟨f, hf, hsurplus, hc, rfl⟩
  · rintro ⟨f, hf, hsurplus, hc, rfl⟩
    exact ⟨f, hf, hsurplus, c, hc, rfl, rfl⟩

/-- What stands in front of the first sign of a text. -/
theorem exists_sign {s : List Char} (h : ¬∀ c ∈ s, isSign c = false) :
    ∃ t sign zone, s = t ++ sign :: zone ∧ (∀ c ∈ t, isSign c = false) ∧ isSign sign = true := by
  obtain ⟨sign, hsign⟩ : ∃ sign, s.find? isSign = some sign :=
    Option.isSome_iff_exists.mp (List.find?_isSome.mpr (by simpa using h))
  obtain ⟨hsigned, t, zone, rfl, ht⟩ := List.find?_eq_some_iff_append.mp hsign
  exact ⟨t, sign, zone, rfl, by simpa using ht, hsigned⟩

theorem unsigned_of_time? {s : List Char} {c : Clock} (h : time? s = some (c, none)) :
    ∀ ch ∈ s, isSign ch = false := by
  by_contra hsigned
  obtain ⟨t, sign, zone, rfl, hunsigned, hsign⟩ := exists_sign hsigned
  obtain ⟨-, o, -, ho⟩ := (time?_sign hunsigned hsign).mp h
  cases ho

/-! ## What fields are made of -/

/-- The characters of a time. -/
def IsTimeMark (c : Char) : Prop := c.isDigit = true ∨ c = ':' ∨ c = '.' ∨ c = ','

/-- Whatever is not hidden by a null character belongs to a time. -/
def IsVisibleTime (s : List Char) : Prop := ∀ c ∈ s.takeWhile isSurplus, IsTimeMark c

theorem isVisibleTime_nil : IsVisibleTime [] := by
  intro c hc
  cases hc

theorem isVisibleTime_of_hidden {c : Char} (h : isSurplus c = false) (s : List Char) : IsVisibleTime (c :: s) := by
  rw [IsVisibleTime, List.takeWhile_cons, h]
  exact isVisibleTime_nil

theorem IsVisibleTime.cons {c : Char} {s : List Char} (hc : IsTimeMark c) (hs : IsVisibleTime s) :
    IsVisibleTime (c :: s) := by
  rw [IsVisibleTime, List.takeWhile_cons]
  split
  · exact List.forall_mem_cons.mpr ⟨hc, hs⟩
  · exact isVisibleTime_nil

theorem IsVisibleTime.digits {n v : Nat} {s r : List Char} (h : digits? n s = some (v, r)) (hr : IsVisibleTime r) :
    IsVisibleTime s := by
  obtain ⟨ds, hds, rfl⟩ := exists_number_of_digits? h
  obtain ⟨-, hdigit⟩ := hds
  clear h
  induction ds with
  | nil => exact hr
  | cons c ds ih =>
    rw [List.forall_mem_cons] at hdigit
    exact .cons (Or.inl hdigit.1) (ih hdigit.2)

theorem isVisibleTime_of_fraction? {s : List Char} {v : Nat} (h : fraction? s = some (v, false)) :
    IsVisibleTime s := by
  simp only [fraction?, Option.bind_eq_bind, Option.bind_eq_some_iff, Prod.exists, Option.some.injEq,
    Prod.mk.injEq] at h
  obtain ⟨f, r, hdigits, -, hsurplus⟩ := h
  refine .digits hdigits ?_
  clear hdigits
  induction r with
  | nil => exact isVisibleTime_nil
  | cons c r ih =>
    by_cases hc : c.isDigit = true
    · rw [List.dropWhile_cons_of_pos hc] at hsurplus
      exact .cons (Or.inl hc) (ih hsurplus)
    · rw [List.dropWhile_cons_of_neg hc] at hsurplus
      exact isVisibleTime_of_hidden hsurplus r

/-- What can stand behind a pair of digits, by what it is taken for. -/
inductive Follows : List Char → Follow → Prop
  | nothing : Follows [] (.finished false)
  | last (c : Char) : Follows [c] (.finished (isSurplus c))
  | colon (used : Bool) (r : List Char) : Follows (':' :: r) (.pair used r)
  | pair (used : Bool) (s : List Char) : Follows s (.pair used s)
  | fraction {c : Char} (h : c = '.' ∨ c = ',') (r : List Char) : Follows (c :: r) (.fraction r)
  | malformed (s : List Char) : Follows s .malformed

theorem follows_follow (colons : Option Bool) (s : List Char) : Follows s (follow colons s) := by
  unfold follow
  split
  · exact .nothing
  · split
    · exact .last _
    · exact .malformed _
  · dsimp only
    split
    · rename_i hcolon
      rw [Bool.and_eq_true, beq_iff_eq] at hcolon
      rw [hcolon.2]
      exact .colon _ _
    · split
      · exact .fraction ‹_› _
      · split
        · exact .pair _ _
        · exact .malformed _

section Follows
variable {colons : Option Bool} {s r : List Char}

theorem isVisibleTime_of_finished (h : follow colons s = .finished false) : IsVisibleTime s := by
  have hs := follows_follow colons s
  generalize follow colons s = f at h hs
  cases hs with
  | nothing => exact isVisibleTime_nil
  | last c => exact isVisibleTime_of_hidden (Follow.finished.inj h) []
  | _ => cases h

theorem IsVisibleTime.pair {used : Bool} (h : follow colons s = .pair used r) (hr : IsVisibleTime r) :
    IsVisibleTime s := by
  have hs := follows_follow colons s
  rw [h] at hs
  cases hs with
  | colon => exact .cons (Or.inr (Or.inl rfl)) hr
  | pair => exact hr

theorem IsVisibleTime.fraction (h : follow colons s = .fraction r) (hr : IsVisibleTime r) : IsVisibleTime s := by
  have hs := follows_follow colons s
  rw [h] at hs
  cases hs with
  | fraction hc => exact .cons (Or.inr (Or.inr hc)) hr

end Follows

theorem isVisibleTime_of_fields? {s : List Char} {f : Fields} (h : fields? s = some f) (hf : f.surplus = false) :
    IsVisibleTime s := by
  have hfraction {h m s : Nat} {r : List Char} {f : Fields}
      (hr : (fraction? r).map (fun f => Fields.mk h m s f.1 f.2) = some f) (hf : f.surplus = false) :
      IsVisibleTime r := by
    obtain ⟨⟨v, surplus⟩, hv, rfl⟩ := Option.map_eq_some_iff.mp hr
    cases hf
    exact isVisibleTime_of_fraction? hv
  simp only [fields?, Option.bind_eq_bind, Option.bind_eq_some_iff, Prod.exists] at h
  obtain ⟨hour, r, hhour, h⟩ := h
  refine .digits hhour ?_
  split at h
  · cases h
    cases hf
    exact isVisibleTime_of_finished ‹_›
  · cases h
  · exact .fraction ‹_› (hfraction h hf)
  refine .pair ‹_› ?_
  simp only [Option.bind_eq_some_iff, Prod.exists] at h
  obtain ⟨minute, r, hminute, h⟩ := h
  refine .digits hminute ?_
  split at h
  · cases h
    cases hf
    exact isVisibleTime_of_finished ‹_›
  · cases h
  · exact .fraction ‹_› (hfraction h hf)
  refine .pair ‹_› ?_
  simp only [Option.bind_eq_some_iff, Prod.exists] at h
  obtain ⟨second, r, hsecond, h⟩ := h
  refine .digits hsecond ?_
  split at h
  · cases h
    cases hf
    exact isVisibleTime_of_finished ‹_›
  · cases h
  · exact .fraction ‹_› (hfraction h hf)
  · exact .pair ‹_› (hfraction h hf)

/-- A character that no time has is hidden by a null character. -/
theorem mem_of_isVisibleTime {s r : List Char} {c : Char} (h : IsVisibleTime (s ++ c :: r)) (hc : ¬IsTimeMark c)
    (hvisible : isSurplus c = true) : '\x00' ∈ s := by
  by_contra hs
  have hfront : ∀ e ∈ s, isSurplus e = true := by
    intro e he
    rw [isSurplus, bne_iff_ne]
    rintro rfl
    exact hs he
  rw [IsVisibleTime, List.takeWhile_append_of_pos hfront, List.takeWhile_cons, if_pos hvisible] at h
  exact hc (h c (by simp))

theorem isVisibleTime_of_offset? {negative : Bool} {s : List Char} {o : Offset} (h : offset? negative s = some o) :
    IsVisibleTime s := by
  simp only [offset?, Option.bind_eq_bind, Option.bind_eq_some_iff, Option.ite_none_left_eq_some] at h
  obtain ⟨f, hf, hsurplus, -⟩ := h
  exact isVisibleTime_of_fields? hf (Bool.not_eq_true _ ▸ hsurplus)

end GridQuery.Time.IsoReader

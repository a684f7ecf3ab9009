import Mathlib.Data.List.TakeWhile
import GridQuery.Proofs.DecimalNumerals

/-! # The grammar of integer numerals

A numeral is a sign, if there is one, and digits of any script, in which single underscores may stand between
two digits; blanks may stand around the whole. The texts of this grammar are exactly those that are read as an
integer. -/
namespace GridQuery.Numeral
open Text

/-- A property of a few characters is checked one by one. -/
theorem forall_mem_of_all {s : List Char} {p : Char → Prop} [DecidablePred p] (h : s.all (fun c => p c) = true) :
    ∀ c ∈ s, p c := fun c hc => of_decide_eq_true (List.all_eq_true.mp h c hc)

/-! ## Trimming -/

/-- What is trimmed off stands around the rest. -/
theorem exists_trimBy (p : Char → Bool) (s : List Char) : ∃ before after, s = before ++ trimBy p s ++ after ∧
    (∀ c ∈ before, p c = true) ∧ ∀ c ∈ after, p c = true := by
  refine ⟨s.takeWhile p, ((s.dropWhile p).reverse.takeWhile p).reverse, ?_,
    fun c hc => List.mem_takeWhile_imp hc, ?_⟩
  · rw [trimBy, List.append_assoc, ← List.reverse_append, List.takeWhile_append_dropWhile,
      List.reverse_reverse, List.takeWhile_append_dropWhile]
  · intro c hc
    exact List.mem_takeWhile_imp (List.mem_reverse.mp hc)

theorem trimBy_surrounded {p : Char → Bool} {before core after : List Char} (hb : ∀ c ∈ before, p c = true)
    (ha : ∀ c ∈ after, p c = true) (hcore : ∀ c ∈ core, p c = false) (hne : core ≠ []) :
    trimBy p (before ++ core ++ after) = core := by
  obtain ⟨c, r, rfl⟩ := List.exists_cons_of_ne_nil hne
  have hfront : ((before ++ (c :: r)) ++ after).dropWhile p = (c :: r) ++ after := by
    rw [List.append_assoc, List.dropWhile_append_of_pos hb, List.cons_append,
      List.dropWhile_cons_of_neg (by simp [hcore c])]
  have hback : ((c :: r).reverse).dropWhile p = (c :: r).reverse :=
    dropWhile_eq_self fun x hx => hcore x (List.mem_reverse.mp hx)
  rw [trimBy, hfront, List.reverse_append,
    List.dropWhile_append_of_pos fun x hx => ha x (List.mem_reverse.mp hx), hback, List.reverse_reverse]

/-- A text that is trimmed off at neither end is kept. -/
theorem trimBy_ends {p : Char → Bool} {c d : Char} (hc : p c = false) (hd : p d = false) (mid : List Char) :
    trimBy p (c :: (mid ++ [d])) = c :: (mid ++ [d]) := by
  have hback : (c :: (mid ++ [d])).reverse = d :: (c :: mid).reverse := by simp
  rw [trimBy, List.dropWhile_cons_of_neg (by simp [hc]), hback, List.dropWhile_cons_of_neg (by simp [hd]), ← hback,
    List.reverse_reverse]

/-! ## Letters -/

/-- A character is its own lower-case form, or else an upper-case letter, which stands 32 places in front of it. -/
theorem toLower_cases (c : Char) : c.toLower = c ∨
    97 ≤ c.toLower.toNat ∧ c = Char.ofNat (c.toLower.toNat - 32) := by
  by_cases hupper : 'A'.val ≤ c.val ∧ c.val ≤ 'Z'.val
  · have hnat : c.toLower.toNat = c.toNat + 32 := by
      delta Char.toLower
      rw [dif_pos hupper]
      have hle : c.val.toNat ≤ 90 := hupper.2
      change (c.val + 32).toNat = c.val.toNat + 32
      rw [UInt32.toNat_add]
      change (c.val.toNat + 32) % 2 ^ 32 = _
      omega
    have hge : 65 ≤ c.toNat := hupper.1
    exact Or.inr ⟨by omega, by rw [hnat, Nat.add_sub_cancel, Char.ofNat_toNat]⟩
  · refine Or.inl ?_
    delta Char.toLower
    rw [dif_neg hupper]

/-! ## Digits -/

/-- Digits with at most one underscore between any two, and their values. -/
inductive Grouped : List Char → List Nat → Prop
  | last {c : Char} {d : Nat} (h : digitValue? c = some d) : Grouped [c] [d]
  | digit {c : Char} {d : Nat} {s : List Char} {ds : List Nat} (h : digitValue? c = some d)
      (rest : Grouped s ds) : Grouped (c :: s) (d :: ds)
  | underscore {c : Char} {d : Nat} {s : List Char} {ds : List Nat} (h : digitValue? c = some d)
      (rest : Grouped s ds) : Grouped (c :: '_' :: s) (d :: ds)

theorem Grouped.exists_cons {s : List Char} {ds : List Nat} (h : Grouped s ds) :
    ∃ c r d, s = c :: r ∧ digitValue? c = some d := by
  cases h with
  | last h => exact ⟨_, _, _, rfl, h⟩
  | digit h => exact ⟨_, _, _, rfl, h⟩
  | underscore h => exact ⟨_, _, _, rfl, h⟩

theorem groupedDigits?_eq_some_iff {s : List Char} {ds : List Nat} :
    groupedDigits? s = some ds ↔ Grouped s ds := by
  constructor
  · intro h
    fun_induction groupedDigits? s generalizing ds with
    | case1 => cases h
    | case2 c =>
      obtain ⟨d, hd, rfl⟩ := Option.map_eq_some_iff.mp h
      exact .last hd
    | case3 c r ih =>
      obtain ⟨d, hd, h⟩ := Option.bind_eq_some_iff.mp h
      obtain ⟨ds, hds, h⟩ := Option.bind_eq_some_iff.mp h
      cases h
      exact .underscore hd (ih hds)
    | case4 c r _ _ ih =>
      obtain ⟨d, hd, h⟩ := Option.bind_eq_some_iff.mp h
      obtain ⟨ds, hds, h⟩ := Option.bind_eq_some_iff.mp h
      cases h
      exact .digit hd (ih hds)
  · intro h
    induction h with
    | last h => simp [groupedDigits?, h]
    | underscore h rest ih => simp [groupedDigits?, h, ih]
    | @digit c d s ds h rest ih =>
      obtain ⟨e, r, x, rfl, he⟩ := rest.exists_cons
      have hne : e ≠ '_' := by
        rintro rfl
        have hnone : digitValue? '_' = none := by decide
        rw [hnone] at he
        cases he
      rw [groupedDigits?]
      · simp [h, ih]
      · simp
      · rintro r' heq
        cases heq
        exact hne rfl

theorem zeros_apart : ∀ z ∈ decimalZeros, ∀ b ∈ blankCodes, ¬(z ≤ b ∧ b < z + 10) := by decide +kernel

theorem isBlank_of_digit {c : Char} {d : Nat} (h : digitValue? c = some d) : isBlank c = false := by
  obtain ⟨z, hz, -⟩ := Option.map_eq_some_iff.mp h
  have hmem := List.mem_of_find?_eq_some hz
  have hrange := List.find?_some hz
  simp only [Bool.and_eq_true, decide_eq_true_eq] at hrange
  rw [← Bool.not_eq_true, isBlank, List.contains_iff_mem]
  exact fun hblank => zeros_apart z hmem c.toNat hblank hrange

theorem Grouped.isNumeralBlank_eq_false {s : List Char} {ds : List Nat} (h : Grouped s ds) :
    ∀ c ∈ s, isNumeralBlank c = false := by
  have hdigit {c : Char} {d : Nat} (h : digitValue? c = some d) : isNumeralBlank c = false := by
    simp [isNumeralBlank, isBlank_of_digit h]
  induction h with
  | last h => simpa using hdigit h
  | digit h rest ih => exact List.forall_mem_cons.mpr ⟨hdigit h, ih⟩
  | underscore h rest ih =>
    exact List.forall_mem_cons.mpr ⟨hdigit h, List.forall_mem_cons.mpr ⟨by decide, ih⟩⟩

/-! ## Numerals -/

/-- A sign or none, and whether it is a minus. -/
inductive IsSign : List Char → Bool → Prop
  | none : IsSign [] false
  | plus : IsSign ['+'] false
  | minus : IsSign ['-'] true

theorem exists_splitSign (s : List Char) : ∃ sign, IsSign sign (splitSign s).1 ∧ s = sign ++ (splitSign s).2 := by
  unfold splitSign
  split
  · exact ⟨_, .minus, rfl⟩
  · exact ⟨_, .plus, rfl⟩
  · exact ⟨_, .none, rfl⟩

theorem splitSign_append {sign body : List Char} {negative : Bool} {ds : List Nat} (hs : IsSign sign negative)
    (hb : Grouped body ds) : splitSign (sign ++ body) = (negative, body) := by
  cases hs with
  | plus => rfl
  | minus => rfl
  | none =>
    obtain ⟨c, r, d, rfl, hd⟩ := hb.exists_cons
    have hminus : digitValue? '-' = none := by decide
    have hplus : digitValue? '+' = none := by decide
    rw [List.nil_append, splitSign]
    · rintro r' heq
      cases heq
      rw [hminus] at hd
      cases hd
    · rintro r' heq
      cases heq
      rw [hplus] at hd
      cases hd

/-- The texts of an integer, with as many digits as a numeral may have. -/
inductive IsNumeral : List Char → Int → Prop
  | mk {before sign body after : List Char} {negative : Bool} {ds : List Nat}
      (hbefore : ∀ c ∈ before, isNumeralBlank c = true) (hsign : IsSign sign negative) (hbody : Grouped body ds)
      (hlimit : ds.length ≤ digitLimit) (hafter : ∀ c ∈ after, isNumeralBlank c = true) :
      IsNumeral (before ++ (sign ++ body) ++ after) (signed negative (ofDigits ds))

theorem integer?_eq_some_iff {s : List Char} {n : Int} : integer? s = some n ↔ IsNumeral s n := by
  constructor
  · intro h
    obtain ⟨before, after, hs, hbefore, hafter⟩ := exists_trimBy isNumeralBlank s
    rw [integer?] at h
    generalize trimBy isNumeralBlank s = core at h hs
    obtain ⟨sign, hsign, hsplit⟩ := exists_splitSign core
    generalize splitSign core = halves at h hsign hsplit
    obtain ⟨negative, body⟩ := halves
    obtain ⟨ds, hds, h⟩ := Option.bind_eq_some_iff.mp h
    split at h
    · rename_i hlimit
      cases h
      rw [hs, hsplit]
      exact .mk hbefore hsign (groupedDigits?_eq_some_iff.mp hds) hlimit hafter
    · cases h
  · rintro @⟨before, sign, body, after, negative, ds, hbefore, hsign, hbody, hlimit, hafter⟩
    have hcore : ∀ c ∈ sign ++ body, isNumeralBlank c = false := by
      refine List.forall_mem_append.mpr ⟨?_, hbody.isNumeralBlank_eq_false⟩
      have hplus : isNumeralBlank '+' = false := by decide
      have hminus : isNumeralBlank '-' = false := by decide
      cases hsign <;> simp [hplus, hminus]
    have hne : sign ++ body ≠ [] := by
      obtain ⟨c, r, d, rfl, -⟩ := hbody.exists_cons
      simp
    rw [integer?, trimBy_surrounded hbefore hafter hcore hne, splitSign_append hsign hbody]
    simp [groupedDigits?_eq_some_iff.mpr hbody, hlimit]

theorem integer?_eq_none_iff {s : List Char} : integer? s = none ↔ ¬∃ n, IsNumeral s n := by
  simp only [Option.eq_none_iff_forall_ne_some, ne_eq, integer?_eq_some_iff, not_exists]

end GridQuery.Numeral

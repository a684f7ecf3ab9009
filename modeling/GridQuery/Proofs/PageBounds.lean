import GridQuery.Proofs.NumeralGrammar
import GridQuery.Proofs.PageSlices

/-! # The range of page and page size

Whatever is asked for, page size, page and the number of documents to skip stay within 64 bits. A request is taken
if it is within its bounds, and replaced by a default if not; the page is held against the page size that is shown,
not against the one that was asked for. -/
namespace GridQuery.PageBounds
open Numeral PageSlices

/-! ## Requests -/

/-- The integer that is asked for, as such or as a numeral with any blanks around it. -/
inductive Reads : Value → ℤ → Prop
  | int (n : ℤ) : Reads (.int n) n
  | text {s : String} {n : ℤ} (h : IsNumeral (Text.trim s.toList) n) : Reads (.text s) n

variable {v : Value} {n : ℤ}

theorem reads_int_iff {m : ℤ} : Reads (.int m) n ↔ m = n :=
  ⟨fun h => by cases h; rfl, fun h => h ▸ .int m⟩

theorem reads_text_iff {s : String} : Reads (.text s) n ↔ integer? (Text.trim s.toList) = some n := by
  rw [integer?_eq_some_iff]
  refine ⟨?_, .text⟩
  rintro (_ | h)
  exact h

theorem Reads.unique {m : ℤ} (h : Reads v n) (h' : Reads v m) : n = m := by
  cases h with
  | int => exact reads_int_iff.mp h'
  | text h =>
    have hm := reads_text_iff.mp h'
    rw [integer?_eq_some_iff.mpr h] at hm
    exact Option.some_inj.mp hm

theorem readCount?_eq_some_iff :
    LimitHandler.readCount? v = some n ↔ Reads v n ∧ 0 ≤ n ∧ n ≤ Number.greatest := by
  cases v with
  | int m => simp [LimitHandler.readCount?, Option.filter_eq_some_iff, reads_int_iff]
  | text s => simp [LimitHandler.readCount?, Option.filter_eq_some_iff, reads_text_iff]
  | _ =>
    refine ⟨by rintro ⟨⟩, ?_⟩
    rintro ⟨⟨⟩, -⟩

/-- What is asked for, if that is allowed, or else the default. -/
inductive Choice (allowed : ℤ → Prop) (default : ℤ) (v : Value) : ℤ → Prop
  | requested {n : ℤ} (h : Reads v n) (hn : allowed n) : Choice allowed default v n
  | default (h : ∀ n, Reads v n → ¬allowed n) : Choice allowed default v default

theorem choice_of_some {allowed : ℤ → Prop} {default : ℤ} (h : LimitHandler.readCount? v = some n)
    (hn : allowed n) : Choice allowed default v n :=
  .requested (readCount?_eq_some_iff.mp h).1 hn

/-- What is not read as a count is not asked for, where only counts may be. -/
theorem choice_default {allowed : ℤ → Prop} {default : ℤ} (hcounts : ∀ n, allowed n → 0 ≤ n ∧ n ≤ Number.greatest)
    (h : ∀ n, LimitHandler.readCount? v = some n → ¬allowed n) : Choice allowed default v default :=
  .default fun n hn hallowed => h n (readCount?_eq_some_iff.mpr ⟨hn, hcounts n hallowed⟩) hallowed

theorem Choice.holds {allowed : ℤ → Prop} {default : ℤ} (h : Choice allowed default v n)
    (hdefault : allowed default) : allowed n := by
  cases h with
  | requested _ hn => exact hn
  | default _ => exact hdefault

theorem Choice.unique {allowed : ℤ → Prop} {default m : ℤ} (h : Choice allowed default v n)
    (h' : Choice allowed default v m) : n = m := by
  cases h with
  | requested hn hallowed =>
    cases h' with
    | requested hm _ => exact hn.unique hm
    | default hnot => exact absurd hallowed (hnot n hn)
  | default hnot =>
    cases h' with
    | requested hm hallowed => exact absurd hallowed (hnot m hm)
    | default _ => rfl

/-! ## Page size and page -/

def IsSize (n : ℤ) : Prop := 1 ≤ n ∧ n ≤ Number.greatest

/-- A page that a store can skip to, at a page size. -/
def IsPage (size n : ℤ) : Prop := 0 ≤ n ∧ n ≤ Number.greatest ∧ n * size ≤ Number.greatest

instance (n : ℤ) : Decidable (IsSize n) := by unfold IsSize; infer_instance

instance (size n : ℤ) : Decidable (IsPage size n) := by unfold IsPage; infer_instance

/-- A page size that is held to a maximum, if there is one. -/
def capped (most : Option ℤ) (n : ℤ) : ℤ := most.elim n (min n)

theorem isSize_capped {most : Option ℤ} (hmost : ∀ m ∈ most, 1 ≤ m) (h : IsSize n) :
    IsSize (capped most n) ∧ ∀ m ∈ most, capped most n ≤ m := by
  cases most with
  | none => exact ⟨h, by simp⟩
  | some m =>
    have hm : 1 ≤ m := hmost m rfl
    obtain ⟨hpos, hle⟩ := h
    have hcapped : capped (some m) n = min n m := rfl
    rw [hcapped]
    refine ⟨⟨by omega, by omega⟩, ?_⟩
    rintro m' ⟨⟩
    omega

/-- The handler for a default and a maximum of page sizes, before its input. -/
def handler (default : ℤ) (most : Option ℤ) : LimitHandler := ⟨.int default, most.map .int, .fresh, none⟩

theorem init_eq {default : ℤ} {most : Option ℤ} (hdefault : 1 ≤ default) (hmost : ∀ m ∈ most, 1 ≤ m) :
    LimitHandler.init (.int default) (most.elim .null .int) = .ok (handler default most) := by
  rw [LimitHandler.init, positive_int hdefault]
  cases most with
  | none => rfl
  | some m =>
    simp only [Option.elim, bind, Except.bind, positive_int (hmost m rfl)]
    rfl

theorem exists_requestedSize {h : LimitHandler} {default : ℤ} (hdefault : h.defaultSize = .int default)
    (size : Value) : ∃ r, Choice IsSize default size r ∧ requestedSize h size = .int r := by
  have hcounts (n : ℤ) (h : IsSize n) : 0 ≤ n ∧ n ≤ Number.greatest := ⟨by have := h.1; omega, h.2⟩
  unfold requestedSize
  cases hr : LimitHandler.readCount? size with
  | none => exact ⟨default, choice_default hcounts (by simp [hr]), hdefault⟩
  | some n =>
    have hn := readCount?_bounds hr
    by_cases hzero : n = 0
    · refine ⟨default, choice_default hcounts fun m hm hsize => ?_, (if_pos hzero).trans hdefault⟩
      rw [hr, hzero] at hm
      cases hm
      exact absurd hsize.1 (by decide)
    · exact ⟨n, choice_of_some hr ⟨by omega, hn.2⟩, if_neg hzero⟩

theorem choice_pageNumber (size : ℤ) (page : Value) :
    Choice (IsPage size) 0 page (LimitHandler.pageNumber page (.int size)) := by
  have hcounts (n : ℤ) (h : IsPage size n) : 0 ≤ n ∧ n ≤ Number.greatest := ⟨h.1, h.2.1⟩
  unfold LimitHandler.pageNumber
  cases hr : LimitHandler.readCount? page with
  | none =>
    rw [Option.getD_none, ite_self]
    exact choice_default hcounts (by simp [hr])
  | some n =>
    obtain ⟨hpos, hle⟩ := readCount?_bounds hr
    have hfar : (Amount.times n (.int size)).ltInt Number.greatest = true ↔ ¬n * size ≤ Number.greatest := by
      simp [Amount.ltInt]
    rw [Option.getD_some]
    by_cases hskip : n * size ≤ Number.greatest
    · rw [if_neg fun h => hfar.mp h hskip]
      exact choice_of_some hr ⟨hpos, hle, hskip⟩
    · rw [if_pos (hfar.mpr hskip)]
      refine choice_default hcounts fun m hm hpage => hskip ?_
      rw [hr] at hm
      cases hm
      exact hpage.2.2

/-! ## Windows -/

/-- What a handler shows after an input. -/
structure Shows (h : LimitHandler) (p s : ℤ) : Prop where
  page : h.page = .int p
  limit : h.limit = .int s
  skip : h.skip = .ok (.int (p * s))
  statements : h.statements = .ok (Stage.pageStatements (.int (p * s)) (.int s))

/-- A page size within 64 bits and the maximum, and a page that a store can skip to. -/
structure InRange (most : Option ℤ) (p s : ℤ) : Prop where
  size_pos : 1 ≤ s
  size_le : s ≤ Number.greatest
  size_most : ∀ m ∈ most, s ≤ m
  page_nonneg : 0 ≤ p
  skip_nonneg : 0 ≤ p * s
  skip_le : p * s ≤ Number.greatest

theorem inRange_of_choice {most : Option ℤ} (hmost : ∀ m ∈ most, 1 ≤ m) {asked p : ℤ} (hasked : IsSize asked)
    {page : Value} (hpage : Choice (IsPage (capped most asked)) 0 page p) : InRange most p (capped most asked) := by
  obtain ⟨⟨hpos, hle⟩, hcapped⟩ := isSize_capped hmost hasked
  have hfirst : IsPage (capped most asked) 0 := by simp [IsPage, Number.greatest]
  obtain ⟨hnonneg, -, hskip⟩ := hpage.holds hfirst
  exact ⟨hpos, hle, hcapped, hnonneg, Int.mul_nonneg hnonneg (by omega), hskip⟩

/-- An input is always taken. The page size is the one that is asked for, or the default, and held to the maximum;
the page is the one that is asked for, or the first one. All stay within 64 bits, with the number of documents that
are skipped. -/
theorem window_bounds {default : ℤ} (hdefault : IsSize default) {most : Option ℤ} (hmost : ∀ m ∈ most, 1 ≤ m)
    (page size : Value) : ∃ h, LimitHandler.init (.int default) (most.elim .null .int) = .ok h ∧
      let r := h.input (.tuple [page, size]) .null
      r.answer = .ok () ∧ ∃ p s asked : ℤ, Shows r.state p s ∧ InRange most p s ∧
        Choice IsSize default size asked ∧ s = capped most asked ∧ Choice (IsPage s) 0 page p := by
  refine ⟨handler default most, init_eq hdefault.1 hmost, ?_⟩
  obtain ⟨asked, hasked, hrequested⟩ := exists_requestedSize (h := handler default most) rfl size
  have hsize : (handler default most).pageSize size = .int (capped most asked) := by
    rw [pageSize_eq, hrequested]
    cases most with
    | none => rfl
    | some m => exact Amount.min_int_int m asked
  have hpage := choice_pageNumber (capped most asked) page
  have hinput : (handler default most).input (.tuple [page, size]) .null =
      (handler default most).accept page size := rfl
  dsimp only
  rw [hinput, LimitHandler.accept_of_fresh rfl, hsize]
  exact ⟨rfl, _, _, asked, ⟨rfl, rfl, rfl, rfl⟩, inRange_of_choice hmost (hasked.holds hdefault) hpage, hasked, rfl,
    hpage⟩

/-- The last page of three documents that a store can skip to, with a page size just beyond 64 bits. -/
theorem window_bounds_last : IsSize 10 ∧ (∀ m ∈ some (3 : ℤ), 1 ≤ m) ∧
    ∃ h, LimitHandler.init (.int 10) (.int 3) = .ok h ∧
      let r := h.input (.tuple [.text " 3074457345618258602\n", .text "9223372036854775808"]) .null
      r.answer = .ok () ∧ Shows r.state 3074457345618258602 3 ∧ InRange (some 3) 3074457345618258602 3 := by
  have hdefault : IsSize 10 := by decide
  have hmost : ∀ m ∈ some (3 : ℤ), 1 ≤ m := by simp
  obtain ⟨h, hinit, hok, p, s, asked, hshows, hrange, hasked, hs, hp⟩ :=
    window_bounds hdefault hmost (.text " 3074457345618258602\n") (.text "9223372036854775808")
  have hlong : Choice IsSize 10 (.text "9223372036854775808") 10 := by
    have hread : Reads (.text "9223372036854775808") 9223372036854775808 := reads_text_iff.mpr (by decide +kernel)
    refine .default fun n hn => ?_
    rw [hn.unique hread]
    decide
  have hpage : Choice (IsPage 3) 0 (.text " 3074457345618258602\n") 3074457345618258602 :=
    .requested (reads_text_iff.mpr (by decide +kernel)) (by decide)
  rw [hasked.unique hlong] at hs
  subst hs
  rw [hp.unique hpage] at hshows hrange
  exact ⟨hdefault, hmost, h, hinit, hok, hshows, hrange⟩

end GridQuery.PageBounds

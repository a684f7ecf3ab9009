import GridQuery.Proofs.PageSlices
import GridQuery.Proofs.QueryVocabulary
import GridQuery.Proofs.SortTexts

/-! # The final query object as a query object

What a pipeline has taken is written as a query object again, with the defaults in place of what was missing.
A fresh pipeline with the same settings reads each of its parts as what was written, so that it is compiled
to the same stages and has the same final query object. -/
namespace GridQuery

/-! ## Whole amounts -/

namespace Amount

/-- An integer, or a truth value, which counts as one. -/
def IsWhole : Amount → Prop
  | flag _ | int _ => True
  | double _ => False

def toInt : Amount → Int
  | flag b => ofBool b
  | int n => n
  | double _ => 0

theorem ltInt_of_whole {a : Amount} (h : a.IsWhole) (n : Int) : ltInt n a = decide (n < a.toInt) := by
  cases a with
  | double d => exact h.elim
  | _ => rfl

theorem lt_of_whole {a b : Amount} (ha : a.IsWhole) (hb : b.IsWhole) : lt a b = decide (a.toInt < b.toInt) := by
  cases a with
  | double d => exact ha.elim
  | flag x => exact ltInt_of_whole hb _
  | int n => exact ltInt_of_whole hb n

theorem min_of_lt {a b : Amount} (ha : a.IsWhole) (hb : b.IsWhole) (h : b.toInt < a.toInt) : min a b = b := by
  rw [min, lt_of_whole hb ha, decide_eq_true h, if_pos rfl]

theorem min_of_le {a b : Amount} (ha : a.IsWhole) (hb : b.IsWhole) (h : a.toInt ≤ b.toInt) : min a b = a := by
  have hnot : ¬b.toInt < a.toInt := by omega
  rw [min, lt_of_whole hb ha, decide_eq_false hnot]
  rfl

/-- What a page size of the settings has to be. -/
structure IsSize (a : Amount) : Prop where
  whole : a.IsWhole
  pos : 0 < a.toInt

theorem isSize_int {n : Int} : IsSize (int n) ↔ 0 < n := ⟨fun h => h.pos, fun h => ⟨trivial, h⟩⟩

theorem IsSize.toInt_flag {b : Bool} (h : IsSize (flag b)) : (flag b).toInt = 1 := by
  cases b with
  | false => exact absurd h.pos (by decide)
  | true => rfl

theorem min_min {a b : Amount} (ha : IsSize a) (hb : IsSize b) :
    min a (min a b) = min a b := by
  by_cases hlt : b.toInt < a.toInt
  · have hmin : min a b = b := min_of_lt ha.whole hb.whole hlt
    rw [hmin, hmin]
  · rw [min_of_le ha.whole hb.whole (Int.not_lt.mp hlt)]
    exact min_of_le ha.whole ha.whole (Int.le_refl _)

theorem IsSize.min {a b : Amount} (ha : IsSize a) (hb : IsSize b) : IsSize (min a b) := by
  rw [Amount.min]
  split
  · exact hb
  · exact ha

end Amount

namespace FinalQueries
open PageSlices (requestedSize pageSize_eq readCount?_bounds)
open Amount (IsSize)

/-! ## Page and page size -/

section Limit
variable {h : LimitHandler}

/-- The page sizes of the settings are positive integers. -/
structure HasSizes (h : LimitHandler) : Prop where
  defaultSize : h.defaultSize.IsSize
  maxItems : ∀ most, h.maxItems = some most → most.IsSize

theorem requestedSize_cases (h : LimitHandler) (v : Value) : requestedSize h v = h.defaultSize ∨
    ∃ n, requestedSize h v = .int n ∧ 0 < n ∧ n ≤ Number.greatest := by
  unfold requestedSize
  cases hr : LimitHandler.readCount? v with
  | none => exact Or.inl rfl
  | some n =>
    have hn := readCount?_bounds hr
    by_cases hzero : n = 0
    · exact Or.inl (if_pos hzero)
    · exact Or.inr ⟨n, if_neg hzero, by omega, hn.2⟩

theorem HasSizes.requestedSize (hs : HasSizes h) (v : Value) : (requestedSize h v).IsSize := by
  rcases requestedSize_cases h v with hdefault | ⟨n, hn, hpos, -⟩
  · rw [hdefault]
    exact hs.defaultSize
  · rw [hn]
    exact Amount.isSize_int.mpr hpos

theorem readCount?_int {n : Int} (hpos : 0 ≤ n) (hle : n ≤ Number.greatest) :
    LimitHandler.readCount? (.int n) = some n := by
  simp [LimitHandler.readCount?, Option.filter, hpos, hle]

/-- A page size is read as itself, unless it is no integer of 64 bits: then the default is taken. -/
theorem requestedSize_toValue {a : Amount} (ha : a.IsSize) : requestedSize h a.toValue = a ∨
    requestedSize h a.toValue = h.defaultSize ∧ ∀ n, a = .int n → Number.greatest < n := by
  cases a with
  | double d => exact ha.whole.elim
  | flag b => exact Or.inr ⟨rfl, fun n hn => by cases hn⟩
  | int n =>
    have hpos : 0 < n := Amount.isSize_int.mp ha
    have hne : n ≠ 0 := by omega
    by_cases hle : n ≤ Number.greatest
    · refine Or.inl ?_
      rw [requestedSize, Amount.toValue, readCount?_int (by omega) hle]
      exact if_neg hne
    · refine Or.inr ⟨?_, fun m hm => ?_⟩
      · simp [requestedSize, Amount.toValue, LimitHandler.readCount?, Option.filter, hle]
      · cases hm
        omega

/-- A maximum that turns a page size of 64 bits into one that cannot be asked for does the same to the
default. -/
theorem min_default {most default : Amount} {n : Int} (hm : most.IsSize) (hd : default.IsSize)
    (hle : n ≤ Number.greatest) (hbig : ∀ m, Amount.min most (.int n) = .int m → Number.greatest < m) :
    Amount.min most default = Amount.min most (.int n) := by
  by_cases hlt : n < most.toInt
  · have := hbig n (Amount.min_of_lt hm.whole trivial hlt)
    omega
  · have hmost : Amount.min most (.int n) = most := Amount.min_of_le hm.whole trivial (Int.not_lt.mp hlt)
    rw [hmost] at hbig ⊢
    refine Amount.min_of_le hm.whole hd.whole ?_
    cases most with
    | double d => exact hm.whole.elim
    | flag b =>
      rw [hm.toInt_flag]
      exact hd.pos
    | int m =>
      have hfar : Number.greatest < m := hbig m rfl
      have hnear : m ≤ n := Int.not_lt.mp hlt
      omega

/-- The page size that is shown is the page size that it stands for. -/
theorem pageSize_toValue (hs : HasSizes h) (v : Value) : h.pageSize (h.pageSize v).toValue = h.pageSize v := by
  have hrequested := hs.requestedSize v
  rw [pageSize_eq, pageSize_eq]
  cases hmost : h.maxItems with
  | none =>
    dsimp only
    rcases requestedSize_toValue (h := h) hrequested with hsame | ⟨hdefault, hbig⟩
    · exact hsame
    · rcases requestedSize_cases h v with hv | ⟨n, hv, -, hle⟩
      · rw [hdefault, hv]
      · have := hbig n hv
        omega
  | some most =>
    have hm := hs.maxItems most hmost
    dsimp only
    rcases requestedSize_toValue (h := h) (hm.min hrequested) with hsame | ⟨hdefault, hbig⟩
    · rw [hsame, Amount.min_min hm hrequested]
    · rw [hdefault]
      rcases requestedSize_cases h v with hv | ⟨n, hv, -, hle⟩
      · rw [hv]
      · rw [hv] at hbig ⊢
        exact min_default hm hs.defaultSize hle hbig

theorem pageNumber_bounds (v : Value) (size : Amount) :
    0 ≤ LimitHandler.pageNumber v size ∧ LimitHandler.pageNumber v size ≤ Number.greatest := by
  have hzero : (0 : Int) ≤ 0 ∧ (0 : Int) ≤ Number.greatest := by decide
  rw [LimitHandler.pageNumber]
  split
  · exact hzero
  · cases hr : LimitHandler.readCount? v with
    | none => exact hzero
    | some n => exact readCount?_bounds hr

/-- The page that is shown is the page that it stands for. -/
theorem pageNumber_int (v : Value) (size : Amount) :
    LimitHandler.pageNumber (.int (LimitHandler.pageNumber v size)) size = LimitHandler.pageNumber v size := by
  obtain ⟨hpos, hle⟩ := pageNumber_bounds v size
  rw [LimitHandler.pageNumber, readCount?_int hpos hle, Option.getD_some]
  by_cases hfar : (Amount.times ((LimitHandler.readCount? v).getD 0) size).ltInt Number.greatest = true
  · have hzero : LimitHandler.pageNumber v size = 0 := if_pos hfar
    rw [hzero]
    exact ite_self 0
  · have hpage : LimitHandler.pageNumber v size = (LimitHandler.readCount? v).getD 0 := if_neg hfar
    rw [hpage]
    exact if_neg hfar

end Limit

/-! ## Search and filter -/

def searchInput : Option String → Value
  | none => .null
  | some s => .text s

theorem read_searchInput {v : Value} {text : Option String} (h : SearchHandler.read v = .ok text) :
    SearchHandler.read (searchInput text) = .ok text := by
  cases v with
  | text s =>
    cases h
    by_cases hblank : Text.isBlankText s.toList = true
    · rw [if_pos hblank]
      rfl
    · rw [if_neg hblank, searchInput, SearchHandler.read, if_neg hblank]
  | null =>
    cases h
    rfl
  | _ => cases h

/-- An expression is read from the descriptor that is written for it, at any position. -/
theorem ofDescriptor_descriptor? {index : Nat} {v : Value} {e : Expression}
    (h : Expression.ofDescriptor index v = .ok e) (index' : Nat) :
    ∃ d, e.descriptor? = some d ∧ Expression.ofDescriptor index' d = .ok e := by
  obtain ⟨fields, f, operator, o, c, -, -, hf, -, -, hc, rfl⟩ := Expression.ofDescriptor_eq_ok h
  have ho : c.operator = o := Criterion.operator_of_read hc
  have hempty : f.isEmpty = false := by simpa using hf
  refine ⟨_, rfl, ?_⟩
  rw [ho]
  simp [Expression.ofDescriptor, Value.entry, Table.get?, hempty, QueryVocabulary.lookupOperator_token, hc, bind,
    Except.bind, pure, Except.pure]

theorem ofDescriptors_descriptors {index : Nat} {items : List Value} {es : List Expression}
    (h : Expression.ofDescriptors index items = .ok es) (index' : Nat) :
    Expression.ofDescriptors index' (es.filterMap Expression.descriptor?) = .ok es := by
  induction items generalizing index index' es with
  | nil =>
    cases h
    rfl
  | cons v r ih =>
    obtain ⟨e, he, h⟩ := bind_eq_ok_iff.mp h
    obtain ⟨rest, hrest, h⟩ := bind_eq_ok_iff.mp h
    cases h
    obtain ⟨d, hd, hread⟩ := ofDescriptor_descriptor? he index'
    rw [List.filterMap_cons_some hd]
    exact bind_eq_ok_iff.mpr ⟨e, hread, bind_eq_ok_iff.mpr ⟨rest, ih hrest (index' + 1), rfl⟩⟩

theorem exists_items_of_filter {v : Value} {es : List Expression} (h : Expression.ofFilter v = .ok es) :
    ∃ items, Expression.ofDescriptors 0 items = .ok es := by
  unfold Expression.ofFilter at h
  split at h
  · split at h
    · exact ⟨_, h⟩
    · cases h
  · cases h
    exact ⟨[], rfl⟩

theorem ofFilter_array (items : List Value) :
    Expression.ofFilter (.array items) = Expression.ofDescriptors 0 items := by
  cases items <;> rfl

theorem ofFilter_descriptors {v : Value} {es : List Expression} (h : Expression.ofFilter v = .ok es) :
    Expression.ofFilter (.array (es.filterMap Expression.descriptor?)) = .ok es := by
  obtain ⟨items, hitems⟩ := exists_items_of_filter h
  rw [ofFilter_array]
  exact ofDescriptors_descriptors hitems 0

/-! ## What a pipeline holds -/

/-- A pipeline that was made like the first one has taken these contents. -/
structure Holds (p : Pipeline) (text : Option String) (es : List Expression) (spec : SortSpec) (page : Int)
    (size : Amount) (r : Pipeline) : Prop where
  text : r.search.text = text
  index : r.search.index = p.search.index
  expressions : r.filter.expressions = some (es ++ p.filter.forced.expressions)
  spec : r.sort.spec = some spec
  window : r.limit.window = some (page, size)
  field : r.count.field = p.count.field

/-- The query object that such contents are written as. -/
def finalDocument (text : Option String) (es : List Expression) (spec : SortSpec) (page : Int) (size : Amount) :
    Document :=
  [("search", searchInput text), ("filter", .array (es.filterMap Expression.descriptor?)),
    ("sort", .text spec.text), ("page", .int page), ("pageSize", size.toValue)]

variable {p r : Pipeline} {q : Document} {text : Option String} {es : List Expression} {spec : SortSpec}
  {page : Int} {size : Amount}

theorem Holds.finalQuery (h : Holds p text es spec page size r)
    (hforced : p.filter.forced.expressions.filterMap Expression.descriptor? = []) :
    r.finalQuery = .ok (finalDocument text es spec page size) := by
  have hsearch : r.search.finalInput = searchInput text := by
    rw [SearchHandler.finalInput, h.text]
    cases text <;> rfl
  simp [Pipeline.finalQuery, FilterHandler.finalInput, h.expressions, List.filterMap_append, hforced,
    SortHandler.finalInput, h.spec, LimitHandler.finalInput, LimitHandler.page, LimitHandler.limit, h.window,
    hsearch, finalDocument, bind, Except.bind, pure, Except.pure]

/-- Equal contents are compiled to the same stages. -/
theorem Holds.stages {r' : Pipeline} (h : Holds p text es spec page size r)
    (h' : Holds p text es spec page size r') : r'.stages = r.stages := by
  have hsearch : r'.search.stages = r.search.stages := by
    simp only [SearchHandler.stages, h.text, h'.text, h.index, h'.index]
  have hfilter : r'.filter.stages = r.filter.stages := by
    simp only [FilterHandler.stages, h.expressions, h'.expressions]
  have hsort : r'.sort.stages = r.sort.stages := by
    simp only [SortHandler.stages, h.spec, h'.spec]
  rw [Pipeline.stages_of_window h.window, Pipeline.stages_of_window h'.window, hsearch, hfilter, hsort, h.field,
    h'.field]

theorem Holds.exists_stages (h : Holds p text es spec page size r) : ∃ stages, r.stages = .ok stages :=
  ⟨_, Pipeline.stages_of_window h.window⟩

/-- What an accepted query object is read as. -/
structure Reads (q : Document) (text : Option String) (es : List Expression) (spec : SortSpec) : Prop where
  search : SearchHandler.read (Value.entry q "search") = .ok text
  filter : Expression.ofFilter (Value.entry q "filter") = .ok es
  sort : SortSpec.ofValue (Value.entry q "sort") = .ok spec

theorem exists_reads (hu : p.Untouched) (hq : (p.query q).answer = .ok ()) :
    ∃ text es spec, Reads q text es spec ∧ Holds p text es spec
      (LimitHandler.pageNumber (Value.entry q "page") (p.limit.pageSize (Value.entry q "pageSize")))
      (p.limit.pageSize (Value.entry q "pageSize")) (p.query q).state := by
  obtain ⟨text, es, spec, hsearch, hfilter, hsort, hstate⟩ := (hu.query q).of_ok hq
  rw [hstate]
  exact ⟨text, es, spec, ⟨hsearch, hfilter, hsort⟩, ⟨rfl, rfl, rfl, rfl, rfl, rfl⟩⟩

theorem Reads.unique {text' : Option String} {es' : List Expression} {spec' : SortSpec}
    (h : Reads q text es spec) (h' : Reads q text' es' spec') : text' = text ∧ es' = es ∧ spec' = spec :=
  ⟨Except.ok.inj (h'.search.symm.trans h.search), Except.ok.inj (h'.filter.symm.trans h.filter),
    Except.ok.inj (h'.sort.symm.trans h.sort)⟩

theorem reads_finalDocument {v w : Value} (hsearch : SearchHandler.read v = .ok text)
    (hfilter : Expression.ofFilter w = .ok es) (hspec : spec.Writable) (page : Int) (size : Amount) :
    Reads (finalDocument text es spec page size) text es spec where
  search := read_searchInput hsearch
  filter := ofFilter_descriptors hfilter
  sort := SortSpec.ofValue_text_self hspec

theorem unknownKeys_finalDocument : Pipeline.unknownKeys (finalDocument text es spec page size) = [] := by
  rw [Pipeline.unknownKeys_eq_nil_iff]
  intro key hkey
  exact hkey

/-- The parts that a final query object has are switched on. -/
def AllOn (p : Pipeline) : Prop :=
  ∀ part ∈ ["search", "filter", "sort", "limit"], p.settings.isEnabled part = true

theorem query_finalDocument (hu : p.Untouched) (hon : AllOn p) (hs : HasSizes p.limit)
    (hreads : Reads (finalDocument text es spec page size) text es spec) {v w : Value}
    (hsize : size = p.limit.pageSize v) (hpage : page = LimitHandler.pageNumber w size) :
    (p.query (finalDocument text es spec page size)).answer = .ok () ∧
      Holds p text es spec page size (p.query (finalDocument text es spec page size)).state := by
  have hknown : Pipeline.unknownKeys (finalDocument text es spec page size) = [] := unknownKeys_finalDocument
  have haccepted : (p.query (finalDocument text es spec page size)).answer = .ok () := by
    rw [hu.answer_query hknown, QueryVocabulary.readParts_eq_ok_iff rfl]
    exact ⟨⟨fun _ => hon "search" (by simp), _, hreads.search⟩,
      ⟨fun _ => hon "filter" (by simp), _, hreads.filter⟩,
      ⟨fun _ => hon "sort" (by simp), _, hreads.sort⟩, fun _ => hon "limit" (by simp)⟩
  obtain ⟨text', es', spec', hreads', hholds⟩ := exists_reads hu haccepted
  obtain ⟨rfl, rfl, rfl⟩ := hreads.unique hreads'
  have hsame : p.limit.pageSize size.toValue = size := by rw [hsize, pageSize_toValue hs]
  have hpaged : LimitHandler.pageNumber (.int page) size = page := by rw [hpage, pageNumber_int]
  have hpageEntry : Value.entry (finalDocument text' es' spec' page size) "page" = .int page := rfl
  have hsizeEntry : Value.entry (finalDocument text' es' spec' page size) "pageSize" = size.toValue := rfl
  rw [hpageEntry, hsizeEntry, hsame, hpaged] at hholds
  exact ⟨haccepted, hholds⟩

/-! ## Merged sort specifications -/

/-- Merges sort specifications into the first member, up to the first error. -/
def mergeSorts (f : PipelineFamily) : List Value → Reply PipelineFamily Unit
  | [] => ⟨.ok (), f⟩
  | v :: r => (f.merge 0 .sort v).andThen fun f _ => mergeSorts f r

/-- A query object, and then sort specifications that are merged into the pipeline that has taken it. -/
def refined (p : Pipeline) (q : Document) (sorts : List Value) : Reply PipelineFamily Unit :=
  ((PipelineFamily.single p).query 0 q).andThen fun f _ => mergeSorts f sorts

theorem merge_single (r : Pipeline) (v : Value) : (PipelineFamily.single r).merge 0 .sort v =
    match r.sort.merged v with
    | .error e => ⟨.error e, .single r⟩
    | .ok spec => ⟨.ok (), .single { r with sort := { r.sort with spec := some spec } }⟩ := by
  rw [PipelineFamily.merge_sort (r := ⟨0, 0, r⟩) rfl]
  rfl

theorem Holds.merged (h : Holds p text es spec page size r) (hspec : spec.Writable) {v : Value}
    {merged : SortSpec} (hm : r.sort.merged v = .ok merged) : merged.Writable ∧
      Holds p text es merged page size { r with sort := { r.sort with spec := some merged } } := by
  rw [SortHandler.merged, h.spec] at hm
  obtain ⟨other, hother, rfl⟩ := map_eq_ok_iff.mp hm
  exact ⟨hspec.putAll (SortSpec.writable_of_read hother).fields,
    h.text, h.index, h.expressions, rfl, h.window, h.field⟩

/-- Merges keep what the pipeline holds, except for the sort specification, which stays one that can be
written. -/
theorem mergeSorts_holds (h : Holds p text es spec page size r) (hspec : spec.Writable) {sorts : List Value}
    (hok : (mergeSorts (.single r) sorts).answer = .ok ()) :
    ∃ r' spec', (mergeSorts (.single r) sorts).state = .single r' ∧ spec'.Writable ∧
      Holds p text es spec' page size r' := by
  induction sorts generalizing r spec with
  | nil => exact ⟨r, spec, rfl, hspec, h⟩
  | cons v sorts ih =>
    rw [mergeSorts, merge_single] at hok ⊢
    cases hm : r.sort.merged v with
    | error e =>
      rw [hm] at hok
      cases hok
    | ok merged =>
      rw [hm] at hok
      obtain ⟨hwritable, hholds⟩ := h.merged hspec hm
      exact ih hholds hwritable hok

theorem refined_eq (p : Pipeline) (q : Document) (sorts : List Value) : refined p q sorts =
    match (p.query q).answer with
    | .ok _ => mergeSorts (.single (p.query q).state) sorts
    | .error e => ⟨.error e, .single (p.query q).state⟩ := by
  rw [refined, PipelineFamily.query_of_member (r := ⟨0, 0, p⟩) rfl]
  cases p.query q with
  | mk answer s => cases answer <;> rfl

theorem refined_holds (hu : p.Untouched) {sorts : List Value} (hok : (refined p q sorts).answer = .ok ()) :
    ∃ text es spec r v w, (refined p q sorts).state = .single r ∧
      Reads (finalDocument text es spec (LimitHandler.pageNumber w (p.limit.pageSize v)) (p.limit.pageSize v))
        text es spec ∧
      Holds p text es spec (LimitHandler.pageNumber w (p.limit.pageSize v)) (p.limit.pageSize v) r := by
  rw [refined_eq] at hok ⊢
  cases hq : (p.query q).answer with
  | error e =>
    rw [hq] at hok
    cases hok
  | ok _ =>
    rw [hq] at hok
    obtain ⟨text, es, spec, hreads, hholds⟩ := exists_reads hu hq
    obtain ⟨r, spec', hstate, hwritable, hr⟩ :=
      mergeSorts_holds hholds (SortSpec.writable_of_read hreads.sort) hok
    exact ⟨text, es, spec', r, _, _, hstate, reads_finalDocument hreads.search hreads.filter hwritable _ _, hr⟩

/-! ## The final query object of a fresh pipeline -/

def IsInteger : Value → Prop
  | .int _ | .bool _ => True
  | _ => False

/-- Everything is switched on, pages have integers for their sizes, and conditions that are added to every
filter are no descriptors. A truth value counts as an integer. -/
structure Reproducible (settings : Document) : Prop where
  on : ∀ part ∈ ["search", "filter", "sort", "limit"], Settings.leavesOn settings part = true
  defaultSize : IsInteger ((Table.get? settings "default_page_size").getD (.int 10))
  maxItems : Value.entry settings "max_items" = .null ∨ IsInteger (Value.entry settings "max_items")
  forced : Value.entry settings "force_filter" = .null ∨ ∃ d, Value.entry settings "force_filter" = .document d

theorem isSize_of_positive {v : Value} (hv : IsInteger v) {a : Amount} (h : LimitHandler.positive v = .ok a) :
    a.IsSize := by
  have hwhole : ∃ b : Amount, b.IsWhole ∧ Amount.ofValue? v = some b := by
    cases v with
    | int n => exact ⟨.int n, trivial, rfl⟩
    | bool b => exact ⟨.flag b, trivial, rfl⟩
    | _ => exact hv.elim
  obtain ⟨b, hb, hvalue⟩ := hwhole
  rw [LimitHandler.positive, hvalue] at h
  dsimp only at h
  split at h
  · rename_i hpos
    cases h
    rw [Amount.ltInt_of_whole hb] at hpos
    exact ⟨hb, of_decide_eq_true hpos⟩
  · cases h

theorem hasSizes_of_init {defaultSize maxItems : Value} (hd : IsInteger defaultSize)
    (hm : maxItems = .null ∨ IsInteger maxItems) {h : LimitHandler}
    (hi : LimitHandler.init defaultSize maxItems = .ok h) : HasSizes h := by
  obtain ⟨size, hsize, hi⟩ := bind_eq_ok_iff.mp hi
  have hdefault := isSize_of_positive hd hsize
  split at hi
  · cases hi
    exact ⟨hdefault, fun most hmost => by cases hmost⟩
  · rename_i hnull
    obtain ⟨most, hmost, hi⟩ := bind_eq_ok_iff.mp hi
    cases hi
    refine ⟨hdefault, fun most' hmost' => ?_⟩
    cases hmost'
    exact isSize_of_positive (hm.resolve_left hnull) hmost

theorem forced_of_init {force : Value} (hf : force = .null ∨ ∃ d, force = .document d) {h : FilterHandler}
    (hi : FilterHandler.init force = .ok h) : h.forced.expressions.filterMap Expression.descriptor? = [] := by
  rcases hf with rfl | ⟨d, rfl⟩ <;> cases hi <;> rfl

/-- The final query object of a pipeline that has taken a query object, and further sort specifications behind
it, is accepted by a fresh pipeline with the same settings. It is compiled to the same stages there, and is its
own final query object. -/
theorem final_query_reproduces {settings : Value} (hp : Pipeline.init settings = .ok p)
    (hs : Reproducible (settingsTable settings)) {sorts : List Value}
    (hok : (refined p q sorts).answer = .ok ()) :
    ∃ r final stages, (refined p q sorts).state = .single r ∧
      r.finalQuery = .ok final ∧ r.stages = .ok stages ∧
      (p.query final).answer = .ok () ∧ (p.query final).state.stages = .ok stages ∧
      (p.query final).state.finalQuery = .ok final := by
  obtain ⟨-, hfilter, -, hlimit, -⟩ := Pipeline.init_eq_ok hp
  have huntouched : p.Untouched := Pipeline.untouched_of_init hp
  have hsizes : HasSizes p.limit := hasSizes_of_init hs.defaultSize hs.maxItems hlimit
  have hforced := forced_of_init hs.forced hfilter
  have hon : AllOn p := by
    intro part hpart
    rw [Pipeline.isEnabled_of_init hp (List.mem_append_left ["count"] hpart)]
    exact hs.on part hpart
  obtain ⟨text, es, spec, r, v, w, hstate, hreads, hholds⟩ := refined_holds huntouched hok
  obtain ⟨haccepted, hagain⟩ := query_finalDocument huntouched hon hsizes hreads rfl rfl
  obtain ⟨stages, hstages⟩ := hholds.exists_stages
  exact ⟨r, _, stages, hstate, hholds.finalQuery hforced, hstages, haccepted,
    (hholds.stages hagain).trans hstages, hagain.finalQuery hforced⟩

/-- A default size that no request could ask for, and a condition that is added to every filter. -/
def vastSettings : Document :=
  [("default_page_size", .int 9223372036854775808), ("force_filter", .document [("shop", .int 1)])]

def cheapPhones : Document :=
  [("page", .text "2"), ("sort", .text "Price asc, Name"),
    ("filter", .array [.document [("field", .text "Price"), ("operator", .text "<"), ("value", .text "30")]])]

theorem reproducible_vastSettings : Reproducible vastSettings where
  on := by decide
  defaultSize := trivial
  maxItems := Or.inl rfl
  forced := Or.inr ⟨_, rfl⟩

theorem final_query_reproduces_vast : ∃ p r final stages,
    Pipeline.init (.document vastSettings) = .ok p ∧
    refined p cheapPhones [.text "Name asc, Brand", .null] = ⟨.ok (), .single r⟩ ∧
    r.finalQuery = .ok final ∧ r.stages = .ok stages ∧
    (p.query final).answer = .ok () ∧ (p.query final).state.stages = .ok stages ∧
    (p.query final).state.finalQuery = .ok final := by
  have hok : ((Pipeline.init (.document vastSettings)).bind fun p =>
      (refined p cheapPhones [.text "Name asc, Brand", .null]).answer).isOk = true := by decide +kernel
  obtain ⟨a, hok⟩ := exists_of_isOk hok
  obtain ⟨p, hp, hok⟩ := bind_eq_ok_iff.mp hok
  obtain ⟨r, final, stages, hstate, hfresh⟩ := final_query_reproduces hp reproducible_vastSettings hok
  refine ⟨p, r, final, stages, hp, ?_, hfresh⟩
  rw [← hok, ← hstate]

end FinalQueries
end GridQuery

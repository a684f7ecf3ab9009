import GridQuery.Proofs.CompiledQuery
import GridQuery.Proofs.DecimalNumerals
import GridQuery.Proofs.QueryAnswers
import GridQuery.Store.CountedPage
import GridQuery.Crud.Collection

/-! # Pages as slices of the documents

A store that runs the branches of the last stage over the same documents, one to page and one to count,
gives each page of a listing as one slice of them. The slices all have the same size, and one after the
other they are the documents. -/
namespace GridQuery.PageSlices
open Text

/-! ## A store that pages and counts -/

/-- What a stage of a branch makes of the rows that it is given, if it is one that pages or counts and
its number is in range. Counting nothing gives no row. -/
def branchStage? (rows : List Value) : Value → Option (List Value)
  | .document [(name, v)] =>
    match name, v with
    | "$skip", .int n => if 0 ≤ n ∧ n ≤ Number.greatest then some (rows.drop n.toNat) else none
    | "$limit", .int n => if 1 ≤ n ∧ n ≤ Number.greatest then some (rows.take n.toNat) else none
    | "$count", .text field => some (if rows = [] then [] else [.single field (.int rows.length)])
    | _, _ => none
  | _ => none

/-- The rows of a branch, from the documents that all branches start with. -/
def branch? (docs : List Value) : Value → Option Value
  | .array stages => (stages.foldlM branchStage? docs).map .array
  | _ => none

/-- The one row of a stage of branches. -/
def facet? (docs : List Value) : Value → Option Value
  | .document [("$facet", .document branches)] =>
    (branches.mapM fun e => (branch? docs e.2).map fun rows => (e.1, rows)).map .document
  | _ => none

/-- The answer to a pipeline where the given documents reach its last stage. What is no stage of
branches, or has a branch that cannot be run, is refused. -/
def answerTo (docs : List Value) (pipeline : List Value) : Except Fault Value :=
  match pipeline.getLast?.bind (facet? docs) with
  | some row => .ok row
  | none => .error (.refused "OperationFailure" "invalid stage" (.int 40324) .null)

theorem branchStage?_skip {rows : List Value} {n : Nat} (h : (n : Int) ≤ Number.greatest) :
    branchStage? rows (.document [("$skip", .int n)]) = some (rows.drop n) := by
  simp [branchStage?, h]

theorem branchStage?_limit {rows : List Value} {n : Nat} (hpos : 1 ≤ n) (h : (n : Int) ≤ Number.greatest) :
    branchStage? rows (.document [("$limit", .int n)]) = some (rows.take n) := by
  have hpos : (1 : Int) ≤ n := by omega
  simp [branchStage?, h, hpos]

/-- The rows of the branch that counts. -/
def countRows (docs : List Value) (field : String) : List Value :=
  if docs = [] then [] else [.single field (.int docs.length)]

theorem answerTo_facet {docs front : List Value} {skip limit : Nat} {field : String}
    (hs : (skip : Int) ≤ Number.greatest) (hpos : 1 ≤ limit) (hl : (limit : Int) ≤ Number.greatest) :
    answerTo docs (front ++ [CompiledQuery.facetStage (.int skip) (.int limit) (.text field)]) =
      .ok (.document [("data", .array ((docs.drop skip).take limit)), ("count", .array (countRows docs field))]) := by
  have hdata : branch? docs (.array [.document [("$skip", .int skip)], .document [("$limit", .int limit)]]) =
      some (.array ((docs.drop skip).take limit)) := by
    simp [branch?, branchStage?_skip hs, branchStage?_limit hpos hl]
  have hcount : branch? docs (.array [.document [("$count", .text field)]]) =
      some (.array (countRows docs field)) := rfl
  have hfacet : facet? docs (CompiledQuery.facetStage (.int skip) (.int limit) (.text field)) =
      some (.document [("data", .array ((docs.drop skip).take limit)),
        ("count", .array (countRows docs field))]) := by
    simp [facet?, CompiledQuery.facetStage, hdata, hcount]
  simp [answerTo, hfacet]

/-! ## What a counted page makes of the answer -/

theorem totalOf_countRows (docs : List Value) (field : String) :
    CountedPage.totalOf (.text field) (.array (countRows docs field)) = .ok (.int docs.length) := by
  unfold countRows
  split
  case isTrue h => simp [h, CountedPage.totalOf, Value.truthy]
  case isFalse => simp [CountedPage.totalOf, Value.truthy, Value.items?, Value.single, CountedPage.lookup?,
    Table.get?, Except.map]

/-- The store with an answer to the next aggregation. -/
def expecting (answer : Except Fault Value) (s : Store) : Store :=
  { s with aggregates := answer :: s.aggregates }

theorem unwrap_rows {c : CountedPage} {data rows : List Value} {total : Value}
    (hd : c.dataBranch = .text "data") (hc : c.countBranch = .text "count")
    (ht : CountedPage.totalOf c.countField (.array rows) = .ok total) :
    c.unwrap (.document [("data", .array data), ("count", .array rows)]) =
      ⟨.ok (), { c with data := some data, total := total }⟩ := by
  have hitems : (if data = [] then .ok [] else CountedPage.itemsOf (.array data)) = .ok data := by
    cases data <;> rfl
  simp [CountedPage.unwrap, Value.truthy, hd, hc, CountedPage.lookup?, Table.get?, Except.bind, ht, hitems]

theorem page_of_response {c : CountedPage} {collection : String} {s t : Store} {response : Value}
    (hd : c.data = none) (hc : c.collection = some collection)
    (h : Store.aggregate collection c.pipeline s = (.ok response, t)) :
    c.page s = ((c.unwrap response).within (·, t)).andThen fun u _ => ⟨.ok ⟨u.1.data.getD [], u.1.total⟩, u⟩ := by
  simp [CountedPage.page, CountedPage.ask, CountedPage.execute, hd, hc, h]

theorem answer_page {docs data pipeline : List Value} {collection field : String}
    (h : answerTo docs pipeline =
      .ok (.document [("data", .array data), ("count", .array (countRows docs field))])) (s : Store) :
    ((CountedPage.init pipeline (some collection) (.text "data") (.text "count") (.text field)).page
      (expecting (answerTo docs pipeline) s)).answer = .ok ⟨data, .int docs.length⟩ := by
  obtain ⟨t, ht⟩ : ∃ t, Store.aggregate collection pipeline (expecting (answerTo docs pipeline) s) =
      (.ok (.document [("data", .array data), ("count", .array (countRows docs field))]), t) := by
    rw [h]
    exact ⟨_, rfl⟩
  rw [page_of_response rfl rfl ht, unwrap_rows rfl rfl (totalOf_countRows docs field)]
  rfl

/-! ## Page numbers and page sizes -/

/-- The settings page by integers that a store takes. The total has a text for its field, as the keys of
all documents are texts. -/
structure Listed (settings : Document) (field : String) : Prop where
  limitOn : Settings.leavesOn settings "limit" = true
  defaultSize : ∃ n : Int, (Table.get? settings "default_page_size").getD (.int 10) = .int n ∧
    1 ≤ n ∧ n ≤ Number.greatest
  maxItems : Value.entry settings "max_items" = .null ∨ ∃ m, Value.entry settings "max_items" = .int m ∧ 1 ≤ m
  countField : CompiledQuery.countField settings = .text field

/-- A value asks for a page: by an integer, or by the decimal text of one. -/
inductive Asks (k : Nat) : Value → Prop
  | int : Asks k (.int k)
  | text : Asks k (.text (String.ofList (decimalDigits k)))

theorem readCount?_bounds {v : Value} {n : Int} (h : LimitHandler.readCount? v = some n) :
    0 ≤ n ∧ n ≤ Number.greatest := by
  have hn := (Option.filter_eq_some_iff.mp h).2
  simpa using hn

theorem trim_decimalDigits (k : Nat) : trim (decimalDigits k) = decimalDigits k :=
  trimBy_eq_self fun _ hc => (Numeral.isBare_of_mem_decimalDigits hc).1

theorem integer?_decimalDigits (k : Nat) : Numeral.integer? (decimalDigits k) =
    if (Numeral.digits k).length ≤ Numeral.digitLimit then some (k : Int) else none := by
  rw [← Numeral.integerText_ofNat, Numeral.integer?_integerText_eq]
  rfl

theorem readCount?_of_asks {k : Nat} {v : Value} (h : Asks k v) :
    LimitHandler.readCount? v = if (k : Int) ≤ Number.greatest then some (k : Int) else none := by
  cases h with
  | int => simp [LimitHandler.readCount?, Option.filter]
  | text =>
    rw [LimitHandler.readCount?]
    simp only [String.toList_ofList, trim_decimalDigits, integer?_decimalDigits]
    by_cases hk : (k : Int) ≤ Number.greatest
    · have hlt : k < 10 ^ 19 := by
        unfold Number.greatest at hk
        omega
      have hdigits : (Numeral.digits k).length ≤ 19 := Numeral.length_digits_le (by decide) hlt
      have hlimit : (Numeral.digits k).length ≤ Numeral.digitLimit := by
        unfold Numeral.digitLimit
        omega
      simp [hk, hlimit]
    · -- With too many digits there is no integer, and with fewer it is too great.
      split <;> simp [Option.filter, hk]

/-- The page that is shown: one that a store cannot skip to is replaced by the first one. -/
def shownPage (k s : Nat) : Nat := if ((k * s : Nat) : Int) ≤ Number.greatest then k else 0

theorem shownPage_of_le {k s : Nat} (h : ((k * s : Nat) : Int) ≤ Number.greatest) : shownPage k s = k := by
  rw [shownPage, if_pos h]

theorem shownPage_mul_le (k s : Nat) : ((shownPage k s * s : Nat) : Int) ≤ Number.greatest := by
  by_cases h : ((k * s : Nat) : Int) ≤ Number.greatest
  · rw [shownPage_of_le h]
    exact h
  · rw [shownPage, if_neg h, Nat.zero_mul]
    decide

theorem pageNumber_of_asks {k s : Nat} {v : Value} (h : Asks k v) (hs : 1 ≤ s) :
    LimitHandler.pageNumber v (.int s) = shownPage k s := by
  have hle : k ≤ k * s := Nat.le_mul_of_pos_right k hs
  have hmul : ((k * s : Nat) : Int) = (k : Int) * s := Int.natCast_mul k s
  rw [LimitHandler.pageNumber, readCount?_of_asks h]
  by_cases hks : ((k * s : Nat) : Int) ≤ Number.greatest
  · have hk : (k : Int) ≤ Number.greatest := by omega
    have hnot : ¬Number.greatest < (k : Int) * s := by omega
    rw [shownPage_of_le hks, if_pos hk]
    simp [hnot, Amount.ltInt]
  · rw [shownPage, if_neg hks]
    by_cases hk : (k : Int) ≤ Number.greatest
    · have hlt : Number.greatest < (k : Int) * s := by omega
      rw [if_pos hk]
      simp [hlt, Amount.ltInt]
    · -- A page beyond 64 bits is not even read.
      rw [if_neg hk]
      simp

/-- The page size that is asked for, before it is held to the maximum. -/
def requestedSize (h : LimitHandler) (v : Value) : Amount :=
  match LimitHandler.readCount? v with
  | some n => if n = 0 then h.defaultSize else .int n
  | none => h.defaultSize

theorem pageSize_eq (h : LimitHandler) (v : Value) : h.pageSize v =
    match h.maxItems with
    | none => requestedSize h v
    | some most => Amount.min most (requestedSize h v) := rfl

theorem requestedSize_int {h : LimitHandler} {d : Int} (hd : h.defaultSize = .int d) (hpos : 1 ≤ d)
    (hle : d ≤ Number.greatest) (v : Value) :
    ∃ n, requestedSize h v = .int n ∧ 1 ≤ n ∧ n ≤ Number.greatest := by
  unfold requestedSize
  rw [hd]
  cases hr : LimitHandler.readCount? v with
  | none => exact ⟨d, rfl, hpos, hle⟩
  | some n =>
    have hn := readCount?_bounds hr
    by_cases hzero : n = 0
    · exact ⟨d, by simp [hzero], hpos, hle⟩
    · exact ⟨n, by simp [hzero], by omega, hn.2⟩

theorem positive_int {n : Int} (h : 1 ≤ n) : LimitHandler.positive (.int n) = .ok (.int n) := by
  have hlt : 0 < n := by omega
  simp [LimitHandler.positive, Amount.ofValue?, Amount.ltInt, hlt]

/-- Any page size that is asked for gives one that a store takes, within the maximum. -/
theorem exists_pageSize {settings : Document} {field : String} {h : LimitHandler} (hs : Listed settings field)
    (hi : LimitHandler.init ((Table.get? settings "default_page_size").getD (.int 10))
      (Value.entry settings "max_items") = .ok h) (v : Value) :
    ∃ s : Nat, h.pageSize v = .int s ∧ 1 ≤ s ∧ (s : Int) ≤ Number.greatest ∧
      ∀ m, Value.entry settings "max_items" = .int m → (s : Int) ≤ m := by
  obtain ⟨d, hdefault, hpos, hle⟩ := hs.defaultSize
  rw [hdefault, LimitHandler.init, positive_int hpos] at hi
  rcases hs.maxItems with hnull | ⟨m, hm, hmpos⟩
  · rw [hnull] at hi ⊢
    cases hi
    obtain ⟨n, hn, hnpos, hnle⟩ := requestedSize_int (h := ⟨.int d, none, .fresh, none⟩) rfl hpos hle v
    have hnat : (n.toNat : Int) = n := by omega
    refine ⟨n.toNat, ?_, by omega, by omega, fun m hm => by cases hm⟩
    rw [pageSize_eq, hn, hnat]
  · rw [hm] at hi ⊢
    simp only [bind, Except.bind, positive_int hmpos] at hi
    cases hi
    obtain ⟨n, hn, hnpos, hnle⟩ :=
      requestedSize_int (h := ⟨.int d, some (.int m), .fresh, none⟩) rfl hpos hle v
    have hnat : ((min n m).toNat : Int) = min n m := by omega
    refine ⟨(min n m).toNat, ?_, by omega, by omega, ?_⟩
    · rw [pageSize_eq, hn, hnat]
      exact Amount.min_int_int m n
    · rintro m' hm'
      cases hm'
      omega

/-! ## Pages of a listing -/

open CompiledQuery (facetStage)

/-- The answer to a query object: a pipeline takes it, and a page of what it is compiled to is asked of a
store in which the given documents reach the last stage. -/
def pageOf (p : Pipeline) (q : Document) (collection : String) (docs : List Value) (s : Store) :
    Except Error CountedPage.Result :=
  let r := p.query q
  r.answer.bind fun _ => (r.state.countedPage (some collection)).bind fun c =>
    (c.page (expecting (answerTo docs c.pipeline) s)).answer

/-- A query object asks for a page of a listing: it differs from the one of the listing in its page and
has the page size of the listing. -/
structure Request (q : Document) (size : Value) (k : Nat) (r : Document) : Prop where
  page : Asks k (Value.entry r "page")
  pageSize : Value.entry r "pageSize" = size
  rest : ∀ key, key ≠ "page" → key ≠ "pageSize" → Table.get? r key = Table.get? q key

variable {settings : Value} {p : Pipeline} {q r : Document} {field : String}

theorem countedPage_of_accepted (hp : Pipeline.init settings = .ok p) (hq : (p.query q).answer = .ok ())
    (collection : Option String) : ∃ front, (p.query q).state.countedPage collection =
      .ok (.init (front ++ [facetStage (CompiledQuery.skipped p q).toValue
          (CompiledQuery.pageSize p q).toValue (CompiledQuery.countField (settingsTable settings))])
        collection (.text "data") (.text "count") (CompiledQuery.countField (settingsTable settings))) := by
  obtain ⟨user, forced, -, -, hstages⟩ := CompiledQuery.documents_of_accepted hp hq
  obtain ⟨text, es, spec, -, -, -, hstate⟩ := ((Pipeline.untouched_of_init hp).query q).of_ok hq
  have hfield : (p.query q).state.count.field = CompiledQuery.countField (settingsTable settings) := by
    have hcount := (Pipeline.init_eq_ok hp).2.2.2.2
    rw [hstate]
    change p.count.field = _
    rw [hcount]
    rfl
  obtain ⟨stages, hok, hmap⟩ := map_eq_ok_iff.mp hstages
  rw [Pipeline.countedPage, hok, Except.map, hfield, hmap]
  exact ⟨_, rfl⟩

theorem accepted_of_request (hp : Pipeline.init settings = .ok p) (hs : Listed (settingsTable settings) field)
    (hq : (p.query q).answer = .ok ()) {size : Value} {k : Nat} (hr : Request q size k r) :
    (p.query r).answer = .ok () := by
  have h := Pipeline.untouched_of_init hp
  have hkq : Pipeline.unknownKeys q = [] := Pipeline.known_of_accepted hq
  have hkr : Pipeline.unknownKeys r = [] := by
    rw [Pipeline.unknownKeys_eq_nil_iff] at hkq ⊢
    intro key hm
    by_cases hpage : key = "page"
    · simp [hpage, Pipeline.vocabulary]
    by_cases hsize : key = "pageSize"
    · simp [hsize, Pipeline.vocabulary]
    rw [← Table.get?_isSome_iff, hr.rest key hpage hsize, Table.get?_isSome_iff] at hm
    exact hkq key hm
  have hlimit : p.settings.isEnabled "limit" = true := by
    rw [Pipeline.isEnabled_of_init hp (by simp)]
    exact hs.limitOn
  rw [h.answer_query hkq] at hq
  rw [h.answer_query hkr, ← hq]
  apply Settings.readParts_congr hlimit
  intro part hpart
  apply Value.entry_congr
  apply hr.rest <;> rintro rfl <;> simp at hpart

/-- One page of a listing, whatever the store is asked for it. -/
theorem pageOf_request (hp : Pipeline.init settings = .ok p) (hs : Listed (settingsTable settings) field)
    (hq : (p.query q).answer = .ok ()) {size : Value} {s : Nat} (hsize : p.limit.pageSize size = .int s)
    (hpos : 1 ≤ s) (hle : (s : Int) ≤ Number.greatest) {k : Nat} (hr : Request q size k r)
    (collection : String) (docs : List Value) (store : Store) :
    pageOf p r collection docs store =
      .ok ⟨(docs.drop (shownPage k s * s)).take s, .int docs.length⟩ := by
  have haccepted := accepted_of_request hp hs hq hr
  have hlimit : CompiledQuery.pageSize p r = .int s := by rw [CompiledQuery.pageSize, hr.pageSize, hsize]
  have hskip : CompiledQuery.skipped p r = .int ((shownPage k s * s : Nat) : Int) := by
    rw [CompiledQuery.skipped, hlimit, pageNumber_of_asks hr.page hpos, Amount.times_int, Int.natCast_mul]
  obtain ⟨front, hpage⟩ := countedPage_of_accepted hp haccepted (some collection)
  rw [pageOf, haccepted, hpage, hs.countField, hlimit, hskip]
  exact answer_page (answerTo_facet (shownPage_mul_le k s) hpos hle) store

/-- The slices of a size, one after the other, are the documents up to where the last one ends. -/
theorem flatMap_slices (docs : List Value) (s count : Nat) :
    (List.range count).flatMap (fun k => (docs.drop (k * s)).take s) = docs.take (count * s) := by
  induction count with
  | zero => simp
  | succ count ih =>
    rw [List.range_succ, List.flatMap_append, ih, Nat.succ_mul, List.take_add]
    simp

theorem mapM_of_forall_ok {α β : Type} {f : α → Except Error β} {g : α → β} {xs : List α}
    (h : ∀ x ∈ xs, f x = .ok (g x)) : xs.mapM f = .ok (xs.map g) := by
  induction xs with
  | nil => rfl
  | cons x r ih =>
    have hx := h x List.mem_cons_self
    have hr := ih fun y hy => h y (List.mem_cons_of_mem _ hy)
    rw [List.mapM_cons, hx, hr]
    rfl

/-- The number of pages that have documents. -/
def pageCount (n s : Nat) : Nat := (n + s - 1) / s

theorem le_pageCount_mul {n s : Nat} (hs : 1 ≤ s) : n ≤ pageCount n s * s := by
  have hdiv := Nat.div_add_mod (n + s - 1) s
  have hmod := Nat.mod_lt (n + s - 1) hs
  unfold pageCount
  rw [Nat.mul_comm]
  omega

theorem mul_lt_of_lt_pageCount {n s k : Nat} (hs : 1 ≤ s) (h : k < pageCount n s) : k * s < n := by
  have hle : (k + 1) * s ≤ n + s - 1 := (Nat.le_div_iff_mul_le hs).mp h
  rw [Nat.succ_mul] at hle
  omega

/-- The pages of a listing are consecutive slices of one size, within the maximum, with the number of all
documents as their total. Up to the last page with documents they are the documents, one after the other. -/
theorem pages_slice_documents (hp : Pipeline.init settings = .ok p)
    (hs : Listed (settingsTable settings) field) (hq : (p.query q).answer = .ok ()) (size : Value) :
    ∃ s : Nat, 1 ≤ s ∧ (∀ m, Value.entry (settingsTable settings) "max_items" = .int m → (s : Int) ≤ m) ∧
      ∀ (docs : List Value) (request : Nat → Document) (collection : String) (store : Nat → Store),
        (docs.length : Int) ≤ Number.greatest → (∀ k, Request q size k (request k)) →
        (∀ k, ((k * s : Nat) : Int) ≤ Number.greatest → pageOf p (request k) collection docs (store k) =
          .ok ⟨(docs.drop (k * s)).take s, .int docs.length⟩) ∧
        (∀ k, pageCount docs.length s ≤ k → ((k * s : Nat) : Int) ≤ Number.greatest →
          pageOf p (request k) collection docs (store k) = .ok ⟨[], .int docs.length⟩) ∧
        (∀ k, ∃ data, pageOf p (request k) collection docs (store k) = .ok ⟨data, .int docs.length⟩) ∧
        ∃ pages, (List.range (pageCount docs.length s)).mapM
            (fun k => pageOf p (request k) collection docs (store k)) = .ok pages ∧
          pages.flatMap CountedPage.Result.data = docs := by
  obtain ⟨s, hsize, hpos, hle, hmost⟩ := exists_pageSize hs (Pipeline.init_eq_ok hp).2.2.2.1 size
  refine ⟨s, hpos, hmost, fun docs request collection store hdocs hrequest => ?_⟩
  have hpage (k : Nat) := pageOf_request hp hs hq hsize hpos hle (hrequest k) collection docs (store k)
  have hslice (k : Nat) (hk : ((k * s : Nat) : Int) ≤ Number.greatest) :
      pageOf p (request k) collection docs (store k) =
        .ok ⟨(docs.drop (k * s)).take s, .int docs.length⟩ := by
    rw [hpage, shownPage_of_le hk]
  refine ⟨hslice, fun k hlast hk => ?_, fun k => ⟨_, hpage k⟩, ?_⟩
  -- Behind the last page with documents nothing is left to drop.
  · have hend : docs.length ≤ k * s :=
      Nat.le_trans (le_pageCount_mul hpos) (Nat.mul_le_mul_right s hlast)
    rw [hslice k hk, List.drop_eq_nil_of_le hend, List.take_nil]
  · have hall : ∀ k ∈ List.range (pageCount docs.length s),
        pageOf p (request k) collection docs (store k) =
          .ok ⟨(docs.drop (k * s)).take s, .int docs.length⟩ := by
      intro k hk
      have hlt : k * s < docs.length := mul_lt_of_lt_pageCount hpos (List.mem_range.mp hk)
      exact hslice k (by omega)
    refine ⟨_, mapM_of_forall_ok hall, ?_⟩
    rw [List.flatMap_map, flatMap_slices, List.take_of_length_le (le_pageCount_mul hpos)]

def cappedSettings : Document := [("max_items", .int 3), ("count_field", .text "hits")]

/-- The query object of a listing without its page, and with one. -/
def phones : Document := [("search", .text "phone")]
def phonesPage (k : Nat) : Document :=
  [("page", .text (String.ofList (decimalDigits k))), ("search", .text "phone"), ("pageSize", .text "5")]

theorem listed_cappedSettings : Listed cappedSettings "hits" where
  limitOn := by decide
  defaultSize := ⟨10, rfl, by decide, by decide⟩
  maxItems := Or.inr ⟨3, rfl, by decide⟩
  countField := rfl

theorem request_phonesPage (k : Nat) : Request phones (.text "5") k (phonesPage k) where
  page := .text
  pageSize := rfl
  rest := by
    intro key hpage hsize
    simp [phones, phonesPage, Table.get?, hpage.symm, hsize.symm]

def stock : List Value := (List.range 7).map fun n => .single "_id" (.int (n : Nat))

theorem pages_slice_documents_capped : ∃ p, Pipeline.init (.document cappedSettings) = .ok p ∧
    ∃ s : Nat, 1 ≤ s ∧ s ≤ 3 ∧
      pageOf p (phonesPage 1) "shop.products" stock Store.empty = .ok ⟨(stock.drop s).take s, .int 7⟩ ∧
      ∃ pages, (List.range (pageCount 7 s)).mapM
          (fun k => pageOf p (phonesPage k) "shop.products" stock Store.empty) = .ok pages ∧
        pages.flatMap CountedPage.Result.data = stock := by
  obtain ⟨p, hp, hq⟩ : ∃ p, Pipeline.init (.document cappedSettings) = .ok p ∧
      (p.query phones).answer = .ok () := Pipeline.exists_of_accepts (by decide +kernel)
  obtain ⟨s, hpos, hmost, hpages⟩ := pages_slice_documents hp listed_cappedSettings hq (.text "5")
  have hmost : (s : Int) ≤ 3 := hmost 3 rfl
  obtain ⟨hslice, -, -, hall⟩ := hpages stock phonesPage "shop.products" (fun _ => Store.empty) (by decide)
    request_phonesPage
  have hsecond : ((1 * s : Nat) : Int) ≤ Number.greatest := by
    unfold Number.greatest
    omega
  have hpage := hslice 1 hsecond
  rw [Nat.one_mul] at hpage
  exact ⟨p, hp, s, hpos, by omega, hpage, hall⟩

end GridQuery.PageSlices

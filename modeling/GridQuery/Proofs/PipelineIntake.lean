import GridQuery.Query.Pipeline

/-! # What a query object does to a pipeline

A pipeline is untouched until a handler gets its input, and spent from then on. An untouched pipeline
either keeps its state or is spent by a query; a spent one refuses every query and keeps its state. Only
an accepted query opens the window that the last stage needs. -/
namespace GridQuery

/-- The table that a value of settings stands for. -/
def settingsTable (settings : Value) : Document := settings.fields?.getD []

namespace Pipeline

structure Untouched (p : Pipeline) : Prop where
  search : p.search.intake = .fresh
  filter : p.filter.intake = .fresh
  expressions : p.filter.expressions = none
  sort : p.sort = .init
  limit : p.limit.intake = .fresh
  window : p.limit.window = none
  count : p.count.intake = .fresh

/-- The first of the handlers has had its input. -/
def Spent (p : Pipeline) : Prop := p.search.intake.received = true

variable {p : Pipeline}

theorem Untouched.received_eq_nil (h : p.Untouched) : p.received = [] := by
  simp [received, h.search, h.filter, h.sort, SortHandler.init, h.limit, h.count, Intake.fresh]

theorem Spent.received_ne_nil (h : p.Spent) : p.received ≠ [] := by
  have h : p.search.intake.received = true := h
  simp [received, h]

theorem table_of_settings {settings : Value} {s : Settings}
    (h : Settings.ofValue (if settings.truthy then settings else .document []) = .ok s) :
    s.table = settingsTable settings := by
  by_cases ht : settings.truthy = true
  · rw [if_pos ht] at h
    cases settings <;> cases h
    rfl
  · rw [if_neg ht] at h
    cases h
    cases settings <;> simp_all [settingsTable, Value.fields?, Value.truthy]

/-- A part of a query object is refused by its switch, or goes to its handler. -/
theorem give_ensures {part : String} {q : Document} {handler : Pipeline → Value → Reply Pipeline Unit}
    {P E : Pipeline → Prop} (h : (handler p (Value.entry q part)).Ensures P E) (he : E p) :
    (give part q handler p).Ensures P E := by
  unfold give
  dsimp only
  split
  · exact h
  · split
    · exact he
    · exact h

theorem give_of_null {part : String} {q : Document} {handler : Pipeline → Value → Reply Pipeline Unit}
    (h : Value.entry q part = .null) : give part q handler p = handler p .null := by
  simp [give, h, Value.isNull]

theorem entry_count_packDocument {q : Document} (h : unknownKeys q = []) :
    Value.entry (LimitHandler.packDocument q) "count" = .null := by
  rw [LimitHandler.entry_packDocument_of_ne (by decide) (by decide) (by decide), Value.entry,
    get?_of_known h (by decide)]
  rfl

variable [Stack]

theorem init_eq_ok {settings : Value} (h : init settings = .ok p) :
    p.search = .init (Value.entry (settingsTable settings) "search_index") ∧
    FilterHandler.init (Value.entry (settingsTable settings) "force_filter") = .ok p.filter ∧
    p.sort = .init ∧
    LimitHandler.init ((Table.get? (settingsTable settings) "default_page_size").getD (.int 10))
      (Value.entry (settingsTable settings) "max_items") = .ok p.limit ∧
    p.count = .init ((Table.get? (settingsTable settings) "count_field").getD (.text "total")) := by
  simp only [init, bind_eq_ok_iff] at h
  obtain ⟨s, hs, filter, hfilter, limit, hlimit, -, -, h⟩ := h
  have htable : s.table = settingsTable settings := table_of_settings hs
  cases h
  simp [Settings.route, Settings.supply, Signature.pluck, Signature.defaults, HandlerKind.signature,
    List.filterMap_cons, Parameter.setting?, Parameter.required, Parameter.optional, Value.entry, Table.get?,
    htable] at hfilter hlimit ⊢
  exact ⟨hfilter, hlimit⟩

theorem untouched_of_init {settings : Value} (h : init settings = .ok p) : p.Untouched := by
  obtain ⟨hsearch, hfilter, hsort, hlimit, hcount⟩ := init_eq_ok h
  obtain ⟨forced, -, hfilter⟩ := map_eq_ok_iff.mp hfilter
  exact {
    search := by rw [hsearch]; rfl
    filter := by rw [← hfilter]
    expressions := by rw [← hfilter]
    sort := hsort
    limit := (LimitHandler.init_fresh hlimit).1
    window := (LimitHandler.init_fresh hlimit).2
    count := by rw [hcount]; rfl }

def accepts (settings : Value) (q : Document) : Bool :=
  ((init settings).bind fun p => (p.query q).answer).isOk

theorem exists_of_accepts {settings : Value} {q : Document} (h : accepts settings q = true) :
    ∃ p, init settings = .ok p ∧ (p.query q).answer = .ok () := by
  obtain ⟨a, ha⟩ := exists_of_isOk h
  exact bind_eq_ok_iff.mp ha

/-- A query is refused with the state as it was, or its packed parts are given to the handlers. -/
theorem query_ensures {q : Document} {P E : Pipeline → Prop}
    (h : unknownKeys q = [] → (p.giveAll (LimitHandler.packDocument q)).Ensures P E) (he : E p) :
    (p.query q).Ensures P E := by
  unfold query
  split
  · exact he
  · split
    case h_1 hk => exact h hk
    case h_2 => exact he

theorem known_of_accepted {q : Document} (h : (p.query q).answer = .ok ()) : unknownKeys q = [] := by
  have hq : (p.query q).Ensures (fun _ => unknownKeys q = []) (fun _ => True) :=
    query_ensures (fun hk => Reply.ensures_of_forall (fun _ => hk) (fun _ => trivial)) trivial
  exact hq.of_ok h

theorem query_of_known {q : Document} (h : unknownKeys q = []) :
    p.query q = p.giveAll (LimitHandler.packDocument q) := by
  have hr : Table.contains q reservedKey = false := by
    rw [Table.contains, get?_of_known h (by decide)]
    rfl
  simp [query, hr, h]

theorem giveAll_congr {q q' : Document} (h : ∀ part ∈ ["search", "filter", "sort", "limit", "count"],
    Value.entry q' part = Value.entry q part) : p.giveAll q' = p.giveAll q := by
  have hgive (part : String) (hp : part ∈ ["search", "filter", "sort", "limit", "count"])
      (handler : Pipeline → Value → Reply Pipeline Unit) (s : Pipeline) :
      give part q' handler s = give part q handler s := by
    simp only [give, h part hp]
  simp [giveAll, hgive]

theorem Spent.query (h : p.Spent) (q : Document) : ∃ e, p.query q = ⟨.error e, p⟩ := by
  have hsearch (v : Value) : p.inputSearch v = ⟨.error (.inputReused SearchHandler.handlerName), p⟩ := by
    rw [inputSearch, SearchHandler.input_of_received h]
    rfl
  have hq : (p.query q).Ensures (fun _ => False) (fun s => s = p) := by
    refine query_ensures (fun _ => ?_) rfl
    refine Reply.Ensures.andThen (P := fun _ => False) (give_ensures ?_ rfl) (fun _ _ h => h.elim)
    rw [hsearch]
    rfl
  cases hr : p.query q with
  | mk answer s =>
    rw [hr] at hq
    cases answer with
    | ok a => exact hq.elim
    | error e => exact ⟨e, by rw [show s = p from hq]⟩

/-- The state after a query object was accepted, with what its parts were read as. -/
def taken (p : Pipeline) (q : Document) (text : Option String) (es : List Expression) (spec : SortSpec) :
    Pipeline :=
  let size := p.limit.pageSize (Value.entry q "pageSize")
  { p with
    search := { p.search with intake := ⟨true, Value.entry q "search"⟩, text := text }
    filter := { p.filter with
      intake := ⟨true, Value.entry q "filter"⟩
      expressions := some (es ++ p.filter.forced.expressions) }
    sort := ⟨⟨true, Value.entry q "sort"⟩, some spec⟩
    limit := { p.limit with
      intake := ⟨true, .tuple [Value.entry q "page", Value.entry q "pageSize"]⟩
      window := some (LimitHandler.pageNumber (Value.entry q "page") size, size) }
    count := { p.count with intake := ⟨true, .null⟩ } }

/-- The parts of a query object were read, and the state is the one that they lead to. -/
def Takes (p : Pipeline) (q : Document) (s : Pipeline) : Prop :=
  ∃ text es spec, SearchHandler.read (Value.entry q "search") = .ok text ∧
    Expression.ofFilter (Value.entry q "filter") = .ok es ∧
    SortSpec.ofValue (Value.entry q "sort") = .ok spec ∧ s = p.taken q text es spec

/-- A pipeline that can neither be compiled nor take another query object. -/
def Closed (p : Pipeline) : Prop := p.Spent ∧ p.limit.window = none

omit [Stack] in
theorem Untouched.inputSearch (h : p.Untouched) (v : Value) : (p.inputSearch v).Ensures
    (fun s => ∃ text, SearchHandler.read v = .ok text ∧
      s = { p with search := { p.search with intake := ⟨true, v⟩, text := text } }) Closed := by
  refine Reply.ensures_within.mpr ((p.search.input_ensures v).mono ?_ ?_)
  · rintro k ⟨-, text, ht, rfl⟩
    exact ⟨text, ht, rfl⟩
  · rintro k (⟨hr, -⟩ | ⟨-, rfl⟩)
    · simp [h.search, Intake.fresh] at hr
    · exact ⟨rfl, h.window⟩

theorem Closed.inputFilter (h : p.Closed) (v : Value) : (p.inputFilter v).Ensures
    (fun s => ∃ es, Expression.ofFilter v = .ok es ∧
      s = { p with filter := { p.filter with
        intake := ⟨true, v⟩
        expressions := some (es ++ p.filter.forced.expressions) } }) Closed := by
  refine Reply.ensures_within.mpr ((p.filter.input_ensures v).mono ?_ fun k _ => h)
  rintro k ⟨-, es, he, rfl⟩
  exact ⟨es, he, rfl⟩

omit [Stack] in
theorem Closed.inputSort (h : p.Closed) (v : Value) : (p.inputSort v).Ensures
    (fun s => ∃ spec, SortSpec.ofValue v = .ok spec ∧
      s = { p with sort := ⟨⟨true, v⟩, some spec⟩ }) Closed := by
  refine Reply.ensures_within.mpr ((p.sort.input_ensures v).mono ?_ fun k _ => h)
  rintro k ⟨-, spec, hs, rfl⟩
  exact ⟨spec, hs, rfl⟩

omit [Stack] in
theorem inputLimit_packDocument (hr : p.limit.intake.received = false) {q : Document}
    (hl : Table.get? q "limit" = none) (E : Pipeline → Prop) :
    (p.inputLimit (Value.entry (LimitHandler.packDocument q) "limit")).Ensures
      (fun s => s = { p with limit := { p.limit with
        intake := ⟨true, .tuple [Value.entry q "page", Value.entry q "pageSize"]⟩
        window := some (
          LimitHandler.pageNumber (Value.entry q "page") (p.limit.pageSize (Value.entry q "pageSize")),
          p.limit.pageSize (Value.entry q "pageSize")) } }) E := by
  rw [inputLimit, LimitHandler.input_packDocument hr hl, LimitHandler.accept_of_fresh hr]
  rfl

omit [Stack] in
theorem inputCount_of_fresh (hr : p.count.intake.received = false) (v : Value) (E : Pipeline → Prop) :
    (p.inputCount v).Ensures (fun s => s = { p with count := { p.count with intake := ⟨true, v⟩ } }) E := by
  refine Reply.ensures_within.mpr ((p.count.input_ensures v).mono ?_ ?_)
  · rintro k ⟨-, rfl⟩
    rfl
  · rintro k ⟨hreceived, -⟩
    rw [hr] at hreceived
    cases hreceived

/-- A query leaves an untouched pipeline as it is, or spends it; the window opens only on success. -/
theorem Untouched.query (h : p.Untouched) (q : Document) :
    (p.query q).Ensures (p.Takes q) (fun s => s = p ∨ s.Closed) := by
  refine query_ensures (fun hk => ?_) (Or.inl rfl)
  have hsearch : Value.entry (LimitHandler.packDocument q) "search" = Value.entry q "search" :=
    LimitHandler.entry_packDocument_of_ne (by decide) (by decide) (by decide)
  have hfilter : Value.entry (LimitHandler.packDocument q) "filter" = Value.entry q "filter" :=
    LimitHandler.entry_packDocument_of_ne (by decide) (by decide) (by decide)
  have hsort : Value.entry (LimitHandler.packDocument q) "sort" = Value.entry q "sort" :=
    LimitHandler.entry_packDocument_of_ne (by decide) (by decide) (by decide)
  have hlimit : p.limit.intake.received = false := by rw [h.limit]; rfl
  have hcount : p.count.intake.received = false := by rw [h.count]; rfl
  have hfirst : (p.inputSearch (Value.entry (LimitHandler.packDocument q) "search")).Ensures _
      (fun s => s = p ∨ s.Closed) := (h.inputSearch _).mono (fun _ hs => hs) fun _ => Or.inr
  refine (give_ensures hfirst (Or.inl rfl)).andThen ?_
  rintro s - ⟨text, ht, rfl⟩
  -- From here on the search has had its input: an error of any later handler closes.
  have hclosed (filter : FilterHandler) (sort : SortHandler) : Closed { p with
      search := { p.search with
        intake := ⟨true, Value.entry (LimitHandler.packDocument q) "search"⟩, text := text }
      filter := filter
      sort := sort } := ⟨rfl, h.window⟩
  refine Reply.Ensures.mono (P := p.Takes q) (E := Closed) ?_ (fun _ hs => hs) fun _ => Or.inr
  refine (give_ensures ((hclosed _ _).inputFilter _) (hclosed _ _)).andThen ?_
  rintro s - ⟨es, he, rfl⟩
  refine (give_ensures ((hclosed _ _).inputSort _) (hclosed _ _)).andThen ?_
  rintro s - ⟨spec, hs, rfl⟩
  refine (give_ensures (inputLimit_packDocument ?_ (get?_of_known hk (by decide)) _) (hclosed _ _)).andThen ?_
  · exact hlimit
  rintro s - rfl
  rw [give_of_null (entry_count_packDocument hk)]
  refine (inputCount_of_fresh ?_ .null Closed).mono ?_ fun _ hs => hs
  · exact hcount
  rintro s rfl
  rw [hsearch] at ht
  rw [hfilter] at he
  rw [hsort] at hs
  refine ⟨text, es, spec, ht, he, hs, ?_⟩
  rw [hsearch, hfilter, hsort]
  rfl

theorem Takes.spent {q : Document} {s : Pipeline} (h : p.Takes q s) : s.Spent := by
  obtain ⟨text, es, spec, -, -, -, rfl⟩ := h
  rfl

end Pipeline
end GridQuery

import GridQuery.Proofs.PipelineIntake

/-! # The pipeline that an accepted query object is compiled to

The stages are written down as documents, from the settings and the query object alone. Compilation gives
exactly these, in this order; the page and its size are seen in the last stage only. -/
namespace GridQuery.CompiledQuery
open Text

/-- The condition that a descriptor stands for. A missing value is the empty text. -/
def fragment? [Stack] : Value → Option Value
  | .document d =>
    match Value.entry d "field", Value.entry d "operator" with
    | .text field, .text operator =>
      if field = "" then none
      else (compileFragment field (.text operator) ((Table.get? d "value").getD (.text ""))).toOption
    | _, _ => none
  | _ => none

/-- The conditions of a list of descriptors, one for each; what is no list holds none. -/
def conditions? [Stack] (v : Value) : Option (List Value) := (v.items?.getD []).mapM fragment?

/-- The conditions that the settings add to every filter. A document is a condition of its own. -/
def forcedConditions? [Stack] (settings : Document) : Option (List Value) :=
  match Value.entry settings "force_filter" with
  | .document criteria => some [.document criteria]
  | v => conditions? v

def searchStages (search index : Value) : List Value :=
  match search with
  | .text s =>
    if s.toList.any fun c => !isBlank c then
      let text : Value := .document [("query", .text s), ("path", .document [("wildcard", .text "*")])]
      [.document [("$search", .document
        (if index.truthy then [("text", text), ("index", index)] else [("text", text)]))]]
    else []
  | _ => []

def matchStage (conditions : List Value) : Value :=
  .document [("$match", .document [("$and", .array conditions)])]

def matchStages (conditions : List Value) : List Value :=
  if conditions = [] then [] else [matchStage conditions]

/-- The field of a clause with its direction: 1 if the next word is `asc`, else -1. -/
def clausePair? (clause : List Char) : Option (String × Value) :=
  match words clause with
  | [] => none
  | field :: rest => some (String.ofList field, .int (if rest.head? = some ['a', 's', 'c'] then 1 else -1))

def clauses (s : String) : List (List Char) := splitAt ',' s.toList

def sortStages : Value → List Value
  | .text s =>
    if (clauses s).any fun clause => clause.any fun c => !isBlank c then
      [.document [("$sort", .document (Table.putAll [] ((clauses s).filterMap clausePair?)))]]
    else []
  | _ => []

def facetStage (skip limit countField : Value) : Value :=
  .document [("$facet", .document [
    ("data", .array [.document [("$skip", skip)], .document [("$limit", limit)]]),
    ("count", .array [.document [("$count", countField)]])])]

def countField (settings : Document) : Value := (Table.get? settings "count_field").getD (.text "total")

/-! ## Search and sort -/

theorem stages_search {h : SearchHandler} {v : Value} (hr : SearchHandler.read v = .ok h.text) :
    h.stages.map Stage.toValue = searchStages v h.index := by
  cases v <;> simp [SearchHandler.read] at hr
  case null => simp [SearchHandler.stages, ← hr, searchStages]
  case text s =>
    have hb : (s.toList.any fun c => !isBlank c) = !isBlankText s.toList := by
      simp [isBlankText, List.not_all_eq_any_not]
    cases hblank : isBlankText s.toList <;>
      simp [SearchHandler.stages, ← hr, searchStages, hb, hblank, Stage.toValue, Stage.searchStatement,
        Value.single]

theorem toDocument_addClause {spec spec' : SortSpec} {clause : List Char}
    (h : SortSpec.addClause spec clause = .ok spec') :
    spec'.toDocument = Table.putAll spec.toDocument (clausePair? clause).toList := by
  unfold SortSpec.addClause at h
  unfold clausePair?
  split at h
  case h_1 hw =>
    cases h
    rw [hw]
    rfl
  case h_2 field hw =>
    cases h
    rw [hw]
    exact Table.map_put (fun d : Direction => Value.int d.toInt) spec _ .descending
  case h_3 field word hw =>
    cases h
    rw [hw]
    have hd : (SortSpec.directionOf word).toInt = if word = ['a', 's', 'c'] then 1 else -1 := by
      unfold SortSpec.directionOf
      split <;> rfl
    have hput := Table.map_put (fun d : Direction => Value.int d.toInt) spec (String.ofList field)
      (SortSpec.directionOf word)
    rw [hd] at hput
    simpa [SortSpec.toDocument, Table.putAll] using hput
  case h_4 => cases h

theorem toDocument_addClauses {spec spec' : SortSpec} {cs : List (List Char)}
    (h : SortSpec.addClauses spec cs = .ok spec') :
    spec'.toDocument = Table.putAll spec.toDocument (cs.filterMap clausePair?) := by
  induction cs generalizing spec with
  | nil =>
    cases h
    rfl
  | cons c cs ih =>
    obtain ⟨mid, hc, hr⟩ := bind_eq_ok_iff.mp h
    rw [ih hr, toDocument_addClause hc]
    cases he : clausePair? c <;> simp [he, Table.putAll]

theorem clausePair?_eq_none_iff {clause : List Char} :
    clausePair? clause = none ↔ isBlankText clause = true := by
  rw [← words_eq_nil_iff]
  unfold clausePair?
  cases words clause <;> simp

theorem entries_eq_nil_iff {s : String} : (clauses s).filterMap clausePair? = [] ↔
    ((clauses s).any fun clause => clause.any fun c => !isBlank c) = false := by
  simp [List.filterMap_eq_nil_iff, clausePair?_eq_none_iff, isBlankText]

theorem ofValue_text (s : String) : SortSpec.ofValue (.text s) = SortSpec.addClauses [] (clauses s) := by
  by_cases hs : s = ""
  · subst hs
    simp [SortSpec.ofValue, Value.truthy, clauses, splitAt, SortSpec.addClauses, SortSpec.addClause, words,
      bind, Except.bind]
  · have ht : (Value.text s).truthy = true := by simp [Value.truthy, hs]
    rw [SortSpec.ofValue, if_pos ht]
    rfl

/-- Only a text can give a specification with fields. -/
theorem ofValue_eq_nil {v : Value} {spec : SortSpec} (h : SortSpec.ofValue v = .ok spec)
    (hv : ∀ s, v ≠ .text s) : spec = [] := by
  unfold SortSpec.ofValue at h
  split at h
  · split at h
    · exact absurd rfl (hv _)
    · cases h
  · cases h
    rfl

theorem stages_sort {h : SortHandler} {v : Value} {spec : SortSpec} (hr : SortSpec.ofValue v = .ok spec)
    (hs : h.spec = some spec) : h.stages.map Stage.toValue = sortStages v := by
  by_cases hv : ∃ s, v = .text s
  · obtain ⟨s, rfl⟩ := hv
    rw [ofValue_text] at hr
    have hdoc : spec.toDocument = Table.putAll [] ((clauses s).filterMap clausePair?) :=
      toDocument_addClauses hr
    have hnil : spec = [] ↔ (clauses s).filterMap clausePair? = [] := by
      rw [← List.map_eq_nil_iff (f := fun e : String × Direction => (e.1, Value.int e.2.toInt))]
      change spec.toDocument = [] ↔ _
      rw [hdoc, Table.putAll_eq_nil_iff]
      simp
    rw [sortStages, ← hdoc]
    cases spec with
    | nil =>
      rw [if_neg (by simp [entries_eq_nil_iff.mp (hnil.mp rfl)])]
      simp [SortHandler.stages, hs]
    | cons e spec =>
      have hany : ((clauses s).any fun clause => clause.any fun c => !isBlank c) = true := by
        rw [← Bool.not_eq_false, ← entries_eq_nil_iff, ← hnil]
        simp
      rw [if_pos hany]
      simp [SortHandler.stages, hs, Stage.toValue, Value.single]
  · have hv : ∀ s, v ≠ .text s := by simpa using hv
    rw [ofValue_eq_nil hr hv] at hs
    have hstages : sortStages v = [] := by
      cases v with
      | text s => exact absurd rfl (hv s)
      | _ => rfl
    rw [hstages]
    simp [SortHandler.stages, hs]

/-! ## Conditions -/

section
variable [Stack]

theorem fragment?_of_descriptor {index : Nat} {d : Value} {e : Expression}
    (h : Expression.ofDescriptor index d = .ok e) : fragment? d = some e.toValue := by
  obtain ⟨fields, field, operator, o, c, rfl, hf, hne, ho, hop, hc, rfl⟩ := Expression.ofDescriptor_eq_ok h
  simp [fragment?, hf, ho, hne, compileFragment, hop, hc, bind, Except.bind, pure, Except.pure,
    Except.toOption, Expression.toValue]

theorem mapM_fragment? {index : Nat} {items : List Value} {es : List Expression}
    (h : Expression.ofDescriptors index items = .ok es) :
    items.mapM fragment? = some (es.map Expression.toValue) := by
  induction items generalizing index es with
  | nil =>
    cases h
    rfl
  | cons d r ih =>
    obtain ⟨e, he, h⟩ := bind_eq_ok_iff.mp h
    obtain ⟨rest, hr, h⟩ := bind_eq_ok_iff.mp h
    cases h
    simp [List.mapM_cons, fragment?_of_descriptor he, ih hr]

theorem conditions?_of_filter {v : Value} {es : List Expression} (h : Expression.ofFilter v = .ok es) :
    conditions? v = some (es.map Expression.toValue) := by
  unfold Expression.ofFilter at h
  split at h
  · split at h
    case h_1 items hi =>
      rw [conditions?, hi]
      exact mapM_fragment? h
    case h_2 => cases h
  · rename_i ht
    cases h
    -- What counts as absent has no items, or none in its list.
    have hitems : v.items?.getD [] = [] := by
      cases v <;> simp_all [Value.items?, Value.truthy]
    rw [conditions?, hitems]
    rfl

theorem forcedConditions?_of_init {settings : Document} {h : FilterHandler}
    (hi : FilterHandler.init (Value.entry settings "force_filter") = .ok h) :
    forcedConditions? settings = some (h.forced.expressions.map Expression.toValue) := by
  obtain ⟨forced, hforced, rfl⟩ := map_eq_ok_iff.mp hi
  dsimp only
  unfold forcedConditions?
  cases hv : Value.entry settings "force_filter" <;> rw [hv] at hforced
  case null => cases hforced; rfl
  case document criteria => cases hforced; rfl
  case array items =>
    obtain ⟨es, hes, rfl⟩ := map_eq_ok_iff.mp hforced
    exact mapM_fragment? hes
  case tuple items =>
    obtain ⟨es, hes, rfl⟩ := map_eq_ok_iff.mp hforced
    exact mapM_fragment? hes
  all_goals cases hforced

omit [Stack] in
theorem stages_filter {h : FilterHandler} {es : List Expression} (he : h.expressions = some es) :
    h.stages.map Stage.toValue = matchStages (es.map Expression.toValue) := by
  cases es <;> simp [FilterHandler.stages, he, matchStages, matchStage, Stage.toValue, Stage.filterStatement,
    Value.single]

/-! ## The whole pipeline -/

variable {settings : Value} {p : Pipeline} {q : Document}

def pageSize (p : Pipeline) (q : Document) : Amount := p.limit.pageSize (Value.entry q "pageSize")

/-- The number of documents in front of the page. -/
def skipped (p : Pipeline) (q : Document) : Amount :=
  Amount.times (LimitHandler.pageNumber (Value.entry q "page") (pageSize p q)) (pageSize p q)

def documents (settings q : Document) (conditions : List Value) (skip limit : Amount) : List Value :=
  searchStages (Value.entry q "search") (Value.entry settings "search_index") ++ matchStages conditions ++
    sortStages (Value.entry q "sort") ++ [facetStage skip.toValue limit.toValue (countField settings)]

omit [Stack] in
theorem toValue_facet (skip limit : Amount) (field : Value) :
    (Stage.facet skip limit field).toValue = facetStage skip.toValue limit.toValue field := rfl

theorem documents_of_accepted (hp : Pipeline.init settings = .ok p) (hq : (p.query q).answer = .ok ()) :
    ∃ user forced, conditions? (Value.entry q "filter") = some user ∧
      forcedConditions? (settingsTable settings) = some forced ∧
      (p.query q).state.stages.map (List.map Stage.toValue) =
        .ok (documents (settingsTable settings) q (user ++ forced) (skipped p q) (pageSize p q)) := by
  obtain ⟨text, es, spec, ht, he, hs, hstate⟩ := ((Pipeline.untouched_of_init hp).query q).of_ok hq
  obtain ⟨hsearch, hfilter, -, -, hcount⟩ := Pipeline.init_eq_ok hp
  have hindex : p.search.index = Value.entry (settingsTable settings) "search_index" := by rw [hsearch]; rfl
  have hfield : p.count.field = countField (settingsTable settings) := by rw [hcount]; rfl
  refine ⟨es.map Expression.toValue, p.filter.forced.expressions.map Expression.toValue,
    conditions?_of_filter he, forcedConditions?_of_init hfilter, ?_⟩
  have hsearch : (p.taken q text es spec).search.stages.map Stage.toValue =
      searchStages (Value.entry q "search") p.search.index := stages_search ht
  have hfilter : (p.taken q text es spec).filter.stages.map Stage.toValue =
      matchStages ((es ++ p.filter.forced.expressions).map Expression.toValue) := stages_filter rfl
  have hsort : (p.taken q text es spec).sort.stages.map Stage.toValue = sortStages (Value.entry q "sort") :=
    stages_sort hs rfl
  have hlast : (p.taken q text es spec).count.field = p.count.field := rfl
  rw [hstate, Pipeline.stages_of_window rfl]
  simp only [Except.map, List.map_append, List.map_cons, List.map_nil, hsearch, hfilter, hsort, hlast,
    toValue_facet, hindex, hfield, documents, skipped, pageSize]

/-! ## What the pipeline depends on -/

/-- Query objects with the same entries are the same query, whatever the order of their keys. -/
theorem query_congr {q' : Document} (hk : Pipeline.unknownKeys q = [])
    (h : ∀ key, Table.get? q' key = Table.get? q key) : p.query q' = p.query q := by
  have hentry (key : String) : Value.entry q' key = Value.entry q key := Value.entry_congr (h key)
  have hk' : Pipeline.unknownKeys q' = [] := by
    rw [Pipeline.unknownKeys_eq_nil_iff] at hk ⊢
    intro key hm
    rw [← Table.get?_isSome_iff, h, Table.get?_isSome_iff] at hm
    exact hk key hm
  have hl : Table.get? q "limit" = none := Pipeline.get?_of_known hk (by decide)
  have hl' : Table.get? q' "limit" = none := Pipeline.get?_of_known hk' (by decide)
  rw [Pipeline.query_of_known hk, Pipeline.query_of_known hk']
  apply Pipeline.giveAll_congr
  intro part hp
  by_cases hlimit : part = "limit"
  · rw [hlimit, LimitHandler.entry_limit_packDocument hl, LimitHandler.entry_limit_packDocument hl',
      hentry, hentry]
  · have hpage : part ≠ "page" ∧ part ≠ "pageSize" := by
      constructor <;> rintro rfl <;> simp at hp
    rw [LimitHandler.entry_packDocument_of_ne hpage.1 hpage.2 hlimit,
      LimitHandler.entry_packDocument_of_ne hpage.1 hpage.2 hlimit, hentry]

omit [Stack] in
/-- The stages in front of the last one do not depend on page and page size. -/
theorem documents_congr {settings q q' : Document} {conditions : List Value} {skip limit skip' limit' : Amount}
    (h : ∀ key, key ≠ "page" → key ≠ "pageSize" → Table.get? q' key = Table.get? q key) :
    ∃ front, documents settings q conditions skip limit =
        front ++ [facetStage skip.toValue limit.toValue (countField settings)] ∧
      documents settings q' conditions skip' limit' =
        front ++ [facetStage skip'.toValue limit'.toValue (countField settings)] := by
  have hsearch : Value.entry q' "search" = Value.entry q "search" :=
    Value.entry_congr (h "search" (by decide) (by decide))
  have hsort : Value.entry q' "sort" = Value.entry q "sort" :=
    Value.entry_congr (h "sort" (by decide) (by decide))
  exact ⟨_, rfl, by rw [documents, hsearch, hsort]⟩

/-- What an accepted query object is compiled to: the search, the conditions of the caller before those of
the settings, the sort, each if there is something to do, and the page with the total. Only the page
depends on page and page size. -/
theorem stages_of_accepted (hp : Pipeline.init settings = .ok p) (hq : (p.query q).answer = .ok ()) :
    (∃ user forced, conditions? (Value.entry q "filter") = some user ∧
      forcedConditions? (settingsTable settings) = some forced ∧
      (p.query q).state.stages.map (List.map Stage.toValue) = .ok
        (searchStages (Value.entry q "search") (Value.entry (settingsTable settings) "search_index") ++
          matchStages (user ++ forced) ++ sortStages (Value.entry q "sort") ++
          [facetStage (skipped p q).toValue (pageSize p q).toValue (countField (settingsTable settings))])) ∧
    (∀ q', (∀ key, Table.get? q' key = Table.get? q key) → p.query q' = p.query q) ∧
    (∀ q', (∀ key, key ≠ "page" → key ≠ "pageSize" → Table.get? q' key = Table.get? q key) →
      (p.query q').answer = .ok () →
      ∃ front, (p.query q).state.stages.map (List.map Stage.toValue) = .ok (front ++
          [facetStage (skipped p q).toValue (pageSize p q).toValue (countField (settingsTable settings))]) ∧
        (p.query q').state.stages.map (List.map Stage.toValue) = .ok (front ++
          [facetStage (skipped p q').toValue (pageSize p q').toValue
            (countField (settingsTable settings))])) := by
  obtain ⟨user, forced, huser, hforced, hdocuments⟩ := documents_of_accepted hp hq
  refine ⟨⟨user, forced, huser, hforced, hdocuments⟩, ?_, ?_⟩
  · intro q' h
    exact query_congr (Pipeline.known_of_accepted hq) h
  · intro q' h hq'
    obtain ⟨user', forced', huser', hforced', hdocuments'⟩ := documents_of_accepted hp hq'
    have hfilter : Value.entry q' "filter" = Value.entry q "filter" :=
      Value.entry_congr (h "filter" (by decide) (by decide))
    rw [hfilter, huser] at huser'
    rw [hforced] at hforced'
    cases huser'
    cases hforced'
    obtain ⟨front, hfront, hfront'⟩ := documents_congr h
    exact ⟨front, by rw [hdocuments, hfront], by rw [hdocuments', hfront']⟩

end

def phoneSettings : Document :=
  [("force_filter", .document [("shop", .int 1)]), ("search_index", .text "products"), ("max_items", .int 20)]

def phoneQuery : Document :=
  [("page", .text "2"), ("sort", .text "Price asc, Name"), ("search", .text "phone"), ("pageSize", .int 50),
    ("filter", .array [.document [("field", .text "Price"), ("operator", .text ">"), ("value", .text "30")]])]

theorem stages_of_accepted_phones : ∃ p, Pipeline.init (.document phoneSettings) = .ok p ∧
    (p.query phoneQuery).answer = .ok () ∧ (p.query phoneQuery).state.stages.map (List.map Stage.toValue) = .ok [
      .document [("$search", .document [
        ("text", .document [("query", .text "phone"), ("path", .document [("wildcard", .text "*")])]),
        ("index", .text "products")])],
      .document [("$match", .document [("$and", .array [
        .document [("Price", .document [("$gt", .int 30)])], .document [("shop", .int 1)]])])],
      .document [("$sort", .document [("Price", .int 1), ("Name", .int (-1))])],
      .document [("$facet", .document [
        ("data", .array [.document [("$skip", .int 40)], .document [("$limit", .int 20)]]),
        ("count", .array [.document [("$count", .text "total")]])])]] := by
  obtain ⟨p, hp, hq⟩ : ∃ p, Pipeline.init (.document phoneSettings) = .ok p ∧
      (p.query phoneQuery).answer = .ok () := Pipeline.exists_of_accepts (by decide +kernel)
  refine ⟨p, hp, hq, ?_⟩
  obtain ⟨⟨user, forced, huser, hforced, hstages⟩, -, -⟩ := stages_of_accepted hp hq
  have hconditions : conditions? (Value.entry phoneQuery "filter") =
      some [.document [("Price", .document [("$gt", .int 30)])]] := rfl
  have hinit : LimitHandler.init (.int 10) (.int 20) = .ok ⟨.int 10, some (.int 20), .fresh, none⟩ := rfl
  have hlimit : p.limit = ⟨.int 10, some (.int 20), .fresh, none⟩ :=
    (Except.ok.inj (hinit.symm.trans (Pipeline.init_eq_ok hp).2.2.2.1)).symm
  have hsize : pageSize p phoneQuery = .int 20 := by rw [pageSize, hlimit]; decide +kernel
  have hskip : skipped p phoneQuery = .int 40 := by rw [skipped, hsize]; decide +kernel
  have hclauses : clauses "Price asc, Name" = ["Price asc".toList, " Name".toList] := by decide +kernel
  have hprice : words "Price asc".toList = ["Price".toList, "asc".toList] := by decide +kernel
  have hname : words " Name".toList = ["Name".toList] := by decide +kernel
  have hsort : sortStages (.text "Price asc, Name") =
      [.document [("$sort", .document [("Price", .int 1), ("Name", .int (-1))])]] := by
    rw [sortStages, if_pos (by decide +kernel), hclauses]
    simp only [List.filterMap, clausePair?, hprice, hname]
    rfl
  rw [hconditions] at huser
  cases huser
  cases hforced
  rw [hstages, hskip, hsize, show Value.entry phoneQuery "sort" = .text "Price asc, Name" from rfl, hsort]
  rfl

end GridQuery.CompiledQuery

import GridQuery.Query.Settings

/-! # Pipelines

A pipeline takes one query object and compiles it to stages: search, filter and sort in this order, each
only where there is something to do, and always last the stage that pages and counts. -/
namespace GridQuery

structure Pipeline where
  settings : Settings
  search : SearchHandler
  filter : FilterHandler
  sort : SortHandler
  limit : LimitHandler
  count : CountHandler

namespace Pipeline

def name : String := "MongoPipeline()"

/-- A pipeline for a value of settings; everything empty stands for no settings. -/
def init [Stack] (settings : Value) : Except Error Pipeline := do
  let s ← Settings.ofValue (if settings.truthy then settings else .document [])
  let (s, forSearch) := s.route "search" .search
  let (s, forFilter) := s.route "filter" .filter
  let (s, _) := s.route "sort" .sort
  let (s, forLimit) := s.route "limit" .limit
  let (s, forCount) := s.route "count" .count
  let filter ← FilterHandler.init (Value.entry forFilter "force_filter")
  let limit ← LimitHandler.init (Value.entry forLimit "default_page_size") (Value.entry forLimit "max_items")
  s.requireKnown name
  return {
    settings := s
    search := .init (Value.entry forSearch "search_index")
    filter := filter
    sort := .init
    limit := limit
    count := .init (Value.entry forCount "count_field") }

/-- The keys a query object may have. -/
def vocabulary : List String := ["search", "filter", "sort", "page", "pageSize"]

/-- The key that stands for the receiver of a query object, which therefore cannot have it. -/
def reservedKey : String := "self"

def unknownKeys (q : Document) : List String :=
  Settings.sorted ((Table.keys q).filter fun k => !vocabulary.contains k)

theorem unknownKeys_eq_nil_iff {q : Document} : unknownKeys q = [] ↔ ∀ k ∈ Table.keys q, k ∈ vocabulary := by
  simp [unknownKeys, Settings.sorted_eq_nil_iff, List.filter_eq_nil_iff]

theorem get?_of_known {q : Document} (h : unknownKeys q = []) {key : String} (hk : key ∉ vocabulary) :
    Table.get? q key = none :=
  (Table.get?_eq_none_iff q key).mpr fun hm => hk (unknownKeys_eq_nil_iff.mp h key hm)

section
variable [Stack]

def inputSearch (p : Pipeline) (v : Value) : Reply Pipeline Unit :=
  (p.search.input v).within fun h => { p with search := h }

def inputFilter (p : Pipeline) (v : Value) : Reply Pipeline Unit :=
  (p.filter.input v).within fun h => { p with filter := h }

def inputSort (p : Pipeline) (v : Value) : Reply Pipeline Unit :=
  (p.sort.input v).within fun h => { p with sort := h }

def inputLimit (p : Pipeline) (v : Value) : Reply Pipeline Unit :=
  (p.limit.input v .null).within fun h => { p with limit := h }

def inputCount (p : Pipeline) (v : Value) : Reply Pipeline Unit :=
  (p.count.input v).within fun h => { p with count := h }

/-- Gives one part of a query object to its handler, which gets a null where there is none. A part
that is switched off may only be null. -/
def give (part : String) (q : Document) (handler : Pipeline → Value → Reply Pipeline Unit)
    (p : Pipeline) : Reply Pipeline Unit :=
  let v := Value.entry q part
  if v.isNull then handler p v
  else match p.settings.requireEnabled part with
    | .error e => ⟨.error e, p⟩
    | .ok () => handler p v

/-- Gives every part of a query object to its handler, up to the first error. -/
def giveAll (p : Pipeline) (q : Document) : Reply Pipeline Unit :=
  (give "search" q inputSearch p).andThen fun p _ =>
  (give "filter" q inputFilter p).andThen fun p _ =>
  (give "sort" q inputSort p).andThen fun p _ =>
  (give "limit" q inputLimit p).andThen fun p _ =>
  give "count" q inputCount p

/-- Takes a query object. Nothing is given to any handler if a key is not in the vocabulary. -/
def query (p : Pipeline) (q : Document) : Reply Pipeline Unit :=
  if Table.contains q reservedKey then ⟨.error .shape, p⟩
  else match unknownKeys q with
    | [] => p.giveAll (LimitHandler.packDocument q)
    | keys => ⟨.error (.query (.unknownKeys keys)), p⟩

end

/-- The stage that pages and counts. -/
def lastStage (p : Pipeline) : Except Error Stage :=
  match p.limit.window with
  | none => .error .shape
  | some (page, size) => .ok (.facet (Amount.times page size) size p.count.field)

/-- The stages of the pipeline. -/
def stages (p : Pipeline) : Except Error (List Stage) := do
  let last ← p.lastStage
  return p.search.stages ++ p.filter.stages ++ p.sort.stages ++ [last]

theorem stages_of_window {p : Pipeline} {page : Int} {size : Amount} (h : p.limit.window = some (page, size)) :
    p.stages = .ok (p.search.stages ++ p.filter.stages ++ p.sort.stages ++
      [.facet (Amount.times page size) size p.count.field]) := by
  simp [stages, lastStage, h, bind, Except.bind, pure, Except.pure]

/-- Without a window there are no stages at all. -/
theorem stages_of_closed {p : Pipeline} (h : p.limit.window = none) : p.stages = .error .shape := by
  simp [stages, lastStage, h, bind, Except.bind]

/-- The query object that was taken, with the defaults in place of what was missing. -/
def finalQuery (p : Pipeline) : Except Error Document := do
  let filter ← p.filter.finalInput
  let sort ← p.sort.finalInput
  return [("search", p.search.finalInput), ("filter", filter), ("sort", sort)] ++ p.limit.finalInput

/-- The parts whose handlers have had their input. -/
def received (p : Pipeline) : List String :=
  let parts := [("search", p.search.intake), ("filter", p.filter.intake), ("sort", p.sort.intake),
    ("limit", p.limit.intake), ("count", p.count.intake)]
  (parts.filter fun e => e.2.received).map Prod.fst

end Pipeline

/-- A part of a pipeline that later input can be merged into. -/
inductive Mergeable
  | filter
  | sort
  deriving DecidableEq

/-- A pipeline, with the marks of those that it shares accepted input with: one for its filter and one
for its sort specification. -/
structure PipelineRelative where
  filterMark : Nat
  sortMark : Nat
  pipeline : Pipeline

abbrev PipelineFamily := List PipelineRelative

namespace PipelineFamily

variable [Stack]

def single (p : Pipeline) : PipelineFamily := [⟨0, 0, p⟩]

/-- Adds a copy of a member. -/
def copy (f : PipelineFamily) (i : Nat) : Reply PipelineFamily Nat :=
  match f[i]? with
  | none => ⟨.error .shape, f⟩
  | some r =>
    let filterMark := if r.pipeline.filter.expressions.isSome then r.filterMark else f.length
    let sortMark := if r.pipeline.sort.spec.isSome then r.sortMark else f.length
    ⟨.ok f.length, f ++ [⟨filterMark, sortMark, r.pipeline⟩]⟩

def query (f : PipelineFamily) (i : Nat) (q : Document) : Reply PipelineFamily Unit :=
  match f[i]? with
  | none => ⟨.error .shape, f⟩
  | some r =>
    (r.pipeline.query q).within fun p => f.set i { r with pipeline := p }

def shareFilter (f : PipelineFamily) (mark : Nat) (es : List Expression) : PipelineFamily :=
  f.map fun r =>
    if r.filterMark = mark then
      { r with pipeline := { r.pipeline with
        filter := { r.pipeline.filter with expressions := some es } } }
    else r

def shareSort (f : PipelineFamily) (mark : Nat) (s : SortSpec) : PipelineFamily :=
  f.map fun r =>
    if r.sortMark = mark then
      { r with pipeline := { r.pipeline with sort := { r.pipeline.sort with spec := some s } } }
    else r

/-- Merges into a part of a member and of all that share it. -/
def merge (f : PipelineFamily) (i : Nat) (part : Mergeable) (v : Value) : Reply PipelineFamily Unit :=
  match f[i]? with
  | none => ⟨.error .shape, f⟩
  | some r =>
    match part with
    | .filter =>
      match r.pipeline.filter.merged v with
      | .error e => ⟨.error e, f⟩
      | .ok es => ⟨.ok (), shareFilter f r.filterMark es⟩
    | .sort =>
      match r.pipeline.sort.merged v with
      | .error e => ⟨.error e, f⟩
      | .ok s => ⟨.ok (), shareSort f r.sortMark s⟩

variable {f : PipelineFamily} {i : Nat} {r : PipelineRelative}

theorem query_of_member (h : f[i]? = some r) (q : Document) :
    f.query i q = (r.pipeline.query q).within fun p => f.set i { r with pipeline := p } := by
  simp only [query, h]

theorem merge_filter (h : f[i]? = some r) (v : Value) : f.merge i .filter v =
    match r.pipeline.filter.merged v with
    | .error e => ⟨.error e, f⟩
    | .ok es => ⟨.ok (), shareFilter f r.filterMark es⟩ := by
  simp only [merge, h]

theorem merge_sort (h : f[i]? = some r) (v : Value) : f.merge i .sort v =
    match r.pipeline.sort.merged v with
    | .error e => ⟨.error e, f⟩
    | .ok s => ⟨.ok (), shareSort f r.sortMark s⟩ := by
  simp only [merge, h]

theorem merge_of_none (h : f[i]? = none) (part : Mergeable) (v : Value) :
    f.merge i part v = ⟨.error .shape, f⟩ := by
  simp only [merge, h]

end PipelineFamily
end GridQuery

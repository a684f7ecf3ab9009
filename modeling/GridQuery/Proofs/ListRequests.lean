import GridQuery.Http.Startup
import GridQuery.Proofs.CallerErrors
import GridQuery.Proofs.CompiledQuery
import GridQuery.Proofs.QueryStrings
import GridQuery.Proofs.ReadJson
import GridQuery.Proofs.StoreCalls

/-! # Requests for a list of documents

A request for a list is refused before the store is asked, or asks it once. It is refused for a body that
is no JSON, or a query object that cannot be compiled; the response is then a status of 400 with a
message. Where the stack is used up on the way the status is 500. -/
namespace GridQuery.ListRequests
open Text Http

/-! ## The request -/

/-- The first argument with a name, as an entry of a query object. -/
def given (args : List (String × String)) (name : String) : Document :=
  match args.find? fun a => a.1 = name with
  | some a => [(name, .text a.2)]
  | none => []

/-- The query object of a request with the given arguments and filter. -/
def queryOf (args : List (String × String)) (filter : Value) : Document :=
  given args "search" ++ given args "sort" ++ given args "page" ++ given args "pageSize" ++ [("filter", filter)]

section
variable [Stack]

/-- The filter of a request; no body is no filter. -/
def filter (r : Request) : Except Json.Defect Value :=
  if r.body.isEmpty then .ok .null else Json.readBytes r.body

/-- What a pipeline that was just made compiles a query object to. -/
def compile (settings : Value) (q : Document) : Except Error (List Value) := do
  let p ← Pipeline.init settings
  let r := p.query q
  r.answer
  r.state.stages.map (List.map Stage.toValue)

/-- What a request with a filter is compiled to. -/
def compiled (settings : Value) (r : Request) (v : Value) : Except Error (List Value) :=
  compile settings (queryOf (arguments r.query.toList) v)

/-- A body that is not empty is no JSON, or the query object cannot be compiled. -/
def Refused (settings : Value) (r : Request) : Prop :=
  (r.body ≠ [] ∧ ∃ d, Json.readBytes r.body = .error d) ∨
    ∃ v e, filter r = .ok v ∧ compiled settings r v = .error e

/-- The stack is used up by the brackets of the body, or by a value of the filter that was to be written. -/
def TooDeep (settings : Value) (r : Request) : Prop :=
  (r.body ≠ [] ∧ Json.readBytes r.body = .error .deep) ∨
    ∃ v, filter r = .ok v ∧ compiled settings r v = .error .tooDeep

theorem filter_eq_error_iff {r : Request} {d : Json.Defect} :
    filter r = .error d ↔ r.body ≠ [] ∧ Json.readBytes r.body = .error d := by
  cases hb : r.body <;> simp [filter, hb]

/-- The failure of a request whose body has a defect. -/
def failureOf : Json.Defect → Failure
  | .malformed => .badRequest
  | .deep => .work .tooDeep

theorem bodyValue_eq (r : Request) (s : Store) : bodyValue r s =
    match Json.readBytes r.body with
    | .ok v => (.ok v, s)
    | .error d => (.error (failureOf d), s) := by
  unfold bodyValue
  cases hd : Json.readBytes r.body with
  | ok v => rfl
  | error d => cases d <;> rfl

theorem bodyFilter_eq (r : Request) (s : Store) : bodyFilter r s =
    match filter r with
    | .ok v => (.ok v, s)
    | .error d => (.error (failureOf d), s) := by
  unfold bodyFilter filter
  split
  · rfl
  · exact bodyValue_eq r s

theorem writable_of_filter {r : Request} {v : Value} (h : filter r = .ok v) : v.writable = true := by
  unfold filter at h
  split at h
  · cases h
    rfl
  · exact Json.writable_readBytes h

end

theorem find?_of_get? (args : List (String × String)) (name : String) :
    (args.find? fun a => a.1 = name).map Prod.snd = Table.get? args name := by
  induction args with
  | nil => rfl
  | cons a r ih =>
    rw [List.find?_cons, Table.get?]
    by_cases h : a.1 = name
    · simp [h]
    · simp [h, ih]

theorem put_queryObject (query : List Char) (v : Value) :
    Table.put (queryObject query) "filter" v = queryOf (arguments query) v := by
  have hgiven (name : String) : given (arguments query) name =
      ((Table.get? (arguments query) name).map fun v => (name, Value.text v)).toList := by
    rw [given, ← find?_of_get?]
    cases (arguments query).find? fun a => a.1 = name <;> rfl
  simp only [queryOf, hgiven, queryObject, queryNames, List.filterMap_cons, List.filterMap_nil]
  cases Table.get? (arguments query) "search" <;> cases Table.get? (arguments query) "sort" <;>
    cases Table.get? (arguments query) "page" <;> cases Table.get? (arguments query) "pageSize" <;>
    simp [Table.put]

theorem mem_keys_queryObject {query : List Char} {key : String} (h : key ∈ Table.keys (queryObject query)) :
    key ∈ queryNames := by
  obtain ⟨entry, he, rfl⟩ := List.mem_map.mp h
  obtain ⟨name, hname, hv⟩ := List.mem_filterMap.mp he
  obtain ⟨v, -, rfl⟩ := Option.map_eq_some_iff.mp hv
  exact hname

theorem unknownKeys_queryOf (query : List Char) (v : Value) :
    Pipeline.unknownKeys (queryOf (arguments query) v) = [] := by
  rw [Pipeline.unknownKeys_eq_nil_iff]
  intro key hm
  have hall : ∀ name ∈ queryNames, name ∈ Pipeline.vocabulary := by decide
  rw [← put_queryObject, Table.keys_put] at hm
  split at hm
  · exact hall key (mem_keys_queryObject hm)
  · rcases List.mem_append.mp hm with hm | hm
    · exact hall key (mem_keys_queryObject hm)
    · rw [List.mem_singleton.mp hm]
      decide

theorem entry_filter_queryOf (query : List Char) (v : Value) :
    Value.entry (queryOf (arguments query) v) "filter" = v := by
  rw [← put_queryObject]
  simp [Value.entry, Table.get?_put]

/-! ## The route -/

/-- A text that can stand between the slashes of a path. -/
def IsSegment (s : List Char) : Prop := s ≠ [] ∧ '/' ∉ s

theorem route_query {database collection : List Char} (hd : IsSegment database) (hc : IsSegment collection) :
    route "POST" ('/' :: (database ++ '/' :: collection)) =
      .found (.query (String.ofList database) (String.ofList collection)) := by
  have hsegments : segmentsOf ('/' :: (database ++ '/' :: collection)) = [database, collection] := by
    rw [segmentsOf, List.drop_succ_cons, List.drop_zero, splitAt_append hd.2, splitAt_of_not_mem hc.2]
  obtain ⟨d, ds, rfl⟩ := List.exists_cons_of_ne_nil hd.1
  obtain ⟨c, cs, rfl⟩ := List.exists_cons_of_ne_nil hc.1
  have hendpoint : endpoint? "POST" ('/' :: ((d :: ds) ++ '/' :: (c :: cs))) =
      some (.query (String.ofList (d :: ds)) (String.ofList (c :: cs))) := by
    rw [endpoint?, hsegments]
    unfold endpoints
    dsimp only
    rw [List.find?_append]
    -- Files are not for this method, whatever the name of the database.
    split
    · split <;> rfl
    · rfl
  rw [route, if_neg (by simp), routeRooted, hendpoint]
  rfl

/-! ## The response -/

theorem state_lift {α : Type} (work : StoreM α) (s : Store) : (lift work s).2 = (work s).2 := by
  unfold lift
  cases work s with
  | mk answer t => cases answer <;> rfl

theorem status_failure (f : Failure) : 400 ≤ f.status ∧ f.status ≤ 500 := by
  cases f with
  | work e =>
    change 400 ≤ e.status ∧ e.status ≤ 500
    unfold Error.status
    split
    · decide
    · split <;> decide
  | _ => decide

theorem isWritable_status (f : Failure) : Value.isWritable f.status = true := by
  have hlimit : 10 ^ 3 ≤ 10 ^ Numeral.digitLimit := Nat.pow_le_pow_right (by decide) (by decide)
  have hstatus : (f.status : Int).natAbs < 10 ^ 3 := Nat.lt_of_le_of_lt (status_failure f).2 (by decide)
  exact Value.isWritable_iff.mpr (Nat.lt_of_lt_of_le hstatus hlimit)

/-- The store has turned a document down. -/
def IsRejected (f : Failure) (details : Value) : Prop := ∃ m c, f = .work (.validation m c details)

theorem fields_of_not_rejected {f : Failure} (h : ∀ details, ¬IsRejected f details) :
    f.fields = [("status", .int f.status), ("message", .text f.message)] := by
  unfold Failure.fields
  dsimp only
  split
  · exact absurd ⟨_, _, rfl⟩ (h _)
  · rfl

/-- Without details, a failure is reported with its status and a message. -/
theorem plain?_fields_of_not_rejected {f : Failure} (h : ∀ details, ¬IsRejected f details) :
    Json.plain? (.document f.fields) =
      some (.document [("status", .int f.status), ("message", .text f.message)]) := by
  have hw := isWritable_status f
  rw [fields_of_not_rejected h]
  simp [Json.plain?, Json.plainFields?, hw]

theorem failureResponse_of_not_rejected {r : Request} (hm : r.method ≠ "HEAD") {f : Failure}
    (h : ∀ details, ¬IsRejected f details) :
    (failureResponse r f).status = f.status ∧ (failureResponse r f).body =
      some (.document [("status", .int f.status), ("message", .text f.message)]) := by
  rw [failureResponse, plain?_fields_of_not_rejected h]
  dsimp only
  rw [withBody, if_neg hm]
  exact ⟨rfl, rfl⟩

theorem not_isRejected_of_ne_work {f : Failure} (h : ∀ e, f ≠ .work e) (details : Value) :
    ¬IsRejected f details := by
  rintro ⟨m, c, hf⟩
  exact h _ hf

theorem not_isRejected_of_callers {e : Error} (h : e.IsCallers) (details : Value) :
    ¬IsRejected (.work e) details := by
  rintro ⟨m, c, he⟩
  cases he
  cases h

theorem method_ne_head (h : requestMethod r = "POST") : r.method ≠ "HEAD" := by
  intro hm
  rw [requestMethod, hm] at h
  have hletters := congrArg String.toList h
  rw [String.toUpper, String.toList_map] at hletters
  exact absurd hletters (by decide)

section
variable [Stack]

/-! ## The compiled pipeline -/

theorem init_of_createService {settings : Value} {crud : Crud} (h : createService settings = .ok crud) :
    Pipeline.init settings = .ok crud.pipeline := by
  have hinit := Crud.init_eq_ok h
  by_cases ht : settings.truthy = true
  · rwa [if_pos ht] at hinit
  · rw [if_neg ht] at hinit
    rw [← hinit, Pipeline.init, Pipeline.init, if_neg ht]
    rfl

variable {settings : Value} {crud : Crud} {q : Document} {collection : String}

theorem compile_eq (h : Pipeline.init settings = .ok crud.pipeline) : compile settings q =
    (crud.pipeline.query q).answer.bind fun _ =>
      (crud.pipeline.query q).state.stages.map (List.map Stage.toValue) := by
  rw [compile, h]
  rfl

theorem query_document (crud : Crud) (q : Document) : crud.query (.document q) =
    (crud.pipeline.query q).answer.map fun _ => (crud.pipeline.query q).state := rfl

/-- What is accepted is compiled, so that only the query itself can be refused. -/
theorem answer_of_refused (h : Pipeline.init settings = .ok crud.pipeline) {e : Error}
    (he : compile settings q = .error e) : (crud.pipeline.query q).answer = .error e := by
  rw [compile_eq h] at he
  rcases bind_eq_error_iff.mp he with he | ⟨a, ha, he⟩
  · exact he
  · obtain ⟨user, forced, -, -, hstages⟩ := CompiledQuery.documents_of_accepted h ha
    rw [hstages] at he
    cases he

theorem list_of_refused (h : Pipeline.init settings = .ok crud.pipeline) {e : Error}
    (he : compile settings q = .error e) (s : Store) :
    crud.list collection (.document q) s = (.error e, s) := by
  rw [Crud.list_eq, query_document, answer_of_refused h he]
  rfl

theorem calls_list (h : Pipeline.init settings = .ok crud.pipeline) {stages : List Value}
    (hok : compile settings q = .ok stages) (s : Store) :
    (crud.list collection (.document q) s).2.calls = s.calls ++ [.aggregate collection stages] := by
  rw [compile_eq h] at hok
  obtain ⟨a, ha, hok⟩ := bind_eq_ok_iff.mp hok
  obtain ⟨compiled, hstages, rfl⟩ := map_eq_ok_iff.mp hok
  rw [Crud.list_eq, query_document, ha, Except.map, Except.bind, Pipeline.countedPage, hstages]
  exact CountedPage.calls_page rfl rfl s

theorem listOf_eq (r : Request) (database : String) (v : Value) :
    View.listOf (viewSource crud r database collection v) =
      crud.list (Store.collectionName database collection)
        (.document (queryOf (arguments r.query.toList) v)) := by
  have hq : View.queryDocument (.document (queryObject r.query.toList)) = .ok (queryObject r.query.toList) := by
    cases queryObject r.query.toList <;> rfl
  rw [View.listOf, viewSource, hq, Crud.pureWork_ok_bind, ← put_queryObject]

theorem TooDeep.refused {r : Request} (h : TooDeep settings r) : Refused settings r :=
  h.imp (And.imp_right fun hd => ⟨.deep, hd⟩) fun ⟨v, hf, he⟩ => ⟨v, .tooDeep, hf, he⟩

/-- Either a request is refused or its query object is compiled. -/
theorem compiled_of_not_refused {r : Request} (h : ¬Refused settings r) :
    ∃ v stages, filter r = .ok v ∧ compiled settings r v = .ok stages := by
  cases hf : filter r with
  | error d => exact absurd (Or.inl ((filter_eq_error_iff.mp hf).imp_right fun hd => ⟨d, hd⟩)) h
  | ok v =>
    cases hcompile : compiled settings r v with
    | error e => exact absurd (Or.inr ⟨v, e, hf, hcompile⟩) h
    | ok stages => exact ⟨v, stages, rfl, hcompile⟩

/-- What the filter of a request is refused for: the caller's error, or a stack that a value of it uses up. -/
theorem refusedFor_of_compiled {r : Request} (h : Pipeline.init settings = .ok crud.pipeline) {v : Value} {e : Error}
    (he : compiled settings r v = .error e) : RefusedFor v e := by
  have hrefused := (Pipeline.untouched_of_init h).refusedFor_query (unknownKeys_queryOf r.query.toList v)
    (answer_of_refused h he)
  rwa [entry_filter_queryOf] at hrefused

theorem isCallers_or_tooDeep {r : Request} (h : Pipeline.init settings = .ok crud.pipeline) {v : Value}
    (hf : filter r = .ok v) {e : Error} (he : compiled settings r v = .error e) :
    e.IsCallers ∨ (v.OutOfRoom ∧ e = .tooDeep) := by
  rcases refusedFor_of_compiled h he with hcaller | ⟨hlong, -⟩ | hdeep
  · exact Or.inl hcaller
  · exact absurd hlong (Value.writable_iff.mp (writable_of_filter hf))
  · exact Or.inr hdeep

/-- Where a stack is used up, the body has more brackets or its filter is nested deeper than there is room for. -/
theorem TooDeep.nested {r : Request} (h : Pipeline.init settings = .ok crud.pipeline) (hr : TooDeep settings r) :
    (∃ text, decodeAny? r.body = some text ∧ ¬Stack.jsonRoom.Holds (Json.openings text)) ∨
      ∃ v, filter r = .ok v ∧ v.OutOfRoom := by
  rcases hr with ⟨-, hd⟩ | ⟨v, hf, he⟩
  · exact Or.inl (Json.not_holds_of_readBytes hd)
  · rcases isCallers_or_tooDeep h hf he with hcaller | ⟨hout, -⟩
    · cases hcaller
    · exact Or.inr ⟨v, hf, hout⟩

variable [Library]

theorem state_shownResult (crud : Crud) (r : Request) (e : Endpoint) (s : Store) :
    (shownResult crud r e s).2 = (perform crud r e s).2 := by
  apply state_run_bind
  intro v t
  cases Json.plain? v <;> rfl

theorem shownResult_of_error {r : Request} {e : Endpoint} {f : Failure} {s t : Store}
    (h : perform crud r e s = (.error f, t)) : shownResult crud r e s = (.error f, t) :=
  run_bind_error h

theorem state_handle {r : Request} {e : Endpoint} (h : route (requestMethod r) (routedPath r) = .found e)
    (s : Store) : (handle crud r s).2 = (perform crud r e s).2 := by
  rw [← state_shownResult, handle, h]
  dsimp only
  cases shownResult crud r e s with
  | mk answer t => cases answer <;> rfl

theorem handle_of_error {r : Request} {e : Endpoint} {f : Failure} {s t : Store}
    (h : route (requestMethod r) (routedPath r) = .found e) (hf : perform crud r e s = (.error f, t)) :
    handle crud r s = (failureResponse r f, t) := by
  rw [handle, h]
  dsimp only
  rw [shownResult_of_error hf]

/-! ## One call or none -/

variable {r : Request} {database : String}

theorem perform_of_no_filter {d : Json.Defect} (h : filter r = .error d) (s : Store) :
    perform crud r (.query database collection) s = (.error (failureOf d), s) := by
  apply run_bind_error
  rw [bodyFilter_eq, h]

/-- With a filter, the rest of the work is the list, in another form. -/
theorem perform_of_filter {v : Value} (h : filter r = .ok v) (s : Store) :
    perform crud r (.query database collection) s = (do
      let page ← lift (crud.list (Store.collectionName database collection)
        (.document (queryOf (arguments r.query.toList) v)))
      return .document page.toDocument : ServiceM Value) s := by
  have hbody : bodyFilter r s = (.ok v, s) := by rw [bodyFilter_eq, h]
  rw [← listOf_eq]
  exact run_bind_ok hbody

theorem perform_of_uncompiled (h : Pipeline.init settings = .ok crud.pipeline) {v : Value}
    (hf : filter r = .ok v) {e : Error} (he : compiled settings r v = .error e) (s : Store) :
    perform crud r (.query database collection) s = (.error (.work e), s) := by
  have hlist : lift (crud.list (Store.collectionName database collection)
      (.document (queryOf (arguments r.query.toList) v))) s = (.error (.work e), s) := by
    rw [lift, list_of_refused h he]
  rw [perform_of_filter hf]
  exact run_bind_error hlist

/-- A stack that is used up is a failure nobody is told about. -/
theorem perform_of_tooDeep (h : Pipeline.init settings = .ok crud.pipeline) (hr : TooDeep settings r)
    (s : Store) : perform crud r (.query database collection) s = (.error (.work .tooDeep), s) := by
  rcases hr with hbody | ⟨v, hf, he⟩
  · exact perform_of_no_filter (filter_eq_error_iff.mpr hbody) s
  · exact perform_of_uncompiled h hf he s

/-- Any other request that is refused fails on the caller's account. The store is as it was. -/
theorem perform_of_refused (h : Pipeline.init settings = .ok crud.pipeline) (hr : Refused settings r)
    (hroom : ¬TooDeep settings r) (s : Store) :
    ∃ f : Failure, perform crud r (.query database collection) s = (.error f, s) ∧
      f.status = 400 ∧ ∀ details, ¬IsRejected f details := by
  rcases hr with ⟨hne, d, hd⟩ | ⟨v, e, hf, he⟩
  · cases d with
    | deep => exact absurd (Or.inl ⟨hne, hd⟩) hroom
    | malformed =>
      have hnot := not_isRejected_of_ne_work (f := .badRequest) (by simp)
      exact ⟨.badRequest, perform_of_no_filter (filter_eq_error_iff.mpr ⟨hne, hd⟩) s, rfl, hnot⟩
  · rcases isCallers_or_tooDeep h hf he with hcaller | ⟨-, rfl⟩
    · exact ⟨.work e, perform_of_uncompiled h hf he s, hcaller.status_eq, not_isRejected_of_callers hcaller⟩
    · exact absurd (Or.inr ⟨v, hf, he⟩) hroom

theorem calls_perform (h : Pipeline.init settings = .ok crud.pipeline) {v : Value}
    (hf : filter r = .ok v) {stages : List Value} (hok : compiled settings r v = .ok stages) (s : Store) :
    (perform crud r (.query database collection) s).2.calls =
      s.calls ++ [.aggregate (Store.collectionName database collection) stages] := by
  rw [perform_of_filter hf, state_run_map, state_lift, calls_list h hok]

section Handle

variable {database collection : List Char}
    (hroute : route (requestMethod r) (routedPath r) =
      .found (.query (String.ofList database) (String.ofList collection)))
include hroute

theorem handle_of_failure (hm : r.method ≠ "HEAD") {f : Failure} (hnot : ∀ details, ¬IsRejected f details)
    {s : Store} (hf : perform crud r (.query (String.ofList database) (String.ofList collection)) s = (.error f, s)) :
    (handle crud r s).2 = s ∧ (handle crud r s).1.status = f.status ∧ (handle crud r s).1.body =
      some (.document [("status", .int f.status), ("message", .text f.message)]) := by
  rw [handle_of_error hroute hf]
  exact ⟨rfl, failureResponse_of_not_rejected hm hnot⟩

theorem handle_of_refused (h : Pipeline.init settings = .ok crud.pipeline) (hm : r.method ≠ "HEAD")
    (hr : Refused settings r) (hroom : ¬TooDeep settings r) (s : Store) :
    (handle crud r s).2 = s ∧ (handle crud r s).1.status = 400 ∧ ∃ message, (handle crud r s).1.body =
      some (.document [("status", .int 400), ("message", .text message)]) := by
  obtain ⟨f, hf, hstatus, hnot⟩ := perform_of_refused h hr hroom s
  obtain ⟨hstore, hresponse, hbody⟩ := handle_of_failure hroute hm hnot hf
  rw [hstatus] at hresponse hbody
  exact ⟨hstore, hresponse, f.message, hbody⟩

theorem handle_of_tooDeep (h : Pipeline.init settings = .ok crud.pipeline) (hm : r.method ≠ "HEAD")
    (hr : TooDeep settings r) (s : Store) :
    (handle crud r s).2 = s ∧ (handle crud r s).1.status = 500 ∧ (handle crud r s).1.body =
      some (.document [("status", .int 500), ("message", .text "Something went wrong")]) :=
  handle_of_failure hroute hm (by rintro details ⟨m, c, hf⟩; cases hf) (perform_of_tooDeep h hr s)

theorem calls_handle (h : Pipeline.init settings = .ok crud.pipeline) (hr : ¬Refused settings r)
    (s : Store) : ∃ v stages, filter r = .ok v ∧ compiled settings r v = .ok stages ∧
      (handle crud r s).2.calls = s.calls ++
        [.aggregate (Store.collectionName (String.ofList database) (String.ofList collection)) stages] := by
  obtain ⟨v, stages, hf, hok⟩ := compiled_of_not_refused hr
  refine ⟨v, stages, hf, hok, ?_⟩
  rw [state_handle hroute, calls_perform h hf hok]

end Handle

/-- A request for a list makes no call iff it is refused, and is then answered by a status of 400 and a
message, or of 500 where the stack is used up by what is nested in the body. Any other one makes a single call,
with the pipeline that its query object is compiled to, whatever the store answers. The query object has the first
argument of each name in the query string, however it is spelled. -/
theorem one_call_or_none (hc : createService settings = .ok crud) {database collection : List Char}
    (hd : IsSegment database) (hn : IsSegment collection) (hm : requestMethod r = "POST")
    (hp : routedPath r = '/' :: (database ++ '/' :: collection)) (s : Store) :
    ((handle crud r s).2.calls = s.calls ↔ Refused settings r) ∧
    (Refused settings r → ¬TooDeep settings r → (handle crud r s).2 = s ∧ (handle crud r s).1.status = 400 ∧
      ∃ message, (handle crud r s).1.body =
        some (.document [("status", .int 400), ("message", .text message)])) ∧
    (TooDeep settings r → Refused settings r ∧ (handle crud r s).2 = s ∧ (handle crud r s).1.status = 500 ∧
      (handle crud r s).1.body =
        some (.document [("status", .int 500), ("message", .text "Something went wrong")]) ∧
      ((∃ text, decodeAny? r.body = some text ∧ ¬Stack.jsonRoom.Holds (Json.openings text)) ∨
        ∃ v, filter r = .ok v ∧ v.OutOfRoom)) ∧
    (¬Refused settings r → ∃ v stages, filter r = .ok v ∧ compiled settings r v = .ok stages ∧
      (handle crud r s).2.calls = s.calls ++
        [.aggregate (String.ofList database ++ "." ++ String.ofList collection) stages]) ∧
    (∀ args, QueryStrings.SpellsQuery args r.query.toList → arguments r.query.toList = args) := by
  have hinit := init_of_createService hc
  have hroute : route (requestMethod r) (routedPath r) =
      .found (.query (String.ofList database) (String.ofList collection)) := by
    rw [hm, hp, route_query hd hn]
  have hrefused (h : Refused settings r) : (handle crud r s).2 = s := by
    by_cases hroom : TooDeep settings r
    · exact (handle_of_tooDeep hroute hinit (method_ne_head hm) hroom s).1
    · exact (handle_of_refused hroute hinit (method_ne_head hm) h hroom s).1
  have hcompiled (h : ¬Refused settings r) := calls_handle hroute hinit h s
  refine ⟨⟨fun hcalls => ?_, fun h => by rw [hrefused h]⟩,
    fun h hroom => handle_of_refused hroute hinit (method_ne_head hm) h hroom s, fun hroom => ?_, hcompiled,
    fun args => QueryStrings.arguments_of_spelled⟩
  · -- A call that was made would have made the list of calls longer.
    refine Classical.byContradiction fun hnot => ?_
    obtain ⟨v, stages, -, -, hone⟩ := hcompiled hnot
    rw [hcalls] at hone
    simp at hone
  · obtain ⟨hstore, hstatus, hbody⟩ := handle_of_tooDeep hroute hinit (method_ne_head hm) hroom s
    exact ⟨hroom.refused, hstore, hstatus, hbody, hroom.nested hinit⟩

end

/-- A request with a filter in its body, one whose body breaks off, and one with nothing but brackets. -/
def cheap : Request where
  method := "POST"
  path := "/shop/products"
  query := "page=1&sort=Price+asc"
  body := "[\x7b\"field\": \"Price\", \"operator\": \"<\", \"value\": 30\x7d]".toUTF8.toList

def broken : Request := { cheap with body := "[".toUTF8.toList }

def unclosed : Request := { cheap with body := List.replicate 100000 0x5B }

def twentyAtMost : Value := .document [("max_items", .int 20)]

theorem one_call_or_none_cheap : ∃ crud, createService twentyAtMost = .ok crud ∧
    (∃ v stages, filter cheap = .ok v ∧ compiled twentyAtMost cheap v = .ok stages ∧
      (handle crud cheap .empty).2.calls = [.aggregate "shop.products" stages]) ∧
    (handle crud broken .empty).2.calls = [] ∧ (handle crud broken .empty).1.status = 400 := by
  obtain ⟨crud, hc⟩ : ∃ crud, createService twentyAtMost = .ok crud := exists_of_isOk (by decide +kernel)
  have hshop : IsSegment "shop".toList := by unfold IsSegment; decide
  have hproducts : IsSegment "products".toList := by unfold IsSegment; decide
  have hpost : requestMethod cheap = "POST" := by decide +kernel
  have hpath : routedPath cheap = '/' :: ("shop".toList ++ '/' :: "products".toList) := by decide +kernel
  refine ⟨crud, hc, ?_, ?_⟩
  · have hcompiled : ((filter cheap).bind fun v => (compiled twentyAtMost cheap v).mapError fun _ => .deep).isOk =
        true := by decide +kernel
    obtain ⟨stages, hstages⟩ := exists_of_isOk hcompiled
    obtain ⟨v, hv, hok⟩ := bind_eq_ok_iff.mp hstages
    have hnot : ¬Refused twentyAtMost cheap := by
      rintro (hbody | ⟨w, e, hf, he⟩)
      · obtain ⟨hne, d, hd⟩ := hbody
        rw [filter_eq_error_iff.mpr ⟨hne, hd⟩] at hv
        cases hv
      · rw [hf] at hv
        cases hv
        rw [he] at hok
        cases hok
    exact (one_call_or_none hc hshop hproducts hpost hpath .empty).2.2.2.1 hnot
  · have hmalformed : Json.readBytes broken.body = .error .malformed := by with_unfolding_all rfl
    have hrefused : Refused twentyAtMost broken := Or.inl ⟨by decide +kernel, .malformed, hmalformed⟩
    have hroom : ¬TooDeep twentyAtMost broken := by
      rintro (⟨-, hd⟩ | ⟨v, hf, -⟩)
      · rw [hmalformed] at hd
        cases hd
      · rw [filter_eq_error_iff.mpr ⟨by decide +kernel, hmalformed⟩] at hf
        cases hf
    obtain ⟨hcalls, hstatus, -⟩ :=
      (one_call_or_none (r := broken) hc hshop hproducts hpost hpath .empty).2.1 hrefused hroom
    exact ⟨by rw [hcalls]; rfl, hstatus⟩

/-- A hundred thousand brackets that nothing closes are no JSON, and are not answered as such. -/
theorem unclosed_not_rejected : ∃ crud, createService twentyAtMost = .ok crud ∧
    (decodeAny? unclosed.body).bind (Json.read? (some Numeral.digitLimit)) = none ∧
    (handle crud unclosed .empty).2.calls = [] ∧ (handle crud unclosed .empty).1.status = 500 := by
  obtain ⟨crud, hc⟩ : ∃ crud, createService twentyAtMost = .ok crud := exists_of_isOk (by decide +kernel)
  have hdeep : Json.readBytes unclosed.body = .error .deep := Json.readBytes_replicate rfl (by decide) (by decide)
  have hne : unclosed.body ≠ [] := List.ne_nil_of_length_eq_add_one (List.length_replicate (n := 100000))
  have hroute : route (requestMethod unclosed) (routedPath unclosed) =
      .found (.query (String.ofList "shop".toList) (String.ofList "products".toList)) := by
    have hpost : requestMethod unclosed = "POST" := by decide +kernel
    have hpath : routedPath unclosed = '/' :: ("shop".toList ++ '/' :: "products".toList) := by decide +kernel
    rw [hpost, hpath, route_query (by unfold IsSegment; decide) (by unfold IsSegment; decide)]
  obtain ⟨hstore, hstatus, -⟩ := handle_of_tooDeep hroute (init_of_createService hc)
    (by decide +kernel : unclosed.method ≠ "HEAD") (Or.inl ⟨hne, hdeep⟩) .empty
  have hnoValue : (decodeAny? unclosed.body).bind (Json.read? (some Numeral.digitLimit)) = none := by
    rw [unclosed, Json.decodeAny?_replicate (by decide), Option.bind_some, Json.read?_unclosed]
  exact ⟨crud, hc, hnoValue, by rw [hstore]; rfl, hstatus⟩

end GridQuery.ListRequests

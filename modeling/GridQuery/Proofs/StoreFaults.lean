import GridQuery.Proofs.WorkCourse

/-! # Faults of the store

An operation ends with the first of its calls that fails, and with an error that says what the call failed
with. A store's own faults are reported with their message, code and details, a rejected document with the
reasons that the server gives for it; a fault that is not the store's goes through as it is. -/
namespace GridQuery

/-! ## Operations -/

theorem reports_describeDatabases (names : List String) : Reports (describeDatabases names) := by
  induction names with
  | nil => exact .pure []
  | cons name r ih =>
    exact (Store.reports_collectionNames name).bind fun _ => ih.bind fun _ => .pure _

theorem reports_listDatabases : Reports listDatabases :=
  Store.reports_databaseNames.bind fun _ => (reports_describeDatabases _).bind fun _ => .pure _

namespace CountedPage

variable {c : CountedPage} {e : Error}

theorem error_lookup? {fields : Document} {key : Value} (h : lookup? fields key = .error e) : e = .shape := by
  unfold lookup? at h
  split at h
  · cases h
  · split at h <;> cases h
    rfl

theorem error_itemsOf {v : Value} (h : itemsOf v = .error e) : e = .shape := by
  cases v <;> cases h <;> rfl

theorem error_totalOf {field rows : Value} (h : totalOf field rows = .error e) : e = .shape := by
  unfold totalOf at h
  split at h
  · split at h
    · exact error_lookup? (map_eq_error_iff.mp h)
    · cases h
      rfl
  · cases h

/-- A result document of another shape is no fault of the store. -/
theorem error_unwrap {v : Value} (h : (c.unwrap v).answer = .error e) : e = .shape := by
  unfold unwrap at h
  split at h
  · rename_i fields hv
    split at h
    · rename_i hbranch
      cases h
      exact error_lookup? hbranch
    · dsimp only at h
      split at h
      · rename_i hitems
        cases h
        split at hitems
        · exact error_itemsOf hitems
        · cases hitems
      · split at h
        · rename_i htotal
          cases h
          rcases bind_eq_error_iff.mp htotal with hbranch | ⟨rows, -, htotal⟩
          · exact error_lookup? hbranch
          · exact error_totalOf htotal
        · cases h
  · cases h
    rfl

/-- A page that is not known yet comes out of one aggregation. -/
theorem page_eq (hd : c.data = none) {collection : String} (hc : c.collection = some collection) :
    (fun s => ((c.page s).answer, (c.page s).state.2)) = (do
      let response ← Store.aggregate collection c.pipeline
      Crud.pureWork ((c.unwrap response).answer.map fun _ =>
        ⟨(c.unwrap response).state.data.getD [], (c.unwrap response).state.total⟩) : StoreM Result) := by
  funext s
  unfold page ask execute
  cases h : Store.aggregate collection c.pipeline s with
  | mk answer t =>
    cases answer with
    | error e =>
      rw [run_bind_error h]
      simp [hd, hc, h]
    | ok response =>
      rw [run_bind_ok h]
      cases hu : c.unwrap response with
      | mk answer c' => cases answer <;> simp [hd, hc, h, hu, Reply.within, Crud.pureWork, Except.map]

theorem reports_page (c : CountedPage) :
    Reports (fun s => ((c.page s).answer, (c.page s).state.2) : StoreM Result) := by
  cases hd : c.data with
  | some data =>
    have hpage (s : Store) : c.page s = ⟨.ok ⟨data, c.total⟩, (c, s)⟩ := by simp [page, ask, hd]
    simp only [hpage]
    exact .pure _
  | none =>
    cases hc : c.collection with
    | none =>
      have hpage (s : Store) : c.page s =
          ⟨.error (.requirement "CountingPipeline has no collection to run against"), (c, s)⟩ := by
        simp [page, ask, execute, hd, hc]
      simp only [hpage]
      exact .pureWork fun e he => by cases he; exact id
    | some collection =>
      rw [page_eq hd hc]
      refine (Store.reports_aggregate collection c.pipeline).bind fun response => .pureWork fun e he => ?_
      rw [error_unwrap (map_eq_error_iff.mp he)]
      exact id

end CountedPage

namespace DateField

variable {e : Error}

theorem error_declaresDate {property : Value} (h : declaresDate property = .error e) : e = .shape := by
  unfold declaresDate at h
  split at h
  · split at h <;> cases h
    rfl
  · cases h

theorem error_namesIn {properties : Document} (h : namesIn properties = .error e) : e = .shape := by
  induction properties with
  | nil => cases h
  | cons property r ih =>
    rcases bind_eq_error_iff.mp h with hdate | ⟨isDate, -, h⟩
    · exact error_declaresDate hdate
    rcases bind_eq_error_iff.mp h with hr | ⟨names, -, h⟩
    · exact ih hr
    · cases h

variable [Stack]

theorem not_isReport_read {field : String} {v : Value} (h : read field v = .error e) : ¬e.IsReport := by
  unfold read at h
  split at h
  · cases h
  · split at h
    · cases h
    · cases h
      exact (refusedFor_ofValue v field "date" .date).not_isReport

theorem readFields_cons (dates : List String) (name : String) (v : Value) (r : Document) :
    readFields dates ((name, v) :: r) =
      (if dates.contains name then read name v else .ok v).bind fun v =>
        (readFields dates r).bind fun r => .ok ((name, v) :: r) := by
  rw [readFields]
  split <;> rfl

theorem not_isReport_readFields {dates : List String} {d : Document} (h : readFields dates d = .error e) :
    ¬e.IsReport := by
  induction d with
  | nil => cases h
  | cons entry r ih =>
    obtain ⟨name, v⟩ := entry
    rw [readFields_cons] at h
    rcases bind_eq_error_iff.mp h with hv | ⟨v, -, h⟩
    · split at hv
      · exact not_isReport_read hv
      · cases hv
    rcases bind_eq_error_iff.mp h with hr | ⟨rest, -, h⟩
    · exact ih hr
    · cases h

theorem not_isReport_coerce {properties : Value} {d : Document} (h : coerce properties d = .error e) :
    ¬e.IsReport := by
  rcases bind_eq_error_iff.mp h with hnames | ⟨dates, -, h⟩
  · cases properties with
    | document properties =>
      rw [error_namesIn hnames]
      exact id
    | _ =>
      cases hnames
      exact id
  · exact not_isReport_readFields h

end DateField

namespace Crud

variable {crud : Crud} {settings : Value}

theorem error_entryOf {v : Value} {key : String} {e : Error} (h : entryOf v key = .error e) : e = .shape := by
  unfold entryOf at h
  split at h
  · split at h <;> cases h
    rfl
  · cases h

theorem reports_entryOf (v : Value) (key : String) : Reports (pureWork (entryOf v key)) :=
  .pureWork fun _ he => error_entryOf he ▸ id

variable (database collection : String)

theorem reports_validator : Reports (validator database collection) := by
  refine (Store.reports_collectionInfo database collection).bind fun info? => ?_
  cases info? with
  | none => exact .pure _
  | some info => exact reports_entryOf _ _

theorem reports_validatorSchema : Reports (validatorSchema database collection) := by
  refine (reports_validator database collection).bind fun v => ?_
  refine (reports_entryOf v _).bind fun schema => ?_
  exact (reports_entryOf schema _).bind fun properties => .pure _

variable [Stack]

theorem reports_prepareDocument (action : String) (v : Value) :
    Reports (prepareDocument action database collection v) := by
  have hdocument : Reports (pureWork (documentOf action v)) := by
    refine .pureWork fun e he => ?_
    cases v <;> cases he <;> exact id
  refine hdocument.bind fun d => (reports_validatorSchema database collection).bind fun properties => ?_
  exact .pureWork fun e he => DateField.not_isReport_coerce he

theorem reports_create (v : Value) : Reports (create database collection v) :=
  (reports_prepareDocument database collection "create" v).bind fun d =>
    (Store.reports_insert _ d).bind fun _ => .pure _

theorem reports_update [Library] (id v : Value) : Reports (update database collection id v) :=
  (reports_prepareDocument database collection "update" v).bind fun d =>
    (Store.reports_update _ _ (.single "$set" (.document d))).bind fun _ => .pure _

omit [Stack] in
theorem reports_delete [Library] (id : Value) : Reports (delete database collection id) :=
  (Store.reports_delete _ (byId id)).bind fun _ => .pure _

/-- What a query object is refused for is no fault of the store. -/
theorem not_isReport_query (h : init settings = .ok crud) {q : Value} {e : Error}
    (he : crud.query q = .error e) : ¬e.IsReport := by
  have hpipeline (d : Document) (hd : (crud.pipeline.query d).answer = .error e) : ¬e.IsReport := by
    rcases (Pipeline.untouched_of_init (init_eq_ok h)).error_query hd with ⟨-, rfl⟩ | hrefused
    · exact id
    · exact hrefused.not_isReport
  cases q with
  | null => exact hpipeline [] (map_eq_error_iff.mp he)
  | document d => exact hpipeline d (map_eq_error_iff.mp he)
  | _ =>
    cases he
    exact id

omit [Stack] in
theorem error_countedPage {p : Pipeline} {collection : Option String} {e : Error}
    (h : p.countedPage collection = .error e) : e = .shape := by
  have hstages : p.stages = .error e := map_eq_error_iff.mp h
  cases hw : p.limit.window with
  | none =>
    rw [Pipeline.stages_of_closed hw] at hstages
    cases hstages
    rfl
  | some w =>
    rw [Pipeline.stages_of_window hw] at hstages
    cases hstages

theorem reports_list (h : init settings = .ok crud) (q : Value) : Reports (crud.list collection q) := by
  have hquery : Reports (pureWork (crud.query q)) := .pureWork fun e he => not_isReport_query h he
  refine hquery.bind fun p => Reports.bind (.pureWork fun e he => ?_) CountedPage.reports_page
  rw [error_countedPage he]
  exact id

end Crud

/-- What can be done with the data of a store. -/
inductive Operation
  | list (collection : String) (q : Value)
  | validator (database collection : String)
  | create (database collection : String) (entity : Value)
  | update (database collection : String) (id entity : Value)
  | delete (database collection : String) (id : Value)
  | databases

/-- The work of an operation, with its result as a value. -/
def Operation.run [Stack] [Library] (crud : Crud) : Operation → StoreM Value
  | list collection q => do
    let page ← crud.list collection q
    return .document page.toDocument
  | validator database collection => Crud.validator database collection
  | create database collection entity => do
    let result ← Crud.create database collection entity
    return .document result
  | update database collection id entity => do
    let result ← Crud.update database collection id entity
    return .document result
  | delete database collection id => do
    let result ← Crud.delete database collection id
    return .document result
  | databases => listDatabases

theorem Operation.reports [Stack] [Library] {crud : Crud} {settings : Value}
    (h : Crud.init settings = .ok crud) (op : Operation) : Reports (op.run crud) := by
  cases op with
  | list collection q => exact (Crud.reports_list collection h q).map _
  | validator database collection => exact Crud.reports_validator database collection
  | create database collection entity => exact (Crud.reports_create database collection entity).map _
  | update database collection id entity => exact (Crud.reports_update database collection id entity).map _
  | delete database collection id => exact (Crud.reports_delete database collection id).map _
  | databases => exact reports_listDatabases

namespace StoreFaults

/-- An operation makes its calls one after the other, and ends with the first that fails. A fault that is not
the store's goes through as it is. One of the store is reported with its message, its code and its details; if
it is the rejection of a document, with the reasons for it in the place of the details. -/
theorem faults_reported [Stack] [Library] {crud : Crud} {settings : Value}
    (h : Crud.init settings = .ok crud) (op : Operation) (s : Store) :
    (∃ calls, (op.run crud s).2 = s.replay calls) ∧
    ∀ before c later f, (op.run crud s).2 = s.replay (before ++ c :: later) →
      (s.replay before).fault? c = some f → later = [] ∧
      (f.isStoreFault = false → (op.run crud s).1 = .error (.fault f)) ∧
      (f.isStoreFault = true → ¬f.IsRejection →
        (op.run crud s).1 = .error (.execution f.text f.code f.details)) ∧
      (f.isStoreFault = true → f.IsRejection → ∀ info, f.HasInfo info →
        (op.run crud s).1 = .error (.validation f.text f.code (Value.entry info "details"))) := by
  obtain ⟨calls, hstate, hcourse⟩ := op.reports h s
  refine ⟨⟨calls, hstate⟩, ?_⟩
  intro before c later f hcalls hf
  rw [hstate] at hcalls
  rw [Store.replay_injective hcalls] at hcourse
  obtain ⟨hlast, hanswer⟩ := hcourse.of_fails hf
  refine ⟨hlast, ?_, ?_, ?_⟩
  · intro hforeign
    rw [hanswer, Error.ofCall, hforeign]
    rfl
  · intro hstore hnot
    rw [hanswer, Error.ofCall, if_pos hstore, Fault.ofFault_of_not_rejection hnot]
  · intro hstore hrejection info hinfo
    rw [hanswer, Error.ofCall, if_pos hstore, Fault.ofFault_of_rejection hrejection hinfo]

/-- A document that the validator turns down, and a store in which one of three databases is not reached. -/
def rejection : Fault := .refused "WriteError" "Document failed validation" (.int 121)
  (.document [("errInfo", .document [("details", .text "price is missing")])])

def unreached : Fault := .unreachable "AutoReconnect" "connection closed"

def failing : Store := { Store.empty with
  inserts := [.error rejection]
  databases := .ok [("shop", .ok ["products"]), ("logs", .error unreached), ("users", .ok [])] }

def phone : Document := [("name", .text "phone")]

theorem faults_reported_rejection : ∃ crud, Crud.init (.document []) = .ok crud ∧
    (Operation.run crud (.create "shop" "products" (.document phone)) failing).1 =
      .error (.validation rejection.text (.int 121) (.text "price is missing")) ∧
    (Operation.run crud .databases failing).1 = .error (.execution "connection closed" .null (.array [])) ∧
    (Operation.run crud .databases failing).2.calls =
      [.listDatabases, .listCollectionNames "shop", .listCollectionNames "logs"] := by
  obtain ⟨crud, hc⟩ : ∃ crud, Crud.init (.document []) = .ok crud := exists_of_isOk (by decide +kernel)
  have hcreate : (Operation.run crud (.create "shop" "products" (.document phone)) failing).2 =
      failing.replay ([.listCollections "shop" "products"] ++ .insert "shop.products" phone :: []) := rfl
  have hdatabases : (Operation.run crud .databases failing).2 =
      failing.replay ([.listDatabases, .listCollectionNames "shop"] ++ .listCollectionNames "logs" :: []) := rfl
  have hinfo : rejection.HasInfo [("details", .text "price is missing")] := ⟨_, Or.inr rfl, Or.inr rfl⟩
  have hnot : ¬unreached.IsRejection := by
    rintro (hcode | ⟨d, hcode, -⟩) <;> cases hcode
  obtain ⟨-, -, -, hrejected⟩ := (faults_reported hc _ failing).2 _ _ _ rejection hcreate rfl
  obtain ⟨-, -, hunreached, -⟩ := (faults_reported hc _ failing).2 _ _ _ unreached hdatabases rfl
  refine ⟨crud, hc, hrejected rfl (Or.inl rfl) _ hinfo, hunreached rfl hnot, ?_⟩
  rw [hdatabases, Store.calls_replay]
  rfl

end StoreFaults
end GridQuery

import GridQuery.Proofs.ListRequests
import GridQuery.Proofs.StoreFaults

/-! # One response, one line in the access log

Whatever a request fails for, whether it is its path, its body, its query object, a write or the store, the
failure is answered in one place. The status of the answer stands in its body and in the access log, and
decides whether and how the failure is diagnosed. -/
namespace GridQuery.AccessLog
open Http ListRequests

/-- The last call between two states of a store has failed, as the rejection of a document. -/
def EndsRejected (s t : Store) (details : Value) : Prop := ∃ fault, s.EndedBy t fault ∧ fault.Rejects details

theorem not_endsRejected_self (s : Store) (details : Value) : ¬EndsRejected s s details := by
  rintro ⟨fault, hended, -⟩
  exact s.not_endedBy_self fault hended

/-- The levels of what is logged before the line of the access log. -/
def diagnosticLevels (status : Nat) : List Level :=
  if status < 400 then [] else if status < 500 then [.warning] else [.error]

/-- The path of a request and its query string, without question marks at the end. -/
def IsTarget (r : Request) (target : String) : Prop :=
  ∃ marks, requestPath r ++ '?' :: r.query.toList = target.toList ++ marks ∧ (∀ c ∈ marks, c = '?') ∧
    target.toList.getLast? ≠ some '?'

/-- A response whose log and body agree with its status. Details are given iff a document was rejected. -/
structure Accounts (r : Request) (rejected : Prop) (p : Response) : Prop where
  /-- The line of the access log is the last one, and ends with the status. -/
  log : ∃ diagnostics target, IsTarget r target ∧
    p.log = diagnostics ++ [⟨.info, r.method.toUpper ++ " " ++ target ++ " " ++ toString p.status⟩] ∧
    diagnostics.map LogLine.level = diagnosticLevels p.status
  /-- A failure has a body, unless only the head is asked for. -/
  body : 400 ≤ p.status → ∃ fields, p.body = (if r.method = "HEAD" then none else some (.document fields)) ∧
    Value.entry fields "status" = .int p.status ∧
    (Table.contains fields "validationErrorDetails" = true ↔ rejected)
  status : rejected → p.status = 400

theorem ordinal_eq (n : Nat) : ordinal n = toString n := congrArg String.ofList (Numeral.decimalDigits_eq_toDigits n)

theorem exists_accessLine (r : Request) (status : Nat) : ∃ target, IsTarget r target ∧
    accessLine r status = ⟨.info, r.method.toUpper ++ " " ++ target ++ " " ++ toString status⟩ := by
  let whole := requestPath r ++ '?' :: r.query.toList
  let target := (whole.reverse.dropWhile (· = '?')).reverse
  have hsplit : whole = target ++ (whole.reverse.takeWhile (· = '?')).reverse := by
    rw [← List.reverse_append, List.takeWhile_append_dropWhile, List.reverse_reverse]
  refine ⟨String.ofList target, ⟨_, by rwa [String.toList_ofList], fun c hc => ?_, ?_⟩, ?_⟩
  · simpa using List.all_eq_true.mp List.all_takeWhile c (List.mem_reverse.mp hc)
  · rw [String.toList_ofList, List.getLast?_reverse]
    intro hlast
    have hhead := List.head?_dropWhile_not (· = '?') whole.reverse
    rw [hlast] at hhead
    simp at hhead
  · rw [accessLine, ordinal_eq]
    rfl

/-! ## Responses to failures -/

variable {r : Request} {f : Failure}

theorem fields_of_rejected {details : Value} (h : IsRejected f details) :
    f.fields = [("status", .int f.status), ("message", .text f.message), ("validationErrorDetails", details)] := by
  obtain ⟨m, c, rfl⟩ := h
  rfl

/-- The fields of a failure can be shown, with the same status. -/
theorem plain?_fields (hshown : ∀ details, IsRejected f details → (Json.plain? details).isSome = true) :
    ∃ fields, Json.plain? (.document f.fields) = some (.document fields) ∧
      Value.entry fields "status" = .int f.status ∧
      (Table.contains fields "validationErrorDetails" = true ↔ ∃ details, IsRejected f details) := by
  by_cases hr : ∃ details, IsRejected f details
  · have hw := isWritable_status f
    obtain ⟨details, h⟩ := hr
    obtain ⟨shown, hd⟩ := Option.isSome_iff_exists.mp (hshown details h)
    refine ⟨[("status", .int f.status), ("message", .text f.message), ("validationErrorDetails", shown)],
      ?_, rfl, iff_of_true rfl ⟨details, h⟩⟩
    rw [fields_of_rejected h]
    simp [Json.plain?, Json.plainFields?, hw, hd]
  · exact ⟨_, plain?_fields_of_not_rejected (not_exists.mp hr), rfl, iff_of_false Bool.false_ne_true hr⟩

theorem level_diagnosis (r : Request) (f : Failure) :
    [(diagnosis r f).level] = diagnosticLevels f.status := by
  have hfailed : ¬f.status < 400 := Nat.not_lt.mpr (status_failure f).1
  rw [diagnosis, diagnosticLevels, if_neg hfailed]
  split <;> rfl

theorem accounts_failureResponse
    (hshown : ∀ details, IsRejected f details → (Json.plain? details).isSome = true) :
    Accounts r (∃ details, IsRejected f details) (failureResponse r f) := by
  obtain ⟨fields, hplain, hstatus, hdetails⟩ := plain?_fields hshown
  have hresponse : failureResponse r f =
      ⟨f.status, withBody r (.document fields), [diagnosis r f, accessLine r f.status]⟩ := by
    rw [failureResponse, hplain]
  obtain ⟨target, htarget, hline⟩ := exists_accessLine r f.status
  rw [hresponse, hline]
  exact {
    log := ⟨[diagnosis r f], target, htarget, rfl, level_diagnosis r f⟩
    body := fun _ => ⟨fields, rfl, hstatus, hdetails⟩
    status := by
      rintro ⟨details, m, c, rfl⟩
      rfl }

/-- What is no failure is not diagnosed. -/
theorem accounts_of_answered {status : Nat} (h : status < 400) (body : Option Value) :
    Accounts r False ⟨status, body, [accessLine r status]⟩ := by
  obtain ⟨target, htarget, hline⟩ := exists_accessLine r status
  rw [hline]
  exact {
    log := ⟨[], target, htarget, rfl, by simp [diagnosticLevels, h]⟩
    body := fun hfailed => absurd hfailed (Nat.not_le.mpr h)
    status := False.elim }

/-! ## The work behind an endpoint -/

theorem lift_map {α β : Type} (work : StoreM α) (f : α → β) :
    (do let a ← lift work; return f a : ServiceM β) = lift (do let a ← work; return f a) := by
  funext s
  cases hw : work s with
  | mk answer t =>
    cases answer with
    | ok a =>
      have hlift : lift work s = (.ok a, t) := by rw [lift, hw]
      rw [run_bind_ok hlift, lift, run_bind_ok hw]
      rfl
    | error e =>
      have hlift : lift work s = (.error (.work e), t) := by rw [lift, hw]
      rw [run_bind_error hlift, lift, run_bind_error hw]

theorem answer_lift_eq_error_iff {α : Type} {work : StoreM α} {s : Store} {e : Error} :
    (lift work s).1 = .error (.work e) ↔ (work s).1 = .error e := by
  unfold lift
  cases work s with
  | mk answer t => cases answer <;> simp

theorem not_isRejected_failureOf (d : Json.Defect) (details : Value) : ¬IsRejected (failureOf d) details := by
  rintro ⟨m, c, hf⟩
  cases d <;> cases hf

section
variable [Stack] [Library]

/-- Work on the value of the body is an operation with it, or is not begun. -/
theorem perform_body_cases {next : Value → StoreM Document} (run : Value → Operation) {crud : Crud}
    (hrun : ∀ v, (run v).run crud = (do let result ← next v; return .document result)) (r : Request) (s : Store) :
    let work : ServiceM Value := do
      let v ← bodyValue r
      return .document (← lift (next v))
    (∃ f, work s = (.error f, s) ∧ ∀ details, ¬IsRejected f details) ∨
      ∃ op : Operation, work s = lift (op.run crud) s := by
  intro work
  have hbody := bodyValue_eq r s
  cases hv : Json.readBytes r.body with
  | error d =>
    rw [hv] at hbody
    exact Or.inl ⟨failureOf d, run_bind_error hbody, not_isRejected_failureOf d⟩
  | ok v =>
    rw [hv] at hbody
    refine Or.inr ⟨run v, ?_⟩
    rw [hrun, ← lift_map]
    exact run_bind_ok hbody

/-- A request is turned down before the store is asked, or stands for an operation on it. -/
theorem perform_cases (crud : Crud) (r : Request) (e : Endpoint) (s : Store) :
    (∃ f, perform crud r e s = (.error f, s) ∧ ∀ details, ¬IsRejected f details) ∨
      ∃ op : Operation, perform crud r e s = lift (op.run crud) s := by
  cases e with
  | databases => exact Or.inr ⟨.databases, rfl⟩
  | query database collection =>
    cases hf : filter r with
    | error d => exact Or.inl ⟨failureOf d, perform_of_no_filter hf s, not_isRejected_failureOf d⟩
    | ok v =>
      refine Or.inr ⟨.list (Store.collectionName database collection)
        (.document (queryOf (arguments r.query.toList) v)), ?_⟩
      rw [perform_of_filter hf, lift_map]
      rfl
  | schema database collection => exact Or.inr ⟨.validator database collection, rfl⟩
  | insert database collection =>
    exact perform_body_cases (.create database collection) (fun v => rfl) r s
  | update database collection id =>
    exact perform_body_cases (.update database collection (.text id)) (fun v => rfl) r s
  | delete database collection id =>
    refine Or.inr ⟨.delete database collection (.text id), ?_⟩
    rw [perform, lift_map]
    rfl
  | file => exact Or.inl ⟨.notFound, rfl, not_isRejected_of_ne_work (by simp)⟩

/-- The work ends with the rejection of a document iff it fails with one. -/
theorem endsRejected_perform_iff {settings : Value} {crud : Crud} (h : Crud.init settings = .ok crud) (r : Request)
    (e : Endpoint) (s : Store) (details : Value) :
    EndsRejected s (perform crud r e s).2 details ↔
      ∃ f, (perform crud r e s).1 = .error f ∧ IsRejected f details := by
  rcases perform_cases crud r e s with ⟨f, hf, hnot⟩ | ⟨op, hop⟩
  · rw [hf]
    refine iff_of_false (not_endsRejected_self s details) ?_
    rintro ⟨f', hf', hr⟩
    cases hf'
    exact hnot details hr
  · rw [hop, state_lift]
    constructor
    · rintro ⟨fault, hended, hr⟩
      obtain ⟨m, c, hfault⟩ := Fault.rejects_iff.mp hr
      refine ⟨.work (.validation m c details), ?_, m, c, rfl⟩
      rw [answer_lift_eq_error_iff, (op.reports h).answer_of_endedBy hended, hfault]
    · rintro ⟨f, hf, m, c, rfl⟩
      obtain ⟨fault, hended, hfault⟩ :=
        (op.reports h).endedBy_of_isReport (answer_lift_eq_error_iff.mp hf) trivial
      exact ⟨fault, hended, Fault.rejects_iff.mpr ⟨m, c, hfault.symm⟩⟩

/-- What cannot be shown is no rejection, and a rejection remains one. -/
theorem isRejected_shownResult_iff (crud : Crud) (r : Request) (e : Endpoint) (s : Store) (details : Value) :
    (∃ f, (shownResult crud r e s).1 = .error f ∧ IsRejected f details) ↔
      ∃ f, (perform crud r e s).1 = .error f ∧ IsRejected f details := by
  cases hp : perform crud r e s with
  | mk answer t =>
    cases answer with
    | error f => rw [shownResult_of_error hp]
    | ok v =>
      rw [shownResult, run_bind_ok hp]
      have hok : ¬∃ f, (Except.ok v : Except Failure Value) = .error f ∧ IsRejected f details := by
        rintro ⟨f, hf, -⟩
        cases hf
      refine iff_of_false ?_ hok
      cases Json.plain? v with
      | some shown =>
        rintro ⟨f, hf, -⟩
        cases hf
      | none =>
        rintro ⟨f, hf, m, c, rfl⟩
        cases hf

/-! ## The answer to a request -/

/-- A request is answered, or what it fails with is reported. -/
theorem handle_cases {settings : Value} {crud : Crud} (h : Crud.init settings = .ok crud) (r : Request)
    (s : Store) :
    (∃ status body t, status < 400 ∧ handle crud r s = (⟨status, body, [accessLine r status]⟩, t) ∧
      ∀ details, ¬EndsRejected s t details) ∨
    ∃ f t, handle crud r s = (failureResponse r f, t) ∧
      ∀ details, EndsRejected s t details ↔ IsRejected f details := by
  have hunasked {f : Failure} (hf : ∀ details, ¬IsRejected f details) (details : Value) :
      EndsRejected s s details ↔ IsRejected f details :=
    iff_of_false (not_endsRejected_self s details) (hf details)
  rw [handle]
  split
  · rename_i e hroute
    have hrejected (details : Value) := endsRejected_perform_iff h r e s details
    simp only [← isRejected_shownResult_iff, ← state_shownResult] at hrejected
    cases hshown : shownResult crud r e s with
    | mk answer t =>
      rw [hshown] at hrejected
      cases answer with
      | ok v =>
        refine Or.inl ⟨200, _, t, by decide, rfl, fun details hr => ?_⟩
        obtain ⟨f, hf, -⟩ := (hrejected details).mp hr
        cases hf
      | error f =>
        refine Or.inr ⟨f, t, rfl, fun details => (hrejected details).trans ?_⟩
        simp
  · exact Or.inl ⟨200, none, s, by decide, rfl, not_endsRejected_self s⟩
  · exact Or.inl ⟨308, none, s, by decide, rfl, not_endsRejected_self s⟩
  · exact Or.inr ⟨.methodNotAllowed, s, rfl, hunasked (not_isRejected_of_ne_work (by simp))⟩
  · exact Or.inr ⟨.notFound, s, rfl, hunasked (not_isRejected_of_ne_work (by simp))⟩

/-- Every request is accounted for, if the details of a rejection can be shown: by one line in the access log,
behind a warning if its status is one of the caller's errors, an error if it is one of the server's, and
nothing if it is none. A body that reports a failure has its status, and has details iff a document was
rejected. -/
theorem request_accounted {settings : Value} {crud : Crud} (hc : createService settings = .ok crud)
    (r : Request) (s : Store)
    (hshown : ∀ details, EndsRejected s (handle crud r s).2 details → (Json.plain? details).isSome = true) :
    Accounts r (∃ details, EndsRejected s (handle crud r s).2 details) (handle crud r s).1 := by
  rcases handle_cases hc r s with ⟨status, body, t, hstatus, hhandle, hnot⟩ | ⟨f, t, hhandle, hrejected⟩
  · rw [hhandle, eq_false (not_exists.mpr hnot)]
    exact accounts_of_answered hstatus body
  · rw [hhandle] at hshown ⊢
    simp only [hrejected] at hshown ⊢
    exact accounts_failureResponse hshown

end

/-- A request to insert an empty document. -/
def insertion : Request where
  method := "POST"
  path := "/shop/products/insert"
  query := ""
  body := "\x7b\x7d".toUTF8.toList

theorem readBytes_insertion : Json.readBytes insertion.body = .ok (.document []) := by
  with_unfolding_all rfl

theorem route_insertion : route (requestMethod insertion) (routedPath insertion) =
    .found (.insert "shop" "products") := by
  have hmethod : requestMethod insertion = "POST" := by decide +kernel
  have hpath : routedPath insertion = "/shop/products/insert".toList := by decide +kernel
  have hendpoint : endpoint? "POST" "/shop/products/insert".toList = some (.insert "shop" "products") := by
    decide +kernel
  rw [hmethod, hpath, route, if_neg (by decide), routeRooted, hendpoint]
  rfl

theorem state_insertion (crud : Crud) : (handle crud insertion StoreFaults.failing).2 =
    StoreFaults.failing.replay ([.listCollections "shop" "products"] ++ [.insert "shop.products" []]) := by
  have hbody := bodyValue_eq insertion StoreFaults.failing
  rw [readBytes_insertion] at hbody
  rw [state_handle route_insertion, perform, run_bind_ok hbody]
  rfl

theorem endsRejected_insertion_iff (crud : Crud) (details : Value) :
    EndsRejected StoreFaults.failing (handle crud insertion StoreFaults.failing).2 details ↔
      details = .text "price is missing" := by
  unfold EndsRejected
  rw [state_insertion]
  simp only [Store.endedBy_replay_iff, Fault.rejects_iff]
  constructor
  · rintro ⟨fault, hfault, m, c, h⟩
    cases hfault
    cases h
    rfl
  · rintro rfl
    exact ⟨_, rfl, _, _, rfl⟩

theorem request_accounted_insertion : ∃ crud, createService (.document []) = .ok crud ∧
    (handle crud insertion StoreFaults.failing).1.status = 400 ∧
    (handle crud insertion StoreFaults.failing).1.log.map LogLine.level = [.warning, .info] ∧
    ∃ fields, (handle crud insertion StoreFaults.failing).1.body = some (.document fields) ∧
      Table.contains fields "validationErrorDetails" = true := by
  obtain ⟨crud, hc⟩ : ∃ crud, createService (.document []) = .ok crud := exists_of_isOk (by decide +kernel)
  have haccounted := request_accounted hc insertion StoreFaults.failing (by
    intro details hdetails
    rw [(endsRejected_insertion_iff crud details).mp hdetails]
    rfl)
  have hrejected : ∃ details, EndsRejected StoreFaults.failing
      (handle crud insertion StoreFaults.failing).2 details :=
    ⟨_, (endsRejected_insertion_iff crud _).mpr rfl⟩
  have hstatus := haccounted.status hrejected
  obtain ⟨diagnostics, target, -, hlog, hlevels⟩ := haccounted.log
  obtain ⟨fields, hbody, -, hcontains⟩ := haccounted.body (Nat.le_of_eq hstatus.symm)
  refine ⟨crud, hc, hstatus, ?_, fields, ?_, hcontains.mpr hrejected⟩
  · rw [hlog, List.map_append, hlevels, hstatus]
    rfl
  · rw [hbody]
    rfl

end GridQuery.AccessLog

import GridQuery.Proofs.PageAccesses

/-! # A counted page is run once

Every access runs the pipeline until one of them succeeds, and one that fails leaves nothing behind. The first
success settles the result: whatever is asked from then on is answered from its document, and no other call is
made, even if the page is bound to another collection. -/
namespace GridQuery.SingleExecution
open CountedPage

/-! ## What a run of accesses is to do -/

/-- A result document, which is null where there is none, has these documents and this total. The branch of
the documents is a list, or it is missing or empty. -/
def IsResult (dataBranch countBranch countField v : Value) (data : List Value) (total : Int) : Prop :=
  ∃ fields, v.IsOptional fields ∧
    (branch fields dataBranch = .array data ∨ (branch fields dataBranch).truthy = false ∧ data = []) ∧
    CountsTo countField (branch fields countBranch) total

/-- Where the store has a document ready for an aggregation, it is a result. -/
def HasResults (dataBranch countBranch countField : Value) (s : Store) : Prop :=
  ∀ v, .ok v ∈ s.aggregates → ∃ data total, IsResult dataBranch countBranch countField v data total

/-- The parts that are asked for. -/
def partsOf : List PageAccess → List PagePart
  | [] => []
  | .ask part :: r => part :: partsOf r
  | .bind _ :: r => partsOf r

/-- The collection that a page is bound to in the end. -/
def boundBy (collection : String) : List PageAccess → String
  | [] => collection
  | .ask _ :: r => boundBy collection r
  | .bind other :: r => boundBy other r

/-- A call for each part that is asked for, on the collection that the page is bound to by then. -/
def callsOf (pipeline : List Value) (collection : String) : List PageAccess → List Call
  | [] => []
  | .ask _ :: r => .aggregate collection pipeline :: callsOf pipeline collection r
  | .bind other :: r => callsOf pipeline other r

theorem callsOf_append (pipeline : List Value) (collection : String) (before later : List PageAccess) :
    callsOf pipeline collection (before ++ later) =
      callsOf pipeline collection before ++ callsOf pipeline (boundBy collection before) later := by
  induction before generalizing collection with
  | nil => rfl
  | cons a r ih => cases a <;> simp [callsOf, boundBy, ih]

/-! ## Accesses to a page with a result -/

variable {data : List Value} {total : Int}

theorem answers_of_executed {t : PageSession} (h : t.1.Executed data total) (accesses : List PageAccess) :
    t.answers accesses = (partsOf accesses).map (fun part => .ok (part.answer data (.int total))) ∧
      (t.after accesses).2 = t.2 := by
  induction accesses generalizing t with
  | nil => exact ⟨rfl, rfl⟩
  | cons a r ih =>
    obtain ⟨c, s⟩ := t
    obtain ⟨hexecuted, hstore⟩ := h.access s a
    obtain ⟨hanswers, hafter⟩ := ih hexecuted
    rw [PageSession.after_cons, hafter, hstore]
    refine ⟨?_, rfl⟩
    cases a with
    | ask part =>
      rw [PageSession.answers, hanswers, h.ask]
      rfl
    | bind collection => exact hanswers

/-! ## Accesses to a page without one -/

variable {pipeline : List Value} {collection : String} {dataBranch countBranch countField : Value} {s : Store}

theorem unwrap_of_result {c : CountedPage} (hd : isKey c.dataBranch = true) (hc : isKey c.countBranch = true)
    {v : Value} (h : IsResult c.dataBranch c.countBranch c.countField v data total) :
    c.unwrap v = ⟨.ok (), { c with data := some data, total := .int total }⟩ := by
  obtain ⟨fields, hfields, hdata, htotal⟩ := h
  have hitems : (if (branch fields c.dataBranch).truthy then itemsOf (branch fields c.dataBranch) else .ok []) =
      .ok data := by
    rcases hdata with hlist | ⟨hempty, rfl⟩
    · rw [hlist]
      cases data <;> rfl
    · simp [hempty]
  rw [unwrap_eq hd hc hfields.isTakenFor, hitems, totalOf_eq_int_iff.mpr htotal]

/-- What the store fails with is what the access fails with, and the page stays as it is. -/
theorem ask_of_fault {f : Fault} (hf : s.upcoming = .error f) (part : PagePart) :
    PageSession.ask (init pipeline (some collection) dataBranch countBranch countField, s) part =
      ⟨.error (Error.ofCall f), (init pipeline (some collection) dataBranch countBranch countField,
        s.after (.aggregate collection pipeline))⟩ := by
  rw [(unexecuted_init _ _ _ _ _).ask, execute_of_fault rfl hf]
  rfl

theorem ask_of_result (hd : isKey dataBranch = true) (hc : isKey countBranch = true) {v : Value}
    (hv : s.upcoming = .ok v) (h : IsResult dataBranch countBranch countField v data total) (part : PagePart) :
    ∃ c, c.Executed data total ∧
      PageSession.ask (init pipeline (some collection) dataBranch countBranch countField, s) part =
        ⟨.ok (part.answer data (.int total)), (c, s.after (.aggregate collection pipeline))⟩ := by
  refine ⟨{ init pipeline (some collection) dataBranch countBranch countField with
    data := some data, total := .int total }, ⟨rfl, rfl⟩, ?_⟩
  rw [(unexecuted_init _ _ _ _ _).ask, execute_of_response rfl hv, unwrap_of_result hd hc h]
  rfl

theorem HasResults.upcoming (h : HasResults dataBranch countBranch countField s) {v : Value}
    (hv : s.upcoming = .ok v) : ∃ data total, IsResult dataBranch countBranch countField v data total := by
  rcases Store.upcoming_mem hv with hmem | hnull
  · exact h v hmem
  · cases hnull
    refine ⟨[], 0, [], Or.inl ⟨rfl, rfl⟩, Or.inr ?_, .empty ?_⟩
    · rw [branch_nil]
      exact ⟨rfl, rfl⟩
    · rw [branch_nil]
      rfl

theorem HasResults.after (h : HasResults dataBranch countBranch countField s) (collection : String)
    (pipeline : List Value) :
    HasResults dataBranch countBranch countField (s.after (.aggregate collection pipeline)) :=
  fun v hv => h v (List.mem_of_mem_tail hv)

theorem HasResults.replay (h : HasResults dataBranch countBranch countField s) (before : List PageAccess) :
    HasResults dataBranch countBranch countField (s.replay (callsOf pipeline collection before)) := by
  induction before generalizing collection s with
  | nil => exact h
  | cons a r ih =>
    cases a with
    | ask part => exact ih (h.after collection pipeline)
    | bind other => exact ih h

/-- As long as every access fails, each makes one call, and the page is as it was made. -/
theorem after_of_failed (hd : isKey dataBranch = true) (hc : isKey countBranch = true)
    (hs : HasResults dataBranch countBranch countField s) {before : List PageAccess}
    (hfailed : ∀ answer ∈ PageSession.answers
      (init pipeline (some collection) dataBranch countBranch countField, s) before, ∃ e, answer = .error e) :
    PageSession.after (init pipeline (some collection) dataBranch countBranch countField, s) before =
      (init pipeline (some (boundBy collection before)) dataBranch countBranch countField,
        s.replay (callsOf pipeline collection before)) := by
  induction before generalizing collection s with
  | nil => rfl
  | cons a r ih =>
    cases a with
    | bind other => exact ih hs hfailed
    | ask part =>
      rw [PageSession.answers, List.forall_mem_cons] at hfailed
      obtain ⟨⟨e, he⟩, hrest⟩ := hfailed
      rw [PageSession.access] at hrest
      rw [PageSession.after_cons, PageSession.access]
      cases hup : s.upcoming with
      | error f =>
        rw [ask_of_fault hup] at hrest ⊢
        exact ih (hs.after collection pipeline) hrest
      | ok v =>
        obtain ⟨data, total, hresult⟩ := hs.upcoming hup
        obtain ⟨c, -, hask⟩ := ask_of_result hd hc hup hresult part
        rw [hask] at he
        cases he

/-- As long as accesses fail, each has made one call, and the page is as it was made. The next one makes the
next call: if this fails, so does the access; if there is an answer, the access and all that come behind it are
answered by the documents and the total of this one result, and no other call is made. -/
theorem pipeline_run_once (hd : isKey dataBranch = true) (hc : isKey countBranch = true)
    (hs : HasResults dataBranch countBranch countField s) (before : List PageAccess)
    (hfailed : ∀ answer ∈ PageSession.answers
      (init pipeline (some collection) dataBranch countBranch countField, s) before, ∃ e, answer = .error e) :
    let t := PageSession.after (init pipeline (some collection) dataBranch countBranch countField, s) before
    t.1 = init pipeline (some (boundBy collection before)) dataBranch countBranch countField ∧
    t.2.calls = s.calls ++ callsOf pipeline collection before ∧
    ∀ part,
      (∀ f, t.2.upcoming = .error f → (t.ask part).answer = .error (Error.ofCall f)) ∧
      (∀ v, t.2.upcoming = .ok v →
        ∃ data total, IsResult dataBranch countBranch countField v data total ∧ ∀ later,
          t.answers (.ask part :: later) =
            (part :: partsOf later).map (fun part => .ok (part.answer data (.int total))) ∧
          (t.after (.ask part :: later)).2.calls =
            s.calls ++ callsOf pipeline collection (before ++ [.ask part])) := by
  intro t
  have ht : t = (init pipeline (some (boundBy collection before)) dataBranch countBranch countField,
      s.replay (callsOf pipeline collection before)) := after_of_failed hd hc hs hfailed
  rw [ht]
  dsimp only
  refine ⟨rfl, Store.calls_replay s _, fun part => ⟨?_, ?_⟩⟩
  · intro f hf
    rw [ask_of_fault hf]
  · intro v hv
    obtain ⟨data, total, hresult⟩ := (hs.replay _).upcoming hv
    obtain ⟨c, hexecuted, hask⟩ := ask_of_result hd hc hv hresult part
    refine ⟨data, total, hresult, fun later => ?_⟩
    obtain ⟨hanswers, hafter⟩ := answers_of_executed (t := (c, _)) hexecuted later
    rw [PageSession.answers, PageSession.after_cons, PageSession.access, hask]
    refine ⟨by rw [hanswers]; rfl, ?_⟩
    rw [hafter, Store.calls_after, Store.calls_replay, callsOf_append, List.append_assoc]
    rfl

def phones (total : Int) : Value :=
  .document [("data", .array [.single "name" (.text "phone")]), ("count", .array [.single "total" (.int total)])]

/-- A store that is not reached at first, and then has two results ready. -/
def flaky : Store := { Store.empty with
  aggregates := [.error (.unreachable "AutoReconnect" "connection closed"), .ok (phones 7), .ok (phones 8)] }

theorem hasResults_flaky : HasResults (.text "data") (.text "count") (.text "total") flaky := by
  have hphones (total : Int) : IsResult (.text "data") (.text "count") (.text "total") (phones total)
      [.single "name" (.text "phone")] total := ⟨_, Or.inr rfl, Or.inl rfl, .counted rfl rfl⟩
  intro v hv
  have hv : v = phones 7 ∨ v = phones 8 := by simpa [flaky] using hv
  rcases hv with rfl | rfl
  · exact ⟨_, 7, hphones 7⟩
  · exact ⟨_, 8, hphones 8⟩

/-- The count fails, the page is bound to another collection and asked for, and what is asked later, bound
again, is answered without a call. -/
theorem pipeline_run_once_retried :
    let t := PageSession.after (init [] (some "shop.products") (.text "data") (.text "count") (.text "total"),
      flaky) [.ask .count, .bind "shop.archive"]
    t.1 = init [] (some "shop.archive") (.text "data") (.text "count") (.text "total") ∧
    t.2.calls = [.aggregate "shop.products" []] ∧
    ∃ data, t.answers [.ask .page, .bind "shop.products", .ask .count] =
        [.ok (.page ⟨data, .int 7⟩), .ok (.count (.int 7))] ∧
      (t.after [.ask .page, .bind "shop.products", .ask .count]).2.calls =
        [.aggregate "shop.products" [], .aggregate "shop.archive" []] := by
  intro t
  have hfailed : ∀ answer ∈ PageSession.answers (init [] (some "shop.products") (.text "data") (.text "count")
      (.text "total"), flaky) [.ask .count, .bind "shop.archive"], ∃ e, answer = .error e :=
    fun answer h => ⟨_, List.mem_singleton.mp h⟩
  obtain ⟨hmade, hcalls, hask⟩ := pipeline_run_once rfl rfl hasResults_flaky _ hfailed
  obtain ⟨data, total, ⟨fields, hfields, -, htotal⟩, hlater⟩ := (hask .page).2 (phones 7) rfl
  obtain ⟨hanswers, hlast⟩ := hlater [.bind "shop.products", .ask .count]
  have hcount : total = 7 := by
    have htotal := totalOf_eq_int_iff.mpr htotal
    rcases hfields with ⟨hnull, -⟩ | hfields
    · cases hnull
    · cases hfields
      cases htotal
      rfl
  subst hcount
  exact ⟨hmade, hcalls, data, hanswers, hlast⟩

end GridQuery.SingleExecution

import GridQuery.Proofs.PipelineIntake

/-! # The answer to a query object

An untouched pipeline answers a query object with known keys by what its parts are read as, one after the
other: each has to be switched on unless it is null, and each has to be readable. Which parts are switched
on is seen in the table of settings. -/
namespace GridQuery

theorem Reply.answer_andThen {σ α β : Type} (r : Reply σ α) (next : σ → α → Reply σ β) :
    (r.andThen next).answer = r.answer.bind fun a => (next r.state a).answer := by
  obtain ⟨answer, s⟩ := r
  cases answer <;> rfl

theorem SearchHandler.answer_input {h : SearchHandler} (hr : h.intake.received = false) (v : Value) :
    (h.input v).answer = (SearchHandler.read v).map fun _ => () := by
  cases ht : SearchHandler.read v <;> simp [SearchHandler.input, Intake.take, hr, ht, Except.map]

theorem FilterHandler.answer_input [Stack] {h : FilterHandler} (hr : h.intake.received = false) (v : Value) :
    (h.input v).answer = (Expression.ofFilter v).map fun _ => () := by
  cases he : Expression.ofFilter v <;> simp [FilterHandler.input, Intake.take, hr, he, Except.map]

theorem SortHandler.answer_input {h : SortHandler} (hr : h.intake.received = false) (v : Value) :
    (h.input v).answer = (SortSpec.ofValue v).map fun _ => () := by
  cases hs : SortSpec.ofValue v <;> simp [SortHandler.input, Intake.take, hr, hs, Except.map]

theorem CountHandler.answer_input {h : CountHandler} (hr : h.intake.received = false) (v : Value) :
    (h.input v).answer = .ok () := by
  simp [CountHandler.input, Intake.take, hr]

namespace Settings

variable {s : Settings}

@[simp] theorem table_route (part : String) (kind : HandlerKind) : (s.route part kind).1.table = s.table := rfl

/-- A part that is asked for is switched off where the table says so; the others stay as they are. -/
theorem isEnabled_route (part : String) (kind : HandlerKind) (name : String) :
    (s.route part kind).1.isEnabled name =
      (s.isEnabled name && (part != name || leavesOn s.table part)) := by
  unfold isEnabled route supply insertNew
  cases leavesOn s.table part with
  | true => simp
  | false =>
    by_cases hn : part = name
    · subst hn
      by_cases hc : part ∈ s.off <;> simp [hc]
    · have hn : name ≠ part := Ne.symm hn
      by_cases hc : part ∈ s.off <;> simp [hc, hn, hn.symm]

theorem off_of_ofValue {v : Value} (h : ofValue v = .ok s) : s.off = [] := by
  cases v <;> cases h
  rfl

/-- Lets a part of a query object in: it is null, or the part is switched on. -/
def allow (s : Settings) (part : String) (v : Value) : Except Error Unit :=
  if v.isNull then .ok () else s.requireEnabled part

theorem allow_of_enabled {part : String} (h : s.isEnabled part = true) (v : Value) :
    s.allow part v = .ok () := by
  unfold allow requireEnabled
  simp [h]

theorem allow_error {part : String} {v : Value} {e : Error} (h : s.allow part v = .error e) :
    e = .disabled part := by
  unfold allow requireEnabled at h
  split at h
  · cases h
  · split at h
    · cases h
    · cases h
      rfl

/-- Lets a part in and reads it. -/
def readPart {α : Type} (s : Settings) (part : String) (read : Value → Except Error α) (v : Value) :
    Except Error Unit :=
  (s.allow part v).bind fun _ => (read v).map fun _ => ()

/-- A part fails because it is switched off, or as its reader does. -/
theorem readPart_error {α : Type} {part : String} {read : Value → Except Error α} {v : Value} {e : Error}
    (h : s.readPart part read v = .error e) : e = .disabled part ∨ read v = .error e := by
  rcases bind_eq_error_iff.mp h with ha | ⟨-, -, hr⟩
  · exact Or.inl (allow_error ha)
  · exact Or.inr (map_eq_error_iff.mp hr)

variable [Stack]

/-- Reads the parts of a query object, up to the first error. -/
def readParts (s : Settings) (q : Document) : Except Error Unit :=
  (s.readPart "search" SearchHandler.read (Value.entry q "search")).bind fun _ =>
  (s.readPart "filter" Expression.ofFilter (Value.entry q "filter")).bind fun _ =>
  (s.readPart "sort" SortSpec.ofValue (Value.entry q "sort")).bind fun _ =>
  s.allow "limit" (Value.entry (LimitHandler.packDocument q) "limit")

/-- Parts fail by a switch, or as one of the three readers does. -/
theorem readParts_error {q : Document} {e : Error} (h : s.readParts q = .error e) :
    (∃ part, e = .disabled part) ∨ SearchHandler.read (Value.entry q "search") = .error e ∨
      Expression.ofFilter (Value.entry q "filter") = .error e ∨
      SortSpec.ofValue (Value.entry q "sort") = .error e := by
  rcases bind_eq_error_iff.mp h with hsearch | ⟨-, -, h⟩
  · exact (readPart_error hsearch).imp (fun he => ⟨_, he⟩) Or.inl
  rcases bind_eq_error_iff.mp h with hfilter | ⟨-, -, h⟩
  · exact (readPart_error hfilter).imp (fun he => ⟨_, he⟩) fun he => Or.inr (Or.inl he)
  rcases bind_eq_error_iff.mp h with hsort | ⟨-, -, h⟩
  · exact (readPart_error hsort).imp (fun he => ⟨_, he⟩) fun he => Or.inr (Or.inr he)
  · exact Or.inl ⟨_, allow_error h⟩

/-- Where pagination is switched on, page and page size make no difference to the answer. -/
theorem readParts_congr {q q' : Document} (hl : s.isEnabled "limit" = true)
    (h : ∀ part ∈ ["search", "filter", "sort"], Value.entry q' part = Value.entry q part) :
    s.readParts q' = s.readParts q := by
  unfold readParts
  simp only [h "search" (by simp), h "filter" (by simp), h "sort" (by simp), allow_of_enabled hl]

end Settings

namespace Pipeline

variable {p : Pipeline} {q : Document}

theorem answer_give {part : String} {handler : Pipeline → Value → Reply Pipeline Unit} :
    (give part q handler p).answer =
      (p.settings.allow part (Value.entry q part)).bind fun _ => (handler p (Value.entry q part)).answer := by
  unfold give Settings.allow
  dsimp only
  split
  · rfl
  · cases p.settings.requireEnabled part <;> rfl

theorem state_give (part : String) (q : Document) (handler : Pipeline → Value → Reply Pipeline Unit) :
    (give part q handler p).state = p ∨
      (give part q handler p).state = (handler p (Value.entry q part)).state := by
  unfold give
  dsimp only
  split
  · exact Or.inr rfl
  · split
    · exact Or.inl rfl
    · exact Or.inr rfl

theorem answer_giveSearch (hr : p.search.intake.received = false) :
    (give "search" q inputSearch p).answer =
      p.settings.readPart "search" SearchHandler.read (Value.entry q "search") := by
  rw [answer_give, inputSearch, Reply.answer_within, SearchHandler.answer_input hr]
  rfl

variable [Stack]

theorem answer_giveFilter (hr : p.filter.intake.received = false) :
    (give "filter" q inputFilter p).answer =
      p.settings.readPart "filter" Expression.ofFilter (Value.entry q "filter") := by
  rw [answer_give, inputFilter, Reply.answer_within, FilterHandler.answer_input hr]
  rfl

omit [Stack] in
theorem answer_giveSort (hr : p.sort.intake.received = false) :
    (give "sort" q inputSort p).answer =
      p.settings.readPart "sort" SortSpec.ofValue (Value.entry q "sort") := by
  rw [answer_give, inputSort, Reply.answer_within, SortHandler.answer_input hr]
  rfl

omit [Stack] in
theorem answer_giveLimit (hr : p.limit.intake.received = false) (hl : Table.get? q "limit" = none) :
    (give "limit" (LimitHandler.packDocument q) inputLimit p).answer =
      p.settings.allow "limit" (Value.entry (LimitHandler.packDocument q) "limit") := by
  rw [answer_give, inputLimit, Reply.answer_within, LimitHandler.input_packDocument hr hl,
    LimitHandler.accept_of_fresh hr]
  cases p.settings.allow "limit" (Value.entry (LimitHandler.packDocument q) "limit") <;> rfl

omit [Stack] in
theorem answer_giveCount (hr : p.count.intake.received = false) (hn : Value.entry q "count" = .null) :
    (give "count" q inputCount p).answer = .ok () := by
  rw [give_of_null hn, inputCount, Reply.answer_within, CountHandler.answer_input hr]

omit [Stack] in
/-- A part changes its own handler at most. -/
theorem state_giveSearch (p : Pipeline) (q : Document) :
    ∃ k, (give "search" q inputSearch p).state = { p with search := k } :=
  (state_give "search" q inputSearch).elim (fun h => ⟨p.search, h⟩) fun h => ⟨_, h⟩

theorem state_giveFilter (p : Pipeline) (q : Document) :
    ∃ k, (give "filter" q inputFilter p).state = { p with filter := k } :=
  (state_give "filter" q inputFilter).elim (fun h => ⟨p.filter, h⟩) fun h => ⟨_, h⟩

omit [Stack] in
theorem state_giveSort (p : Pipeline) (q : Document) :
    ∃ k, (give "sort" q inputSort p).state = { p with sort := k } :=
  (state_give "sort" q inputSort).elim (fun h => ⟨p.sort, h⟩) fun h => ⟨_, h⟩

omit [Stack] in
theorem state_giveLimit (p : Pipeline) (q : Document) :
    ∃ k, (give "limit" q inputLimit p).state = { p with limit := k } :=
  (state_give "limit" q inputLimit).elim (fun h => ⟨p.limit, h⟩) fun h => ⟨_, h⟩

/-- An untouched pipeline answers a query object with known keys by what its parts are read as. -/
theorem Untouched.answer_query (h : p.Untouched) (hk : unknownKeys q = []) :
    (p.query q).answer = p.settings.readParts q := by
  have hsearch : Value.entry (LimitHandler.packDocument q) "search" = Value.entry q "search" :=
    LimitHandler.entry_packDocument_of_ne (by decide) (by decide) (by decide)
  have hfilter : Value.entry (LimitHandler.packDocument q) "filter" = Value.entry q "filter" :=
    LimitHandler.entry_packDocument_of_ne (by decide) (by decide) (by decide)
  have hsort : Value.entry (LimitHandler.packDocument q) "sort" = Value.entry q "sort" :=
    LimitHandler.entry_packDocument_of_ne (by decide) (by decide) (by decide)
  rw [query_of_known hk, giveAll, Reply.answer_andThen, answer_giveSearch (by rw [h.search]; rfl), hsearch,
    Settings.readParts]
  -- The handlers of the later parts are still fresh when their turn comes.
  congr 1
  funext _
  obtain ⟨searched, hstate⟩ := state_giveSearch p (LimitHandler.packDocument q)
  rw [hstate, Reply.answer_andThen, answer_giveFilter (by rw [h.filter]; rfl), hfilter]
  congr 1
  funext _
  obtain ⟨filtered, hstate⟩ :=
    state_giveFilter { p with search := searched } (LimitHandler.packDocument q)
  rw [hstate, Reply.answer_andThen, answer_giveSort (by rw [h.sort]; rfl), hsort]
  congr 1
  funext _
  obtain ⟨sorted, hstate⟩ :=
    state_giveSort { p with search := searched, filter := filtered } (LimitHandler.packDocument q)
  rw [hstate, Reply.answer_andThen,
    answer_giveLimit (by rw [h.limit]; rfl) (get?_of_known hk (by decide))]
  obtain ⟨paged, hstate⟩ :=
    state_giveLimit { p with search := searched, filter := filtered, sort := sorted }
      (LimitHandler.packDocument q)
  rw [hstate]
  have hcount (k : LimitHandler) :
      (give "count" (LimitHandler.packDocument q) inputCount
        { p with search := searched, filter := filtered, sort := sorted, limit := k }).answer = .ok () :=
    answer_giveCount (by rw [h.count]; rfl) (entry_count_packDocument hk)
  rw [hcount]
  cases p.settings.allow "limit" (Value.entry (LimitHandler.packDocument q) "limit") <;> rfl

/-- The parts that are switched on are those that the settings leave on. -/
theorem isEnabled_of_init {settings : Value} {part : String} (h : init settings = .ok p)
    (hp : part ∈ ["search", "filter", "sort", "limit", "count"]) :
    p.settings.isEnabled part = Settings.leavesOn (settingsTable settings) part := by
  simp only [init, bind_eq_ok_iff] at h
  obtain ⟨s, hs, filter, -, limit, -, -, -, h⟩ := h
  have hoff : s.off = [] := Settings.off_of_ofValue hs
  have htable : s.table = settingsTable settings := table_of_settings hs
  cases h
  have hnew : s.isEnabled part = true := by simp [Settings.isEnabled, hoff]
  simp only [Settings.isEnabled_route, Settings.table_route, hnew, htable]
  simp only [List.mem_cons, List.not_mem_nil, or_false] at hp
  rcases hp with rfl | rfl | rfl | rfl | rfl <;> simp

end Pipeline
end GridQuery

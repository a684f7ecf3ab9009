import GridQuery.Proofs.HelperSessions

/-! # Copies of unused pipelines are independent

Members of a family share accepted input through their marks. As long as copies are only taken of members
that have had no input, the mark of a member is its own place: a merge into one member reaches no other.
Then each member answers as a pipeline of its own that gets the calls on this member alone. -/
namespace GridQuery.IndependentCopies
open HelperSessions

/-- The member that a call is made on, unless the call is a copy. -/
def owner? : FamilyCall → Option Nat
  | .copy _ => none
  | .ask i _ => some i
  | .merge i _ _ => some i

/-- The calls on one member, made on the only member of a family. -/
def callsOf (i : Nat) (calls : List FamilyCall) : List FamilyCall :=
  (calls.filter fun c => owner? c == some i).map (.redirect 0)

def answersOf (i : Nat) : PipelineFamily → List FamilyCall → List (Except Error PipelineAnswer)
  | _, [] => []
  | f, c :: calls =>
    if owner? c = some i then (f.call c).answer :: answersOf i (f.call c).state calls
    else answersOf i (f.call c).state calls

/-- A call is on a member, and a copy is of one none of whose handlers has had its input. -/
def UnusedIfCopied (f : PipelineFamily) : FamilyCall → Prop
  | .copy i => f[i]?.map (fun r => r.pipeline.received) = some []
  | .ask i _ => i < f.length
  | .merge i _ _ => i < f.length

instance (f : PipelineFamily) (c : FamilyCall) : Decidable (UnusedIfCopied f c) :=
  match c with
  | .copy _ => inferInstanceAs (Decidable (_ = _))
  | .ask i _ => inferInstanceAs (Decidable (i < f.length))
  | .merge i _ _ => inferInstanceAs (Decidable (i < f.length))

def CopiesUnused : PipelineFamily → List FamilyCall → Prop
  | _, [] => True
  | f, c :: calls => UnusedIfCopied f c ∧ CopiesUnused (f.call c).state calls

instance decidableCopiesUnused : ∀ (f : PipelineFamily) (calls : List FamilyCall),
    Decidable (CopiesUnused f calls)
  | _, [] => isTrue trivial
  | f, c :: calls => @instDecidableAnd _ _ _ (decidableCopiesUnused (f.call c).state calls)

/-! ## A pipeline that shares nothing -/

def mergeAlone (p : Pipeline) : Mergeable → Value → Reply Pipeline PipelineAnswer
  | .filter, v =>
    match p.filter.merged v with
    | .error e => ⟨.error e, p⟩
    | .ok es => ⟨.ok .done, { p with filter := { p.filter with expressions := some es } }⟩
  | .sort, v =>
    match p.sort.merged v with
    | .error e => ⟨.error e, p⟩
    | .ok s => ⟨.ok .done, { p with sort := { p.sort with spec := some s } }⟩

/-- A call as a pipeline takes it that shares nothing, at whatever place. -/
def callAlone (p : Pipeline) : FamilyCall → Reply Pipeline PipelineAnswer
  | .copy _ => ⟨.error .shape, p⟩
  | .ask _ c => p.call c
  | .merge _ part v => mergeAlone p part v

def answersAlone : Pipeline → List FamilyCall → List (Except Error PipelineAnswer)
  | _, [] => []
  | p, c :: calls => (callAlone p c).answer :: answersAlone (callAlone p c).state calls

@[simp] theorem callAlone_redirect (p : Pipeline) (i : Nat) (c : FamilyCall) :
    callAlone p (c.redirect i) = callAlone p c := by
  cases c <;> rfl

theorem mergeAlone_of_untouched {p : Pipeline} (h : p.Untouched) (part : Mergeable) (v : Value) :
    mergeAlone p part v = ⟨.error .shape, p⟩ := by
  cases part with
  | filter => simp [mergeAlone, FilterHandler.merged, h.expressions]
  | sort => simp [mergeAlone, SortHandler.merged, h.sort, SortHandler.init]

theorem spent_mergeAlone {p : Pipeline} (h : p.Spent) (part : Mergeable) (v : Value) :
    (mergeAlone p part v).state.Spent := by
  cases part with
  | filter =>
    rw [mergeAlone]
    split <;> exact h
  | sort =>
    rw [mergeAlone]
    split <;> exact h

def MadeOrSpent (p q : Pipeline) : Prop := q = p ∨ q.Spent

theorem MadeOrSpent.callAlone {p q : Pipeline} (hp : p.Untouched) (h : MadeOrSpent p q) (c : FamilyCall) :
    MadeOrSpent p (callAlone q c).state := by
  rcases h with rfl | h
  · cases c with
    | copy i => exact Or.inl rfl
    | ask i c => exact hp.state_call c
    | merge i part v =>
      rw [IndependentCopies.callAlone, mergeAlone_of_untouched hp]
      exact Or.inl rfl
  · refine Or.inr ?_
    cases c with
    | copy i => exact h
    | ask i c =>
      rw [IndependentCopies.callAlone, h.state_call]
      exact h
    | merge i part v => exact spent_mergeAlone h part v

theorem MadeOrSpent.eq_of_unused {p q : Pipeline} (h : MadeOrSpent p q) (hq : q.received = []) : q = p := by
  rcases h with h | h
  · exact h
  · exact absurd hq h.received_ne_nil

/-! ## Families whose members share nothing -/

def Separate (f : PipelineFamily) : Prop :=
  ∀ (i : Nat) (r : PipelineRelative), f[i]? = some r → r.filterMark = i ∧ r.sortMark = i

variable {f : PipelineFamily} {i : Nat} {r : PipelineRelative}

theorem map_marked_eq_set {mark : PipelineRelative → Nat} (hm : ∀ j s, f[j]? = some s → mark s = j)
    (hi : f[i]? = some r) (g : PipelineRelative → PipelineRelative) :
    (f.map fun s => if mark s = mark r then g s else s) = f.set i (g r) := by
  apply List.ext_getElem?
  intro j
  rw [List.getElem?_map, List.getElem?_set, hm i r hi]
  by_cases hj : i = j
  · subst hj
    have hlt : i < f.length := PipelineFamily.lt_length hi
    rw [hi]
    simp [hm i r hi, hlt]
  · cases hs : f[j]? with
    | none => simp [hj]
    | some s => simp [hj, hm j s hs, Ne.symm hj]

/-- A call on a member is the call on a pipeline of its own, put back in its place. -/
theorem call_of_separate (hf : Separate f) (hi : f[i]? = some r) {c : FamilyCall} (hc : owner? c = some i) :
    f.call c = (callAlone r.pipeline c).within fun p => f.set i { r with pipeline := p } := by
  cases c with
  | copy j => cases hc
  | ask j c =>
    cases hc
    exact PipelineFamily.ask_of_member hi c
  | merge j part v =>
    cases hc
    cases part with
    | filter =>
      rw [PipelineFamily.call, PipelineFamily.merge_filter hi, callAlone, mergeAlone]
      cases r.pipeline.filter.merged v with
      | error e =>
        simp only [Reply.within, Reply.map, Except.map, PipelineFamily.set_self hi]
      | ok es =>
        have hshare := map_marked_eq_set (fun j s hs => (hf j s hs).1) hi fun s => { s with
          pipeline := { s.pipeline with filter := { s.pipeline.filter with expressions := some es } } }
        exact congrArg (Reply.mk _) hshare
    | sort =>
      rw [PipelineFamily.call, PipelineFamily.merge_sort hi, callAlone, mergeAlone]
      cases r.pipeline.sort.merged v with
      | error e =>
        simp only [Reply.within, Reply.map, Except.map, PipelineFamily.set_self hi]
      | ok spec =>
        have hshare := map_marked_eq_set (fun j s hs => (hf j s hs).2) hi fun s => { s with
          pipeline := { s.pipeline with sort := { s.pipeline.sort with spec := some spec } } }
        exact congrArg (Reply.mk _) hshare

/-- The members share nothing, and each is as it was made or spent. -/
structure Apart (p : Pipeline) (f : PipelineFamily) : Prop where
  separate : Separate f
  members : ∀ r ∈ f, MadeOrSpent p r.pipeline

/-- The pipeline at a place; at a free one, as it will be made. -/
def pipelineAt (p : Pipeline) (f : PipelineFamily) (i : Nat) : Pipeline :=
  match f[i]? with
  | some r => r.pipeline
  | none => p

variable {p : Pipeline}

theorem apart_single (p : Pipeline) : Apart p (PipelineFamily.single p) where
  separate i r hi := by
    cases i with
    | zero => cases hi; exact ⟨rfl, rfl⟩
    | succ i => cases hi
  members r hr := by
    rw [List.mem_singleton.mp hr]
    exact Or.inl rfl

theorem pipelineAt_of_member (hi : f[i]? = some r) : pipelineAt p f i = r.pipeline := by
  rw [pipelineAt, hi]

theorem pipelineAt_set (hi : f[i]? = some r) (q : Pipeline) (j : Nat) :
    pipelineAt p (f.set i { r with pipeline := q }) j = if i = j then q else pipelineAt p f j := by
  have hlt : i < f.length := PipelineFamily.lt_length hi
  rw [pipelineAt, List.getElem?_set]
  by_cases hj : i = j
  · simp [← hj, hlt]
  · simp [hj, pipelineAt]

theorem Separate.set (hf : Separate f) (hi : f[i]? = some r) (q : Pipeline) :
    Separate (f.set i { r with pipeline := q }) := by
  intro j s hs
  rw [List.getElem?_set] at hs
  by_cases hj : i = j
  · subst hj
    have hlt : i < f.length := PipelineFamily.lt_length hi
    rw [if_pos rfl, if_pos hlt] at hs
    cases hs
    exact hf i r hi
  · rw [if_neg hj] at hs
    exact hf j s hs

theorem Apart.set (h : Apart p f) (hi : f[i]? = some r) {q : Pipeline} (hq : MadeOrSpent p q) :
    Apart p (f.set i { r with pipeline := q }) where
  separate := h.separate.set hi q
  members s hs := by
    rcases List.mem_or_eq_of_mem_set hs with hs | rfl
    · exact h.members s hs
    · exact hq

theorem Apart.call (hp : p.Untouched) (h : Apart p f) (hi : f[i]? = some r) {c : FamilyCall}
    (hc : owner? c = some i) : Apart p (f.call c).state := by
  rw [call_of_separate h.separate hi hc]
  exact h.set hi ((h.members r (List.mem_of_getElem? hi)).callAlone hp c)

theorem copy_of_unused (hp : p.Untouched) (h : Apart p f) (hi : f[i]? = some r)
    (hr : r.pipeline.received = []) : f.copy i = ⟨.ok f.length, f ++ [⟨f.length, f.length, p⟩]⟩ := by
  have hmade : r.pipeline = p := (h.members r (List.mem_of_getElem? hi)).eq_of_unused hr
  subst hmade
  exact PipelineFamily.copy_of_untouched hi hp

theorem Apart.copy (h : Apart p f) : Apart p (f ++ [⟨f.length, f.length, p⟩]) where
  separate j s hs := by
    rcases Nat.lt_trichotomy j f.length with hj | rfl | hj
    · rw [List.getElem?_append_left hj] at hs
      exact h.separate j s hs
    · rw [List.getElem?_concat_length] at hs
      cases hs
      exact ⟨rfl, rfl⟩
    · rw [List.getElem?_eq_none (by simp; omega)] at hs
      cases hs
  members s hs := by
    rcases List.mem_append.mp hs with hs | hs
    · exact h.members s hs
    · rw [List.mem_singleton.mp hs]
      exact Or.inl rfl

theorem pipelineAt_copy (p : Pipeline) (f : PipelineFamily) (j : Nat) :
    pipelineAt p (f ++ [⟨f.length, f.length, p⟩]) j = pipelineAt p f j := by
  unfold pipelineAt
  rcases Nat.lt_trichotomy j f.length with hj | rfl | hj
  · rw [List.getElem?_append_left hj]
  · simp
  · rw [List.getElem?_eq_none (by simp; omega), List.getElem?_eq_none (by omega)]

theorem callsOf_cons (i : Nat) (c : FamilyCall) (calls : List FamilyCall) : callsOf i (c :: calls) =
    if owner? c = some i then c.redirect 0 :: callsOf i calls else callsOf i calls := by
  by_cases hc : owner? c = some i <;> simp [callsOf, hc]

/-- Each member answers as a pipeline that shares nothing and gets its calls alone. -/
theorem answersOf_eq_alone (hp : p.Untouched) {calls : List FamilyCall} (h : Apart p f)
    (hc : CopiesUnused f calls) (i : Nat) :
    answersOf i f calls = answersAlone (pipelineAt p f i) (callsOf i calls) := by
  induction calls generalizing f with
  | nil => rfl
  | cons c calls ih =>
    obtain ⟨hvalid, hrest⟩ := hc
    rw [answersOf, callsOf_cons]
    cases howner : owner? c with
    | none =>
      cases c with
      | copy j =>
        obtain ⟨r, hj, hr⟩ := Option.map_eq_some_iff.mp hvalid
        have hstate : (f.call (.copy j)).state = f ++ [⟨f.length, f.length, p⟩] := by
          rw [PipelineFamily.call, copy_of_unused hp h hj hr]
          rfl
        rw [hstate] at hrest ⊢
        rw [if_neg (by simp), if_neg (by simp), ih h.copy hrest, pipelineAt_copy]
      | _ => cases howner
    | some j =>
      obtain ⟨r, hj⟩ : ∃ r, f[j]? = some r := by
        have hlt : j < f.length := by
          cases c with
          | copy k => cases howner
          | ask k c => cases howner; exact hvalid
          | merge k part v => cases howner; exact hvalid
        exact ⟨f[j], List.getElem?_eq_getElem hlt⟩
      have hapart := h.call hp hj howner
      rw [ih hapart hrest, call_of_separate h.separate hj howner]
      by_cases hji : j = i
      · subst hji
        rw [if_pos rfl, if_pos rfl, answersAlone, callAlone_redirect, pipelineAt_of_member hj]
        simp only [Reply.answer_within, Reply.state_within, pipelineAt_set hj, if_pos]
      · have hne : ¬some j = some i := fun h => hji (Option.some.inj h)
        rw [if_neg hne, if_neg hne, Reply.state_within, pipelineAt_set hj, if_neg hji]

theorem owner?_of_mem_callsOf {c : FamilyCall} {calls : List FamilyCall} (h : c ∈ callsOf i calls) :
    owner? c = some 0 := by
  obtain ⟨c, hc, rfl⟩ := List.mem_map.mp h
  have hi : owner? c = some i := by simpa using (List.mem_filter.mp hc).2
  cases c with
  | copy j => cases hi
  | _ => rfl

theorem answersOf_of_owner {calls : List FamilyCall} (hf : Separate f) (hi : f[i]? = some r)
    (hc : ∀ c ∈ calls, owner? c = some i) : answersOf i f calls = answersAlone r.pipeline calls := by
  induction calls generalizing f r with
  | nil => rfl
  | cons c calls ih =>
    have howner : owner? c = some i := hc c List.mem_cons_self
    have hlt : i < f.length := PipelineFamily.lt_length hi
    rw [answersOf, if_pos howner, call_of_separate hf hi howner, answersAlone, Reply.answer_within,
      Reply.state_within]
    congr 1
    exact ih (hf.set hi _) (List.getElem?_set_self hlt) fun c' hc' => hc c' (List.mem_cons_of_mem _ hc')

theorem answersOf_single (p : Pipeline) (calls : List FamilyCall) (i : Nat) :
    answersOf 0 (PipelineFamily.single p) (callsOf i calls) = answersAlone p (callsOf i calls) :=
  answersOf_of_owner (apart_single p).separate rfl fun _ => owner?_of_mem_callsOf

/-- As long as copies are only taken of unused members, each member answers as a pipeline of its own with
the same settings that gets its calls alone. In a session of a helper, each query object therefore has the
result that a helper just made has for it, then and after any further query objects. -/
theorem copies_answer_alone {settings : Value} (hp : Pipeline.init settings = .ok p) :
    (∀ calls, CopiesUnused (.single p) calls → ∀ i,
      answersOf i (.single p) calls = answersOf 0 (.single p) (callsOf i calls)) ∧
    ∀ c, Crud.init settings = .ok c → ∀ (store : Store) (before later : List HelperCall) (q : Value),
      let s := (Session.start c store).after before
      (∀ collection, ((s.list collection q).answer, (s.list collection q).state.store) =
        c.list collection q s.store) ∧
      ((∀ i call, .use i call ∉ later) →
        ((s.query q).state.after later).result (s.query q).answer = c.query q) := by
  constructor
  · intro calls hcalls i
    have huntouched : p.Untouched := Pipeline.untouched_of_init hp
    have hfresh : pipelineAt p (.single p) i = p := by cases i <;> rfl
    rw [answersOf_single, answersOf_eq_alone huntouched (apart_single p) hcalls, hfresh]
  · intro c hc store before later q s
    have huntouched : c.pipeline.Untouched := Pipeline.untouched_of_init (Crud.init_eq_ok hc)
    have hkept : Kept c.pipeline s.family := Kept.after huntouched (kept_single c.pipeline) before
    constructor
    · intro collection
      exact (hkept.list huntouched collection q).2
    · intro hlater
      have hquery : Answered c.pipeline s (c.query q) (s.query q) := hkept.query huntouched q
      exact hquery.result _ (hquery.kept.prefix_after huntouched hlater)

/-- Two copies that are asked in turns, the one with a filter that grows, the other with a refused query. -/
def interleaved : List FamilyCall :=
  [.copy 0, .copy 0, .ask 1 (.query [("page", .int 1)]), .ask 2 (.query [("sort", .int 1)]),
    .merge 1 .filter (.array [.document [("field", .text "Name"), ("operator", .text "is empty")]]),
    .ask 2 .finalQuery, .ask 1 .stages]

/-- A refused query object, an accepted one, and a merge into its result. -/
def busySession : List HelperCall :=
  [.query (.document [("sort", .int 1)]), .list "shop.phones" (.document [("page", .int 1)]),
    .use 1 (.merge 0 .filter (.array [.document [("field", .text "Name"), ("operator", .text "is empty")]]))]

theorem copies_answer_alone_interleaved : ∃ p c, Pipeline.init (.document []) = .ok p ∧
    Crud.init (.document []) = .ok c ∧
    answersOf 1 (.single p) interleaved = answersOf 0 (.single p) [.ask 0 (.query [("page", .int 1)]),
      .merge 0 .filter (.array [.document [("field", .text "Name"), ("operator", .text "is empty")]]),
      .ask 0 .stages] ∧
    (((Session.start c .empty).after busySession).query (.document [("page", .int 2)])).state.result
      (((Session.start c .empty).after busySession).query (.document [("page", .int 2)])).answer =
        c.query (.document [("page", .int 2)]) := by
  have hok : ((Pipeline.init (.document [])).bind fun p =>
      if CopiesUnused (.single p) interleaved then .ok () else .error .shape).isOk = true := by decide +kernel
  have hhelper : (Crud.init (.document [])).isOk = true := by decide +kernel
  obtain ⟨a, hok⟩ := exists_of_isOk hok
  obtain ⟨p, hp, hcalls⟩ := bind_eq_ok_iff.mp hok
  obtain ⟨c, hc⟩ := exists_of_isOk hhelper
  have hunused : CopiesUnused (.single p) interleaved := by
    by_cases h : CopiesUnused (.single p) interleaved
    · exact h
    · rw [if_neg h] at hcalls
      cases hcalls
  obtain ⟨hmembers, hsessions⟩ := copies_answer_alone hp
  obtain ⟨-, hresult⟩ := hsessions c hc .empty busySession [] (.document [("page", .int 2)])
  exact ⟨p, c, hp, hc, hmembers interleaved hunused 1, hresult (by simp)⟩

end GridQuery.IndependentCopies

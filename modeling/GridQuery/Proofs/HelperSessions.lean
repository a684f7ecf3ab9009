import GridQuery.Proofs.PipelineCalls

/-! # Sessions of a helper

A helper keeps one pipeline and gives each query object to a copy of it. Whatever becomes of the copies,
the pipeline that is kept stays untouched and shares nothing, so that each query object is answered as by
a helper that was just made. -/
namespace GridQuery

/-- A query object for a helper, or a call on the copy that a query object was given to. -/
inductive HelperCall
  | query (q : Value)
  | list (collection : String) (q : Value)
  | use (i : Nat) (c : FamilyCall)

/-- The pipeline of a helper with all copies of it, and the store. -/
structure Session where
  family : PipelineFamily
  store : Store

namespace Session

def start (c : Crud) (store : Store) : Session := ⟨.single c.pipeline, store⟩

/-- Gives a query object to a copy; the answer is its place. -/
def query (s : Session) (q : Value) : Reply Session Nat :=
  let run (fields : Document) : Reply Session Nat :=
    ((s.family.copy 0).andThen fun f i => (f.query i fields).map fun _ => i).within
      fun f => { s with family := f }
  match q with
  | .null => run []
  | .document fields => run fields
  | _ => ⟨.error (.query .queryShape), s⟩

def result (s : Session) (answer : Except Error Nat) : Except Error Pipeline :=
  answer.bind fun i => match s.family[i]? with
    | none => .error .shape
    | some r => .ok r.pipeline

def list (s : Session) (collection : String) (q : Value) : Reply Session CountedPage.Result :=
  let r := s.query q
  match (r.state.result r.answer).bind fun p => p.countedPage (some collection) with
  | .error e => ⟨.error e, r.state⟩
  | .ok page => (page.page s.store).within fun t => { r.state with store := t.2 }

/-- The state after a call. The pipeline that the helper keeps has the first place, its copies come
after. -/
def step (s : Session) : HelperCall → Session
  | .query q => (s.query q).state
  | .list collection q => (s.list collection q).state
  | .use i c => { s with family := (s.family.call (c.redirect (i + 1))).state }

def after (s : Session) (calls : List HelperCall) : Session := calls.foldl step s

@[simp] theorem after_nil (s : Session) : s.after [] = s := rfl

@[simp] theorem after_cons (s : Session) (c : HelperCall) (calls : List HelperCall) :
    s.after (c :: calls) = (s.step c).after calls := rfl

end Session

namespace HelperSessions

/-! ## The pipeline that is kept -/

/-- The first member is as it was made, and no other shares anything with it. -/
def Kept (p : Pipeline) (f : PipelineFamily) : Prop :=
  ∃ copies : PipelineFamily, f = ⟨0, 0, p⟩ :: copies ∧ ∀ r ∈ copies, r.filterMark ≠ 0 ∧ r.sortMark ≠ 0

variable {p : Pipeline} {f : PipelineFamily}

theorem kept_single (p : Pipeline) : Kept p (.single p) := ⟨[], rfl, by simp⟩

theorem Kept.append (h : Kept p f) {r : PipelineRelative} (hr : r.filterMark ≠ 0 ∧ r.sortMark ≠ 0) :
    Kept p (f ++ [r]) := by
  obtain ⟨copies, rfl, hcopies⟩ := h
  refine ⟨copies ++ [r], rfl, ?_⟩
  intro r' hr'
  rcases List.mem_append.mp hr' with hr' | hr'
  · exact hcopies r' hr'
  · rw [List.mem_singleton.mp hr']
    exact hr

theorem Kept.length_ne_zero (h : Kept p f) : f.length ≠ 0 := by
  obtain ⟨copies, rfl, -⟩ := h
  exact Nat.succ_ne_zero copies.length

theorem Kept.set (h : Kept p f) {i : Nat} {r : PipelineRelative} (hi : f[i + 1]? = some r) (q : Pipeline) :
    Kept p (f.set (i + 1) { r with pipeline := q }) := by
  obtain ⟨copies, rfl, hcopies⟩ := h
  refine ⟨copies.set i { r with pipeline := q }, rfl, ?_⟩
  intro r' hr'
  rcases List.mem_or_eq_of_mem_set hr' with hr' | rfl
  · exact hcopies r' hr'
  · exact hcopies r (List.mem_of_getElem? hi)

/-- What changes only members with a mark of the copies does not change the first. -/
theorem Kept.map (h : Kept p f) {g : PipelineRelative → PipelineRelative}
    (hfirst : g ⟨0, 0, p⟩ = ⟨0, 0, p⟩)
    (hmarks : ∀ r, (g r).filterMark = r.filterMark ∧ (g r).sortMark = r.sortMark) : Kept p (f.map g) := by
  obtain ⟨copies, rfl, hcopies⟩ := h
  refine ⟨copies.map g, by rw [List.map_cons, hfirst], ?_⟩
  intro r' hr'
  obtain ⟨r, hr, rfl⟩ := List.mem_map.mp hr'
  rw [(hmarks r).1, (hmarks r).2]
  exact hcopies r hr

theorem Kept.marks_ne_zero (h : Kept p f) {i : Nat} {r : PipelineRelative} (hi : f[i + 1]? = some r) :
    r.filterMark ≠ 0 ∧ r.sortMark ≠ 0 := by
  obtain ⟨copies, rfl, hcopies⟩ := h
  exact hcopies r (List.mem_of_getElem? hi)

/-- Whatever is asked of another member, a copy of it shares nothing with the first one either. -/
theorem Kept.call (h : Kept p f) (i : Nat) (c : FamilyCall) : Kept p (f.call (c.redirect (i + 1))).state := by
  cases c with
  | copy j =>
    rcases f.state_copy (i + 1) with hs | ⟨r, filterMark, sortMark, hi, hfilter, hsort, hs⟩
    · rw [FamilyCall.redirect, hs]
      exact h
    · rw [FamilyCall.redirect, hs]
      have hr := h.marks_ne_zero hi
      apply h.append
      constructor
      · rcases hfilter with rfl | rfl
        · exact hr.1
        · exact h.length_ne_zero
      · rcases hsort with rfl | rfl
        · exact hr.2
        · exact h.length_ne_zero
  | ask j c =>
    rcases f.state_ask (i + 1) c with hs | ⟨r, hi, hs⟩
    · rw [FamilyCall.redirect, hs]
      exact h
    · rw [FamilyCall.redirect, hs]
      exact h.set hi _
  | merge j part v =>
    rcases f.state_merge (i + 1) part v with hs | ⟨r, hi, ⟨es, -, hs⟩ | ⟨spec, -, hs⟩⟩
    · rw [FamilyCall.redirect, hs]
      exact h
    · rw [FamilyCall.redirect, hs]
      refine h.map (if_neg (h.marks_ne_zero hi).1.symm) ?_
      intro r'
      split <;> exact ⟨rfl, rfl⟩
    · rw [FamilyCall.redirect, hs]
      refine h.map (if_neg (h.marks_ne_zero hi).2.symm) ?_
      intro r'
      split <;> exact ⟨rfl, rfl⟩

/-! ## Query objects -/

theorem Kept.query_copy (hp : p.Untouched) (h : Kept p f) (fields : Document) :
    ((f.copy 0).andThen fun f i => (f.query i fields).map fun _ => i) =
      ((p.query fields).map fun _ => f.length).within fun q => f ++ [⟨f.length, f.length, q⟩] := by
  obtain ⟨copies, rfl, -⟩ := h
  rw [PipelineFamily.copy_of_untouched rfl hp, Reply.andThen_ok,
    PipelineFamily.query_of_member List.getElem?_concat_length]
  simp [Reply.within, Reply.map]

variable {s : Session}

/-- What is left of a session after a query object: the earlier members are as they were, and as long as
the result is not used it is that of a helper just made. -/
structure Answered (p : Pipeline) (s : Session) (result : Except Error Pipeline) (r : Reply Session Nat) :
    Prop where
  kept : Kept p r.state.family
  earlier : s.family <+: r.state.family
  store : r.state.store = s.store
  result : ∀ t : Session, r.state.family <+: t.family → t.result r.answer = result

theorem Kept.query (hp : p.Untouched) (h : Kept p s.family) (q : Value) :
    Answered p s ((Crud.mk p).query q) (s.query q) := by
  have hrun (fields : Document) :
      Answered p s ((p.query fields).answer.map fun _ => (p.query fields).state)
        (((s.family.copy 0).andThen fun f i => (f.query i fields).map fun _ => i).within
          fun f => { s with family := f }) := by
    rw [h.query_copy hp]
    refine ⟨h.append ⟨h.length_ne_zero, h.length_ne_zero⟩, List.prefix_append _ _, rfl, ?_⟩
    rintro t ⟨more, hmore⟩
    simp only [Reply.state_within] at hmore
    cases ha : (p.query fields).answer with
    | error e => simp [Session.result, ha, Except.map, Except.bind]
    | ok a => simp [Session.result, ha, Except.map, Except.bind, ← hmore]
  have hshape : Answered p s (.error (.query .queryShape)) ⟨.error (.query .queryShape), s⟩ :=
    ⟨h, List.prefix_rfl, rfl, fun _ _ => rfl⟩
  cases q with
  | null => exact hrun []
  | document fields => exact hrun fields
  | _ => exact hshape

/-- A page is that of a helper just made, and the store is asked the same. -/
theorem Kept.list (hp : p.Untouched) (h : Kept p s.family) (collection : String) (q : Value) :
    (s.list collection q).state.family = (s.query q).state.family ∧
      ((s.list collection q).answer, (s.list collection q).state.store) =
        (Crud.mk p).list collection q s.store := by
  have hquery := h.query hp q
  rw [Session.list, hquery.result _ List.prefix_rfl, Crud.list_eq]
  cases ((Crud.mk p).query q).bind fun p => p.countedPage (some collection) with
  | error e => exact ⟨rfl, congrArg (Prod.mk _) hquery.store⟩
  | ok page => exact ⟨rfl, rfl⟩

theorem Kept.step (hp : p.Untouched) (h : Kept p s.family) (c : HelperCall) : Kept p (s.step c).family := by
  cases c with
  | query q => exact (h.query hp q).kept
  | list collection q =>
    rw [Session.step, (h.list hp collection q).1]
    exact (h.query hp q).kept
  | use i c => exact h.call i c

theorem Kept.after (hp : p.Untouched) (h : Kept p s.family) (calls : List HelperCall) :
    Kept p (s.after calls).family := by
  induction calls generalizing s with
  | nil => exact h
  | cons c calls ih => exact ih (h.step hp c)

theorem Kept.prefix_after (hp : p.Untouched) (h : Kept p s.family) {calls : List HelperCall}
    (hc : ∀ i c, .use i c ∉ calls) : s.family <+: (s.after calls).family := by
  induction calls generalizing s with
  | nil => exact List.prefix_rfl
  | cons c calls ih =>
    have hstep : s.family <+: (s.step c).family := by
      cases c with
      | query q => exact (h.query hp q).earlier
      | list collection q =>
        rw [Session.step, (h.list hp collection q).1]
        exact (h.query hp q).earlier
      | use i c => exact absurd List.mem_cons_self (hc i c)
    exact hstep.trans (ih (h.step hp c) fun i c' hc' => hc i c' (List.mem_cons_of_mem _ hc'))

end HelperSessions
end GridQuery

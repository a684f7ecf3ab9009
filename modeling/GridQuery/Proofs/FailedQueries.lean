import GridQuery.Proofs.PipelineCalls

/-! # Failed queries fail closed

In a sequence of calls on one pipeline, queries may be refused without a trace until one of them gives a
handler its input. That query settles everything: if it was accepted, the pipeline has the stages of this
query object from then on; if not, it never has any. All later queries are refused. -/
namespace GridQuery.FailedQueries

/-- The query fails, and no handler has had any input from it. -/
def RefusedUnread (p : Pipeline) (q : Document) : Prop := ∃ e, p.query q = ⟨.error e, p⟩

variable {p : Pipeline} {q : Document}

/-- A query that is not refused unread spends the pipeline, and opens the window iff it is accepted. -/
theorem spent_of_read (h : p.Untouched) (hq : ¬RefusedUnread p q) : (p.query q).state.Spent ∧
    ((p.query q).answer = .ok () ↔ (p.query q).state.limit.window.isSome) := by
  have hquery := h.query q
  cases hr : p.query q with
  | mk answer s =>
    rw [hr] at hquery
    cases answer with
    | ok a =>
      obtain ⟨text, es, spec, -, -, -, rfl⟩ := hquery
      exact ⟨rfl, by simp [Pipeline.taken]⟩
    | error e =>
      rcases hquery with hsame | ⟨hspent, hwindow⟩
      · exact absurd ⟨e, by rw [hr]; exact congrArg _ hsame⟩ hq
      · have hwindow : s.limit.window = none := hwindow
        exact ⟨hspent, by simp [hwindow]⟩

theorem isOk_stages_iff : (∃ stages, p.stages = .ok stages) ↔ p.limit.window.isSome := by
  cases hw : p.limit.window with
  | none => simp [Pipeline.stages_of_closed hw]
  | some w => simp [Pipeline.stages_of_window hw]

theorem isOk_countedPage_iff {collection : Option String} :
    (∃ page, p.countedPage collection = .ok page) ↔ ∃ stages, p.stages = .ok stages := by
  unfold Pipeline.countedPage
  cases p.stages <;> simp [Except.map]

theorem after_of_refused {calls : List PipelineCall} (h : ∀ q, .query q ∈ calls → RefusedUnread p q) :
    p.after calls = p := by
  induction calls with
  | nil => rfl
  | cons c calls ih =>
    have hc : (p.call c).state = p := by
      cases c with
      | query q =>
        obtain ⟨e, hq⟩ := h q List.mem_cons_self
        rw [Pipeline.state_call_query, hq]
      | _ => rfl
    rw [Pipeline.after_cons, hc, ih (fun q hq => h q (List.mem_cons_of_mem _ hq))]

theorem after_of_spent (h : p.Spent) (calls : List PipelineCall) : p.after calls = p :=
  after_of_refused fun q _ => h.query q

/-- The queries of a sequence are all refused unread, or there is a first one that is not. -/
theorem first_read (p : Pipeline) (calls : List PipelineCall) :
    (∀ q, .query q ∈ calls → RefusedUnread p q) ∨
    ∃ before q later, calls = before ++ .query q :: later ∧
      (∀ q', .query q' ∈ before → RefusedUnread p q') ∧ ¬RefusedUnread p q := by
  induction calls with
  | nil => exact Or.inl (by simp)
  | cons c calls ih =>
    by_cases hc : ∃ q, c = .query q ∧ ¬RefusedUnread p q
    · obtain ⟨q, rfl, hq⟩ := hc
      exact Or.inr ⟨[], q, calls, rfl, by simp, hq⟩
    · have hc : ∀ q, c = .query q → RefusedUnread p q := by simpa using hc
      rcases ih with ih | ⟨before, q, later, rfl, hbefore, hq⟩
      · refine Or.inl fun q hq => ?_
        rcases List.mem_cons.mp hq with rfl | hq
        · exact hc q rfl
        · exact ih q hq
      · refine Or.inr ⟨c :: before, q, later, rfl, fun q' hq' => ?_, hq⟩
        rcases List.mem_cons.mp hq' with rfl | hq'
        · exact hc q' rfl
        · exact hbefore q' hq'

theorem after_of_read (h : p.Untouched) {before later : List PipelineCall}
    (hbefore : ∀ q', .query q' ∈ before → RefusedUnread p q') (hq : ¬RefusedUnread p q) :
    p.after (before ++ .query q :: later) = (p.query q).state := by
  rw [Pipeline.after_append, after_of_refused hbefore, Pipeline.after_cons, Pipeline.state_call_query,
    after_of_spent (spent_of_read h hq).1]

theorem refused_of_accepted (h : p.Untouched) {before : List PipelineCall}
    (hq : ((p.after before).query q).answer = .ok ()) : ∀ q', .query q' ∈ before → RefusedUnread p q' := by
  rcases first_read p before with hbefore | ⟨b, q', b', rfl, hb, hread⟩
  · exact hbefore
  · rw [after_of_read h hb hread] at hq
    obtain ⟨e, he⟩ := (spent_of_read h hread).1.query q
    rw [he] at hq
    cases hq

theorem not_refused_of_accepted (hq : (p.query q).answer = .ok ()) : ¬RefusedUnread p q := by
  rintro ⟨e, he⟩
  rw [he] at hq
  cases hq

theorem isOk_after_iff (h : p.Untouched) {calls : List PipelineCall} :
    (∃ stages, (p.after calls).stages = .ok stages) ↔
      ∃ before q later, calls = before ++ .query q :: later ∧
        ((p.after before).query q).answer = .ok () := by
  rw [isOk_stages_iff]
  constructor
  · intro hw
    rcases first_read p calls with hall | ⟨before, q, later, rfl, hbefore, hread⟩
    · rw [after_of_refused hall, h.window] at hw
      cases hw
    · rw [after_of_read h hbefore hread] at hw
      refine ⟨before, q, later, rfl, ?_⟩
      rw [after_of_refused hbefore]
      exact (spent_of_read h hread).2.mpr hw
  · rintro ⟨before, q, later, rfl, hq⟩
    have hbefore := refused_of_accepted h hq
    rw [after_of_refused hbefore] at hq
    have hread := not_refused_of_accepted hq
    rw [after_of_read h hbefore hread]
    exact (spent_of_read h hread).2.mp hq

/-- Stages are had iff an earlier query was accepted. The queries before it failed without giving a handler
its input, those after it fail, and the stages are those of this query object on a fresh pipeline. If all
queries were refused, there are none. -/
theorem stages_iff_accepted {settings : Value} (hp : Pipeline.init settings = .ok p)
    (calls : List PipelineCall) (collection : Option String) :
    ((∃ stages, (p.after calls).stages = .ok stages) ↔
      ∃ before q later, calls = before ++ .query q :: later ∧
        ((p.after before).query q).answer = .ok ()) ∧
    ((∃ page, (p.after calls).countedPage collection = .ok page) ↔
      ∃ before q later, calls = before ++ .query q :: later ∧
        ((p.after before).query q).answer = .ok ()) ∧
    (∀ before q later, calls = before ++ .query q :: later →
      ((p.after before).query q).answer = .ok () →
      (p.query q).answer = .ok () ∧ (p.after calls).stages = (p.query q).state.stages ∧
      (p.after calls).countedPage collection = (p.query q).state.countedPage collection ∧
      (∀ b q' b', before = b ++ .query q' :: b' →
        (∃ e, ((p.after b).query q').answer = .error e) ∧ ((p.after b).query q').state.received = []) ∧
      (∀ a q' a', later = a ++ .query q' :: a' →
        ∃ e, ((p.after (before ++ .query q :: a)).query q').answer = .error e)) ∧
    ((∀ before q later, calls = before ++ .query q :: later →
        ∃ e, ((p.after before).query q).answer = .error e) →
      (p.after calls).stages = .error .shape ∧ (p.after calls).countedPage collection = .error .shape) := by
  have h := Pipeline.untouched_of_init hp
  refine ⟨isOk_after_iff h, isOk_countedPage_iff.trans (isOk_after_iff h), ?_, ?_⟩
  · rintro before q later rfl hq
    have hbefore := refused_of_accepted h hq
    rw [after_of_refused hbefore] at hq
    have hread := not_refused_of_accepted hq
    refine ⟨hq, by rw [after_of_read h hbefore hread], by rw [after_of_read h hbefore hread], ?_, ?_⟩
    · rintro b q' b' rfl
      have hb : ∀ q', .query q' ∈ b → RefusedUnread p q' := fun q' hq' =>
        hbefore q' (List.mem_append_left _ hq')
      obtain ⟨e, he⟩ := hbefore q' (List.mem_append_right _ List.mem_cons_self)
      rw [after_of_refused hb, he]
      exact ⟨⟨e, rfl⟩, h.received_eq_nil⟩
    · rintro a q' a' -
      rw [after_of_read h hbefore hread]
      obtain ⟨e, he⟩ := (spent_of_read h hread).1.query q'
      exact ⟨e, by rw [he]⟩
  · intro hrefused
    have hnone : ¬∃ stages, (p.after calls).stages = .ok stages := by
      rw [isOk_after_iff h]
      rintro ⟨before, q, later, hcalls, hq⟩
      obtain ⟨e, he⟩ := hrefused before q later hcalls
      rw [he] at hq
      cases hq
    have hclosed : (p.after calls).limit.window = none := by
      rw [isOk_stages_iff] at hnone
      simpa using hnone
    rw [Pipeline.countedPage, Pipeline.stages_of_closed hclosed]
    exact ⟨rfl, rfl⟩

/-- A search that is switched off, an accepted query, and a second one. -/
def retries : List PipelineCall :=
  [.query [("search", .text "phone")], .stages, .query [("page", .int 1)], .query [("page", .int 2)]]

theorem stages_iff_accepted_retries : ∃ p, Pipeline.init (.document [("search_enabled", .bool false)]) = .ok p ∧
    (p.query [("page", .int 1)]).answer = .ok () ∧ (∃ stages, (p.after retries).stages = .ok stages) ∧
    (p.after retries).stages = (p.query [("page", .int 1)]).state.stages ∧
    ∃ e, ((p.after (retries.take 3)).query [("page", .int 2)]).answer = .error e := by
  have hok : ((Pipeline.init (.document [("search_enabled", .bool false)])).bind fun p =>
      ((p.after (retries.take 2)).query [("page", .int 1)]).answer).isOk = true := by decide +kernel
  obtain ⟨a, hok⟩ := exists_of_isOk hok
  obtain ⟨p, hp, hq⟩ := bind_eq_ok_iff.mp hok
  obtain ⟨hiff, -, haccepted, -⟩ := stages_iff_accepted hp retries none
  obtain ⟨hfresh, hstages, -, -, hlater⟩ := haccepted (retries.take 2) _ _ rfl hq
  exact ⟨p, hp, hfresh, hiff.mpr ⟨_, _, _, rfl, hq⟩, hstages, hlater [] _ [] rfl⟩

end GridQuery.FailedQueries

import GridQuery.Crud.Collection
import GridQuery.Proofs.PipelineIntake

/-! # Sequences of calls on a pipeline, and on a pipeline with its copies -/
namespace GridQuery

/-- A call that a pipeline answers by itself. -/
inductive PipelineCall
  | query (q : Document)
  | stages
  | countedPage (collection : Option String)
  | finalQuery

inductive PipelineAnswer
  | done
  | stages (s : List Stage)
  | countedPage (c : CountedPage)
  | finalQuery (q : Document)
  /-- The place of a copy. -/
  | member (i : Nat)

namespace Pipeline

/-- Only a query object changes the state. -/
def call (p : Pipeline) : PipelineCall → Reply Pipeline PipelineAnswer
  | .query q => (p.query q).map fun _ => .done
  | .stages => ⟨p.stages.map .stages, p⟩
  | .countedPage collection => ⟨(p.countedPage collection).map .countedPage, p⟩
  | .finalQuery => ⟨p.finalQuery.map .finalQuery, p⟩

def after (p : Pipeline) (calls : List PipelineCall) : Pipeline :=
  calls.foldl (fun p c => (p.call c).state) p

@[simp] theorem after_nil (p : Pipeline) : p.after [] = p := rfl

@[simp] theorem after_cons (p : Pipeline) (c : PipelineCall) (calls : List PipelineCall) :
    p.after (c :: calls) = (p.call c).state.after calls := rfl

theorem after_append (p : Pipeline) (calls more : List PipelineCall) :
    p.after (calls ++ more) = (p.after calls).after more := List.foldl_append

@[simp] theorem state_call_query (p : Pipeline) (q : Document) :
    (p.call (.query q)).state = (p.query q).state := rfl

theorem Spent.state_call {p : Pipeline} (h : p.Spent) (c : PipelineCall) : (p.call c).state = p := by
  cases c with
  | query q =>
    obtain ⟨e, hq⟩ := h.query q
    rw [state_call_query, hq]
  | _ => rfl

theorem Untouched.state_call {p : Pipeline} (h : p.Untouched) (c : PipelineCall) :
    (p.call c).state = p ∨ (p.call c).state.Spent := by
  cases c with
  | query q =>
    exact ((h.query q).mono (fun _ hs => Or.inr hs.spent) (fun _ hs => hs.imp_right And.left)).state
  | _ => exact Or.inl rfl

end Pipeline

/-- A call on a member of a family of pipelines. -/
inductive FamilyCall
  | copy (i : Nat)
  | ask (i : Nat) (c : PipelineCall)
  | merge (i : Nat) (part : Mergeable) (v : Value)

def FamilyCall.redirect (i : Nat) : FamilyCall → FamilyCall
  | .copy _ => .copy i
  | .ask _ c => .ask i c
  | .merge _ part v => .merge i part v

namespace PipelineFamily

variable {f : PipelineFamily} {i : Nat} {r : PipelineRelative}

def ask (f : PipelineFamily) (i : Nat) : PipelineCall → Reply PipelineFamily PipelineAnswer
  | .query q => (f.query i q).map fun _ => .done
  | c => match f[i]? with
    | none => ⟨.error .shape, f⟩
    | some r => ⟨(r.pipeline.call c).answer, f⟩

def call (f : PipelineFamily) : FamilyCall → Reply PipelineFamily PipelineAnswer
  | .copy i => (f.copy i).map .member
  | .ask i c => f.ask i c
  | .merge i part v => (f.merge i part v).map fun _ => .done

def after (f : PipelineFamily) (calls : List FamilyCall) : PipelineFamily :=
  calls.foldl (fun f c => (f.call c).state) f

theorem copy_of_untouched (h : f[i]? = some r) (hr : r.pipeline.Untouched) :
    f.copy i = ⟨.ok f.length, f ++ [⟨f.length, f.length, r.pipeline⟩]⟩ := by
  simp [copy, h, hr.expressions, hr.sort, SortHandler.init]

theorem lt_length (h : f[i]? = some r) : i < f.length := (List.getElem?_eq_some_iff.mp h).1

theorem set_self (h : f[i]? = some r) : f.set i r = f := by
  obtain ⟨hlt, rfl⟩ := List.getElem?_eq_some_iff.mp h
  exact List.set_getElem_self hlt

theorem ask_of_none (h : f[i]? = none) (c : PipelineCall) : f.ask i c = ⟨.error .shape, f⟩ := by
  cases c <;> simp [ask, query, h, Reply.map, Except.map]

theorem ask_of_member (h : f[i]? = some r) (c : PipelineCall) :
    f.ask i c = (r.pipeline.call c).within fun p => f.set i { r with pipeline := p } := by
  cases c with
  | query q =>
    rw [ask, query_of_member h]
    rfl
  | _ =>
    simp only [ask, h, Pipeline.call, Reply.within]
    rw [set_self h]

/-! ## What a call does to a family -/

/-- A copy leaves a family as it is, or adds a member; its marks are those of its origin or its own. -/
theorem state_copy (f : PipelineFamily) (i : Nat) : (f.call (.copy i)).state = f ∨
    ∃ r filterMark sortMark, f[i]? = some r ∧ (filterMark = r.filterMark ∨ filterMark = f.length) ∧
      (sortMark = r.sortMark ∨ sortMark = f.length) ∧
      (f.call (.copy i)).state = f ++ [⟨filterMark, sortMark, r.pipeline⟩] := by
  rw [call, Reply.state_map, copy]
  cases hi : f[i]? with
  | none => exact Or.inl rfl
  | some r =>
    refine Or.inr ⟨r, _, _, rfl, ?_, ?_, rfl⟩
    · split
      · exact Or.inl rfl
      · exact Or.inr rfl
    · split
      · exact Or.inl rfl
      · exact Or.inr rfl

theorem state_ask (f : PipelineFamily) (i : Nat) (c : PipelineCall) : (f.call (.ask i c)).state = f ∨
    ∃ r, f[i]? = some r ∧
      (f.call (.ask i c)).state = f.set i { r with pipeline := (r.pipeline.call c).state } := by
  rw [call]
  cases hi : f[i]? with
  | none =>
    rw [ask_of_none hi]
    exact Or.inl rfl
  | some r =>
    rw [ask_of_member hi]
    exact Or.inr ⟨r, rfl, rfl⟩

/-- A merge that is accepted reaches all members that share the part. -/
theorem state_merge (f : PipelineFamily) (i : Nat) (part : Mergeable) (v : Value) :
    (f.call (.merge i part v)).state = f ∨ ∃ r, f[i]? = some r ∧
      ((∃ es, r.pipeline.filter.merged v = .ok es ∧
        (f.call (.merge i part v)).state = f.shareFilter r.filterMark es) ∨
      ∃ spec, r.pipeline.sort.merged v = .ok spec ∧
        (f.call (.merge i part v)).state = f.shareSort r.sortMark spec) := by
  rw [call, Reply.state_map]
  cases hi : f[i]? with
  | none =>
    rw [merge_of_none hi]
    exact Or.inl rfl
  | some r =>
    cases part with
    | filter =>
      rw [merge_filter hi]
      cases hm : r.pipeline.filter.merged v with
      | error e => exact Or.inl rfl
      | ok es => exact Or.inr ⟨r, rfl, Or.inl ⟨es, hm, rfl⟩⟩
    | sort =>
      rw [merge_sort hi]
      cases hm : r.pipeline.sort.merged v with
      | error e => exact Or.inl rfl
      | ok spec => exact Or.inr ⟨r, rfl, Or.inr ⟨spec, hm, rfl⟩⟩

end PipelineFamily
end GridQuery

import GridQuery.Proofs.CompiledQuery
import GridQuery.Proofs.PipelineCalls

/-! # Conditions that cannot be escaped

Whatever is asked of a pipeline and its copies, a member that has stages has the forced conditions of its
settings in its filter. The window of a member can only be opened after its filter took an input, and
from then on conditions are only added behind the forced ones. -/
namespace GridQuery.ForcedConditions

/-- The forced conditions are those of the settings, an input never goes without them, and there is no
window without an input. -/
structure Guarded (forced : ForcedFilter) (p : Pipeline) : Prop where
  forced_eq : p.filter.forced = forced
  contained : ∀ es, p.filter.expressions = some es → forced.expressions <:+: es
  filtered : p.limit.window.isSome → p.filter.expressions.isSome

theorem guarded_of_untouched {p : Pipeline} (h : p.Untouched) : Guarded p.filter.forced p where
  forced_eq := rfl
  contained es he := by simp [h.expressions] at he
  filtered hw := by simp [h.window] at hw

theorem Guarded.query {forced : ForcedFilter} {p : Pipeline} (h : Guarded forced p) (q : Document) :
    Guarded forced (p.query q).state := by
  let filtered (s : Pipeline) : Prop := Guarded forced s ∧ s.filter.expressions.isSome
  have hsearch (v : Value) : (p.inputSearch v).Ensures (Guarded forced) (Guarded forced) :=
    Reply.ensures_within_of_forall (fun _ => ⟨h.1, h.2, h.3⟩) (fun _ => ⟨h.1, h.2, h.3⟩)
  have hfilter (s : Pipeline) (v : Value) (hs : Guarded forced s) :
      (s.inputFilter v).Ensures filtered (Guarded forced) := by
    refine Reply.ensures_within.mpr ((s.filter.input_ensures v).mono ?_ ?_)
    · rintro k ⟨-, es, -, rfl⟩
      refine ⟨⟨hs.forced_eq, ?_, fun _ => rfl⟩, rfl⟩
      rintro es' ⟨⟩
      rw [hs.forced_eq]
      exact (List.suffix_append _ _).isInfix
    · rintro k (⟨-, rfl⟩ | ⟨-, rfl⟩)
      · exact hs
      · exact ⟨hs.forced_eq, hs.contained, hs.filtered⟩
  have hsort (s : Pipeline) (v : Value) (hs : filtered s) :
      (s.inputSort v).Ensures filtered (Guarded forced) :=
    Reply.ensures_within_of_forall (fun _ => ⟨⟨hs.1.1, hs.1.2, hs.1.3⟩, hs.2⟩)
      (fun _ => ⟨hs.1.1, hs.1.2, hs.1.3⟩)
  have hlimit (s : Pipeline) (v : Value) (hs : filtered s) :
      (s.inputLimit v).Ensures (Guarded forced) (Guarded forced) :=
    Reply.ensures_within_of_forall (fun _ => ⟨hs.1.1, hs.1.2, fun _ => hs.2⟩)
      (fun _ => ⟨hs.1.1, hs.1.2, fun _ => hs.2⟩)
  have hcount (s : Pipeline) (v : Value) (hs : Guarded forced s) :
      (s.inputCount v).Ensures (Guarded forced) (Guarded forced) :=
    Reply.ensures_within_of_forall (fun _ => ⟨hs.1, hs.2, hs.3⟩) (fun _ => ⟨hs.1, hs.2, hs.3⟩)
  refine Reply.Ensures.state (Pipeline.query_ensures (fun _ => ?_) h)
  refine (Pipeline.give_ensures (hsearch _) h).andThen fun s _ hs => ?_
  refine (Pipeline.give_ensures (hfilter s _ hs) hs).andThen fun s _ hs => ?_
  refine (Pipeline.give_ensures (hsort s _ hs) hs.1).andThen fun s _ hs => ?_
  refine (Pipeline.give_ensures (hlimit s _ hs) hs.1).andThen fun s _ hs => ?_
  exact Pipeline.give_ensures (hcount s _ hs) hs

def AllGuarded (forced : ForcedFilter) (f : PipelineFamily) : Prop := ∀ r ∈ f, Guarded forced r.pipeline

variable {forced : ForcedFilter} {f : PipelineFamily}

theorem Guarded.call {p : Pipeline} (h : Guarded forced p) (c : PipelineCall) :
    Guarded forced (p.call c).state := by
  cases c with
  | query q => exact h.query q
  | _ => exact h

theorem merged_contained {p : Pipeline} (h : Guarded forced p) {v : Value} {es : List Expression}
    (hm : p.filter.merged v = .ok es) : forced.expressions <:+: es := by
  unfold FilterHandler.merged at hm
  cases he : p.filter.expressions with
  | none => simp [he] at hm
  | some old =>
    rw [he] at hm
    obtain ⟨more, -, rfl⟩ := map_eq_ok_iff.mp hm
    exact (h.contained old he).trans (List.prefix_append old more).isInfix

theorem AllGuarded.copy (h : AllGuarded forced f) (i : Nat) : AllGuarded forced (f.call (.copy i)).state := by
  rcases f.state_copy i with hs | ⟨r, filterMark, sortMark, hi, -, -, hs⟩
  · rw [hs]
    exact h
  · rw [hs]
    intro r' hr'
    rcases List.mem_append.mp hr' with hr' | hr'
    · exact h r' hr'
    · rw [List.mem_singleton.mp hr']
      exact h r (List.mem_of_getElem? hi)

theorem AllGuarded.ask (h : AllGuarded forced f) (i : Nat) (c : PipelineCall) :
    AllGuarded forced (f.call (.ask i c)).state := by
  rcases f.state_ask i c with hs | ⟨r, hi, hs⟩
  · rw [hs]
    exact h
  · rw [hs]
    intro r' hr'
    rcases List.mem_or_eq_of_mem_set hr' with hr' | rfl
    · exact h r' hr'
    · exact (h r (List.mem_of_getElem? hi)).call c

/-- What is merged into a filter stands behind what was there, for all that share it. -/
theorem AllGuarded.merge (h : AllGuarded forced f) (i : Nat) (part : Mergeable) (v : Value) :
    AllGuarded forced (f.call (.merge i part v)).state := by
  rcases f.state_merge i part v with hs | ⟨r, hi, ⟨es, hm, hs⟩ | ⟨spec, hm, hs⟩⟩
  · rw [hs]
    exact h
  · rw [hs]
    have hes : forced.expressions <:+: es := merged_contained (h r (List.mem_of_getElem? hi)) hm
    intro r' hr'
    obtain ⟨old, hold, rfl⟩ := List.mem_map.mp hr'
    dsimp only
    split
    · refine ⟨(h old hold).forced_eq, ?_, fun _ => rfl⟩
      rintro es' ⟨⟩
      exact hes
    · exact h old hold
  · rw [hs]
    intro r' hr'
    obtain ⟨old, hold, rfl⟩ := List.mem_map.mp hr'
    dsimp only
    split
    · exact ⟨(h old hold).forced_eq, (h old hold).contained, (h old hold).filtered⟩
    · exact h old hold

theorem AllGuarded.after (h : AllGuarded forced f) (calls : List FamilyCall) :
    AllGuarded forced (f.after calls) := by
  induction calls generalizing f with
  | nil => exact h
  | cons c calls ih =>
    have hcall : AllGuarded forced (f.call c).state := by
      cases c with
      | copy i => exact h.copy i
      | ask i c => exact h.ask i c
      | merge i part v => exact h.merge i part v
    exact ih hcall

/-- A guarded pipeline that has stages matches the forced conditions before it pages. -/
theorem Guarded.stages {p : Pipeline} (h : Guarded forced p) (hf : forced.expressions ≠ []) {stages : List Stage}
    (hs : p.stages = .ok stages) : ∃ front conditions back skip limit field,
      stages.map Stage.toValue = front ++ [CompiledQuery.matchStage conditions] ++ back ++
        [CompiledQuery.facetStage skip limit field] ∧
      forced.expressions.map Expression.toValue <:+: conditions := by
  cases hw : p.limit.window with
  | none => rw [Pipeline.stages_of_closed hw] at hs; cases hs
  | some w =>
    obtain ⟨page, size⟩ := w
    obtain ⟨es, hes⟩ := Option.isSome_iff_exists.mp (h.filtered (by rw [hw]; rfl))
    have hin := h.contained es hes
    have hne : es.map Expression.toValue ≠ [] := by
      intro hnil
      rw [List.map_eq_nil_iff.mp hnil] at hin
      exact hf (List.infix_nil.mp hin)
    rw [Pipeline.stages_of_window hw] at hs
    cases hs
    refine ⟨p.search.stages.map Stage.toValue, es.map Expression.toValue, p.sort.stages.map Stage.toValue,
      (Amount.times page size).toValue, size.toValue, p.count.field, ?_, hin.map _⟩
    simp only [List.map_append, List.map_cons, List.map_nil, CompiledQuery.stages_filter hes,
      CompiledQuery.matchStages, if_neg hne, CompiledQuery.toValue_facet]

/-- A document, or a list with a descriptor in it, forces at least one condition. -/
theorem forced_ne_nil {settings : Document} {conditions : List Value}
    (hf : (∃ criteria, Value.entry settings "force_filter" = .document criteria) ∨
      ∃ items, (Value.entry settings "force_filter").items? = some items ∧ items ≠ [])
    (hc : CompiledQuery.forcedConditions? settings = some conditions) : conditions ≠ [] := by
  rintro rfl
  unfold CompiledQuery.forcedConditions? at hc
  rcases hf with ⟨criteria, he⟩ | ⟨items, hi, hne⟩
  · rw [he] at hc
    cases hc
  · have hc : items.mapM CompiledQuery.fragment? = some [] := by
      cases hv : Value.entry settings "force_filter" <;> rw [hv] at hi hc <;> cases hi
      · exact hc
      · exact hc
    cases items with
    | nil => exact hne rfl
    | cons d items => simp [List.mapM_cons, Option.bind_eq_some_iff] at hc

/-- Whatever was asked of a pipeline and of its copies: a member that has stages matches every condition
that the settings force, in front of its last stage. -/
theorem forced_conditions_matched {settings : Value} {p : Pipeline} (hp : Pipeline.init settings = .ok p)
    (hf : (∃ criteria, Value.entry (settingsTable settings) "force_filter" = .document criteria) ∨
      ∃ items, (Value.entry (settingsTable settings) "force_filter").items? = some items ∧ items ≠ [])
    (calls : List FamilyCall) {r : PipelineRelative} (hr : r ∈ (PipelineFamily.single p).after calls)
    {stages : List Stage} (hs : r.pipeline.stages = .ok stages) :
    ∃ forced front conditions back skip limit field,
      CompiledQuery.forcedConditions? (settingsTable settings) = some forced ∧ forced ≠ [] ∧
      stages.map Stage.toValue = front ++ [CompiledQuery.matchStage conditions] ++ back ++
        [CompiledQuery.facetStage skip limit field] ∧
      forced <:+: conditions := by
  have hforced := CompiledQuery.forcedConditions?_of_init (Pipeline.init_eq_ok hp).2.1
  have hne := forced_ne_nil hf hforced
  have hstart : AllGuarded p.filter.forced (PipelineFamily.single p) := by
    intro r hr
    rw [List.mem_singleton.mp hr]
    exact guarded_of_untouched (Pipeline.untouched_of_init hp)
  have hguard := hstart.after calls r hr
  obtain ⟨front, conditions, back, skip, limit, field, hstages, hin⟩ :=
    hguard.stages (fun h => hne (by rw [h]; rfl)) hs
  exact ⟨_, front, conditions, back, skip, limit, field, hforced, hne, hstages, hin⟩

/-- A filter that is switched off, with a condition that is forced all the same. -/
def switchedOff : Document :=
  [("filter_enabled", .bool false), ("force_filter", .array [
    .document [("field", .text "shop"), ("operator", .text "="), ("value", .int 1)]])]

/-- A refused query, a query, a copy that shares its filter, and a merge into the copy. -/
def sharingCalls : List FamilyCall :=
  [.ask 0 (.query [("size", .int 5)]), .ask 0 (.query [("page", .int 1)]), .copy 0,
    .merge 1 .filter (.array [.document [("field", .text "Name"), ("operator", .text "is empty")]])]

theorem forced_conditions_matched_sharing : ∃ p r stages front conditions back skip limit field,
    Pipeline.init (.document switchedOff) = .ok p ∧ r ∈ (PipelineFamily.single p).after sharingCalls ∧
      r.pipeline.stages = .ok stages ∧
      stages.map Stage.toValue = front ++ [CompiledQuery.matchStage conditions] ++ back ++
        [CompiledQuery.facetStage skip limit field] ∧
      .document [("shop", .document [("$eq", .int 1)])] ∈ conditions := by
  have hok : ((Pipeline.init (.document switchedOff)).bind fun p =>
      ((PipelineFamily.single p).after sharingCalls)[0]?.elim (.error .shape) fun r =>
        r.pipeline.stages).isOk = true := by decide +kernel
  obtain ⟨stages, hok⟩ := exists_of_isOk hok
  obtain ⟨p, hp, hs⟩ := bind_eq_ok_iff.mp hok
  cases hr : ((PipelineFamily.single p).after sharingCalls)[0]? with
  | none => rw [hr] at hs; cases hs
  | some r =>
    rw [hr] at hs
    have hr := List.mem_of_getElem? hr
    obtain ⟨forced, front, conditions, back, skip, limit, field, hforced, -, hstages, hin⟩ :=
      forced_conditions_matched hp (Or.inr ⟨_, rfl, by simp⟩) sharingCalls hr hs
    have hshop : CompiledQuery.forcedConditions? (settingsTable (.document switchedOff)) =
        some [.document [("shop", .document [("$eq", .int 1)])]] := rfl
    rw [hshop] at hforced
    cases hforced
    exact ⟨p, r, stages, front, conditions, back, skip, limit, field, hp, hr, hs, hstages,
      hin.subset (by simp)⟩

end GridQuery.ForcedConditions

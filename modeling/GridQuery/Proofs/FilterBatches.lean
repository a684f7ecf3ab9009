import GridQuery.Query.Family
import GridQuery.Proofs.CompiledQuery
import GridQuery.Proofs.QueryVocabulary

/-! # Batches of descriptors

A filter is given its descriptors in batches: the first as its input, the others by merges. A batch is refused
for its first flawed descriptor and then changes nothing, or else the fragments of all its descriptors go behind
the conditions that are there already. -/
namespace GridQuery.FilterBatches
open CompiledQuery QueryVocabulary

/-! ## Descriptors -/

/-- A field, the name of an operator and a value; a missing value is the empty text. -/
def Describes (v : Value) (field token : String) (value : Value) : Prop :=
  ∃ d : Document, v = .document d ∧ Value.entry d "field" = .text field ∧ field ≠ "" ∧
    Value.entry d "operator" = .text token ∧ (Table.get? d "value").getD (.text "") = value

/-- What the descriptor at a position lacks, the field before the operator. -/
inductive Malformed (index : Nat) : Value → QueryFault → Prop
  | shape {v : Value} (h : ∀ d, v ≠ .document d) : Malformed index v (.descriptorShape index)
  | field {d : Document} (h : ∀ f, Value.entry d "field" = .text f → f = "") :
      Malformed index (.document d) (.missingField index)
  | operator {d : Document} {f : String} (hf : Value.entry d "field" = .text f) (hne : f ≠ "")
      (h : ∀ token, Value.entry d "operator" ≠ .text token) :
      Malformed index (.document d) (.missingOperator index f)

section
variable [Stack]

/-- A descriptor that is malformed, names no operator, or has a value that its operator cannot read, with the
error that says so. -/
inductive Flaw (index : Nat) (v : Value) : Error → Prop
  | malformed {fault : QueryFault} (h : Malformed index v fault) : Flaw index v (.query fault)
  | unknownOperator {field token : String} {value : Value} (h : Describes v field token value)
      (hunknown : ∀ o : Operator, o.token ≠ token) : Flaw index v (.unknownOperator (.text token) field)
  | unreadable {field : String} {value : Value} {o : Operator} {e : Error}
      (h : Describes v field o.token value) (hread : Criterion.read o field value = .error e) : Flaw index v e

variable {index : Nat} {v : Value} {field token : String} {value : Value} {e : Error}

omit [Stack] in
theorem describes_or_malformed (index : Nat) (v : Value) :
    (∃ field token value, Describes v field token value) ∨ ∃ fault, Malformed index v fault := by
  cases v with
  | document d =>
    by_cases hf : ∃ f, Value.entry d "field" = .text f ∧ f ≠ ""
    · obtain ⟨f, hf, hne⟩ := hf
      by_cases ho : ∃ token, Value.entry d "operator" = .text token
      · obtain ⟨token, ho⟩ := ho
        exact Or.inl ⟨f, token, _, d, rfl, hf, hne, ho, rfl⟩
      · exact Or.inr ⟨_, .operator hf hne fun token ht => ho ⟨token, ht⟩⟩
    · exact Or.inr ⟨_, .field fun f h => Classical.byContradiction fun hne => hf ⟨f, h, hne⟩⟩
  | _ => exact Or.inr ⟨_, .shape (by rintro d ⟨⟩)⟩

theorem ofDescriptor_of_malformed {fault : QueryFault} (h : Malformed index v fault) :
    Expression.ofDescriptor index v = .error (.query fault) := by
  cases h with
  | shape h =>
    cases v with
    | document d => exact absurd rfl (h d)
    | _ => rfl
  | @field d h =>
    rw [Expression.ofDescriptor]
    split
    · rename_i f hf
      simp [h f hf]
    · rfl
  | @operator d f hf hne h =>
    simp only [Expression.ofDescriptor, hf, String.isEmpty_iff, hne, if_false]

theorem fragment?_of_malformed {fault : QueryFault} (h : Malformed index v fault) : fragment? v = none := by
  cases h with
  | shape h =>
    cases v with
    | document d => exact absurd rfl (h d)
    | _ => rfl
  | @field d h =>
    rw [fragment?]
    split
    · rename_i f token hf ht
      rw [if_pos (h f hf)]
    · rfl
  | @operator d f hf hne h =>
    rw [fragment?, hf]
    split
    · rename_i f token hf ht
      exact absurd ht (h token)
    · rfl

theorem ofDescriptor_of_describes (h : Describes v field token value) : Expression.ofDescriptor index v =
    (lookupOperator (.text token) field).bind fun o =>
      (Criterion.read o field value).map (Expression.field field value) := by
  obtain ⟨d, rfl, hf, hne, ho, rfl⟩ := h
  simp only [Expression.ofDescriptor, hf, ho, String.isEmpty_iff, hne, if_false]
  rfl

theorem fragment?_of_describes (h : Describes v field token value) :
    fragment? v = (compileFragment field (.text token) value).toOption := by
  obtain ⟨d, rfl, hf, hne, ho, rfl⟩ := h
  simp only [fragment?, hf, ho, hne, if_false]

theorem compileFragment_eq (field token : String) (value : Value) : compileFragment field (.text token) value =
    (lookupOperator (.text token) field).bind fun o =>
      (Criterion.read o field value).map (fragment field) := rfl

theorem lookupOperator_eq_error_iff : lookupOperator (.text token) field = .error e ↔
    (∀ o : Operator, o.token ≠ token) ∧ e = .unknownOperator (.text token) field := by
  constructor
  · intro h
    rw [lookupOperator] at h
    split at h
    · cases h
    · rename_i hnone
      cases h
      refine ⟨?_, rfl⟩
      rintro o rfl
      rw [Operator.ofToken?_token] at hnone
      cases hnone
  · rintro ⟨hunknown, rfl⟩
    rw [lookupOperator]
    split
    · rename_i o ho
      exact absurd (Operator.token_of_ofToken? ho) (hunknown o)
    · rfl

theorem ofDescriptor_eq_error_iff : Expression.ofDescriptor index v = .error e ↔ Flaw index v e := by
  constructor
  · intro h
    rcases describes_or_malformed index v with ⟨field, token, value, hd⟩ | ⟨fault, hbad⟩
    · rw [ofDescriptor_of_describes hd] at h
      rcases bind_eq_error_iff.mp h with hlookup | ⟨o, ho, hread⟩
      · obtain ⟨hunknown, rfl⟩ := lookupOperator_eq_error_iff.mp hlookup
        exact .unknownOperator hd hunknown
      · obtain rfl := token_of_lookupOperator ho
        exact .unreadable hd (map_eq_error_iff.mp hread)
    · rw [ofDescriptor_of_malformed hbad] at h
      cases h
      exact .malformed hbad
  · rintro (hbad | ⟨hd, hunknown⟩ | ⟨hd, hread⟩)
    · exact ofDescriptor_of_malformed hbad
    · rw [ofDescriptor_of_describes hd]
      exact bind_eq_error_iff.mpr (Or.inl (lookupOperator_eq_error_iff.mpr ⟨hunknown, rfl⟩))
    · rw [ofDescriptor_of_describes hd]
      exact bind_eq_error_iff.mpr (Or.inr ⟨_, lookupOperator_token _, map_eq_error_iff.mpr hread⟩)

/-- A descriptor with all its parts is refused for what its fragment is refused for. -/
theorem flaw_iff_of_describes (h : Describes v field token value) :
    Flaw index v e ↔ compileFragment field (.text token) value = .error e := by
  rw [← ofDescriptor_eq_error_iff, ofDescriptor_of_describes h, compileFragment_eq]
  simp only [bind_eq_error_iff, map_eq_error_iff]

theorem fragment?_eq_none_iff (index : Nat) : fragment? v = none ↔ ∃ e, Flaw index v e := by
  rcases describes_or_malformed index v with ⟨field, token, value, hd⟩ | ⟨fault, hbad⟩
  · simp only [flaw_iff_of_describes hd, fragment?_of_describes hd]
    cases compileFragment field (.text token) value <;> simp [Except.toOption]
  · simp only [fragment?_of_malformed hbad, true_iff]
    exact ⟨_, .malformed hbad⟩

/-! ## Batches -/

/-- The error is that of the first flawed descriptor, whose place is counted from the given number. -/
def FirstFlaw (start : Nat) (items : List Value) (e : Error) : Prop :=
  ∃ before flawed after, items = before ++ flawed :: after ∧ (∀ d ∈ before, fragment? d ≠ none) ∧
    Flaw (start + before.length) flawed e

theorem firstFlaw_cons {start : Nat} {d : Value} {items : List Value} : FirstFlaw start (d :: items) e ↔
    Flaw start d e ∨ fragment? d ≠ none ∧ FirstFlaw (start + 1) items e := by
  constructor
  · rintro ⟨before, flawed, after, hitems, hbefore, hflaw⟩
    cases before with
    | nil =>
      cases hitems
      exact Or.inl hflaw
    | cons d' before =>
      cases hitems
      have hplace : start + (d :: before).length = start + 1 + before.length := by
        simp only [List.length_cons]
        omega
      rw [hplace] at hflaw
      exact Or.inr ⟨hbefore d List.mem_cons_self, before, flawed, after, rfl,
        fun x hx => hbefore x (List.mem_cons_of_mem _ hx), hflaw⟩
  · rintro (hflaw | ⟨hd, before, flawed, after, rfl, hbefore, hflaw⟩)
    · exact ⟨[], d, items, rfl, by simp, hflaw⟩
    · refine ⟨d :: before, flawed, after, rfl, List.forall_mem_cons.mpr ⟨hd, hbefore⟩, ?_⟩
      have hplace : start + (d :: before).length = start + 1 + before.length := by
        simp only [List.length_cons]
        omega
      rwa [hplace]

theorem fragment?_ne_none_iff (index : Nat) :
    fragment? v ≠ none ↔ ∃ x, Expression.ofDescriptor index v = .ok x := by
  rw [ne_eq, fragment?_eq_none_iff index]
  simp only [← ofDescriptor_eq_error_iff]
  cases Expression.ofDescriptor index v <;> simp

theorem ofDescriptors_eq_error_iff {start : Nat} {items : List Value} :
    Expression.ofDescriptors start items = .error e ↔ FirstFlaw start items e := by
  induction items generalizing start with
  | nil =>
    constructor
    · rintro ⟨⟩
    · rintro ⟨before, flawed, after, hitems, -⟩
      simp at hitems
  | cons d items ih =>
    have hrest (x : Expression) : ((Expression.ofDescriptors (start + 1) items).bind fun es => .ok (x :: es)) =
        .error e ↔ Expression.ofDescriptors (start + 1) items = .error e := by
      simp [bind_eq_error_iff]
    rw [firstFlaw_cons, ← ih, ← ofDescriptor_eq_error_iff, fragment?_ne_none_iff start]
    refine bind_eq_error_iff.trans (or_congr_right ?_)
    constructor
    · rintro ⟨x, hx, h⟩
      exact ⟨⟨x, hx⟩, (hrest x).mp h⟩
    · rintro ⟨⟨x, hx⟩, h⟩
      exact ⟨x, hx, (hrest x).mpr h⟩

theorem mapM_fragment?_eq_none_iff {items : List Value} :
    items.mapM fragment? = none ↔ ∃ d ∈ items, fragment? d = none := by
  induction items with
  | nil => simp
  | cons d items ih =>
    rw [List.mapM_cons]
    cases hd : fragment? d with
    | none => simp [hd]
    | some x =>
      cases hr : items.mapM fragment? with
      | none => simp [hd, hr, ← ih]
      | some xs => simpa [hd, hr] using ih

/-- A list of descriptors is read in order, whether there are any or not. -/
theorem ofFilter_of_items {batch : Value} {items : List Value} (h : batch.items? = some items) :
    Expression.ofFilter batch = Expression.ofDescriptors 0 items := by
  unfold Expression.ofFilter
  split
  · rw [h]
  · rename_i ht
    rw [items_eq_nil h (by simpa using ht)]
    rfl

/-- What is answered to a batch: it is refused iff a descriptor in it is flawed, for the first flaw, and accepted
iff each descriptor has a fragment. -/
structure Verdict (items : List Value) (answer : Except Error Unit) : Prop where
  refused : (∃ e, answer = .error e) ↔ ∃ d ∈ items, ∃ index e, Flaw index d e
  error : ∀ e, answer = .error e ↔ FirstFlaw 0 items e
  accepted : answer = .ok () ↔ ∃ fragments, items.mapM fragment? = some fragments

theorem verdict_of_read {batch : Value} {items : List Value} (h : batch.items? = some items) :
    Verdict items ((Expression.ofFilter batch).map fun _ => ()) := by
  rw [ofFilter_of_items h]
  have hflawed {d : Value} (hd : d ∈ items) (hnone : fragment? d = none) : items.mapM fragment? = none :=
    mapM_fragment?_eq_none_iff.mpr ⟨d, hd, hnone⟩
  cases hread : Expression.ofDescriptors 0 items with
  | ok es =>
    have hfragments := mapM_fragment? hread
    have hnone {d : Value} (hd : d ∈ items) (index : Nat) (e : Error) : ¬Flaw index d e := by
      intro hflaw
      rw [hflawed hd ((fragment?_eq_none_iff index).mpr ⟨e, hflaw⟩)] at hfragments
      cases hfragments
    refine ⟨⟨?_, ?_⟩, fun e => ⟨?_, ?_⟩, ⟨fun _ => ⟨_, hfragments⟩, fun _ => rfl⟩⟩
    · rintro ⟨e, ⟨⟩⟩
    · rintro ⟨d, hd, index, e, hflaw⟩
      exact absurd hflaw (hnone hd index e)
    · rintro ⟨⟩
    · rintro ⟨before, flawed, after, rfl, -, hflaw⟩
      exact absurd hflaw (hnone (by simp) _ e)
  | error e =>
    obtain ⟨before, flawed, after, hitems, -, hflaw⟩ := ofDescriptors_eq_error_iff.mp hread
    have hmem : flawed ∈ items := by simp [hitems]
    have hmapM := hflawed hmem ((fragment?_eq_none_iff _).mpr ⟨e, hflaw⟩)
    refine ⟨⟨fun _ => ⟨flawed, hmem, _, e, hflaw⟩, fun _ => ⟨e, rfl⟩⟩, fun e' => ?_, ⟨?_, ?_⟩⟩
    · rw [← ofDescriptors_eq_error_iff, hread]
      simp [Except.map]
    · rintro ⟨⟩
    · rintro ⟨fragments, hfragments⟩
      rw [hmapM] at hfragments
      cases hfragments

/-! ## A filter and its batches -/

/-- The stages of the only member of a family. -/
def stagesOf : Family → Except Error (List Value)
  | [r] => r.handler.stages.map (List.map Stage.toValue)
  | _ => .error .shape

/-- Batches merged one after the other; one that is refused is passed over. -/
def mergeEach (f : Family) (batches : List Value) : Family := batches.foldl (fun f b => (f.merge 0 b).state) f

/-- The fragments that a batch adds: all, or none. -/
def addedFragments (batch : Value) : List Value := (conditions? batch).getD []

/-- A filter on its own that has these conditions. -/
def HasConditions (f : Family) (conditions : List Value) : Prop :=
  ∃ (k : FilterHandler) (es : List Expression), f = Family.single (.filter k) ∧ k.expressions = some es ∧
    es.map Expression.toValue = conditions

variable {f : Family} {conditions : List Value}

omit [Stack] in
theorem HasConditions.stagesOf (h : HasConditions f conditions) : stagesOf f = .ok (matchStages conditions) := by
  obtain ⟨k, es, rfl, hes, rfl⟩ := h
  rw [← stages_filter hes]
  rfl

theorem input_filter (h : FilterHandler) (v : Value) : (Family.single (.filter h)).input 0 v .null =
    (h.input v).within fun k => Family.single (.filter k) := rfl

theorem merge_filter (k : FilterHandler) (v : Value) : (Family.single (.filter k)).merge 0 v =
    match k.merged v with
    | .error e => ⟨.error e, Family.single (.filter k)⟩
    | .ok es => ⟨.ok (), Family.single (.filter { k with expressions := some es })⟩ := by
  cases hm : k.merged v <;> simp [Family.merge, Family.single, Handler.merged, hm, Except.map, Family.share,
    Handler.withContent]

/-- A batch that is merged is refused and changes nothing, or all its fragments are added. -/
theorem HasConditions.merge (h : HasConditions f conditions) {batch : Value} {items : List Value}
    (hb : batch.items? = some items) : Verdict items (f.merge 0 batch).answer ∧
      ((∃ e, (f.merge 0 batch).answer = .error e) → (f.merge 0 batch).state = f) ∧
      HasConditions (f.merge 0 batch).state (conditions ++ addedFragments batch) := by
  obtain ⟨k, es, rfl, hes, rfl⟩ := h
  have hverdict := verdict_of_read hb
  have hmerged : k.merged batch = (Expression.ofFilter batch).map (es ++ ·) := by rw [FilterHandler.merged, hes]
  rw [merge_filter, hmerged]
  cases hread : Expression.ofFilter batch with
  | ok more =>
    rw [hread] at hverdict
    refine ⟨hverdict, ?_, { k with expressions := some (es ++ more) }, es ++ more, rfl, rfl, ?_⟩
    · rintro ⟨e, ⟨⟩⟩
    · rw [addedFragments, conditions?_of_filter hread, List.map_append]
      rfl
  | error e =>
    rw [hread] at hverdict
    have hnone : conditions? batch = none := by
      rw [conditions?, hb, Option.getD_some]
      cases hfragments : items.mapM fragment? with
      | none => rfl
      | some fragments => cases hverdict.accepted.mpr ⟨fragments, hfragments⟩
    refine ⟨hverdict, fun _ => rfl, k, es, rfl, hes, ?_⟩
    rw [addedFragments, hnone]
    simp

theorem HasConditions.mergeEach (h : HasConditions f conditions) {batches : List Value}
    (hb : ∀ b ∈ batches, ∃ items, b.items? = some items) :
    HasConditions (mergeEach f batches) (conditions ++ batches.flatMap addedFragments) := by
  induction batches generalizing f conditions with
  | nil => simpa [FilterBatches.mergeEach] using h
  | cons b batches ih =>
    obtain ⟨⟨items, hitems⟩, hrest⟩ := List.forall_mem_cons.mp hb
    obtain ⟨-, -, hmerged⟩ := h.merge hitems
    rw [List.flatMap_cons, ← List.append_assoc]
    exact ih hmerged hrest

theorem filter_of_init {settings : Document} {g : Handler} (h : Handler.init .filter settings = .ok g) :
    ∃ k : FilterHandler, g = .filter k ∧ k.intake.received = false ∧
      forcedConditions? settings = some (k.forced.expressions.map Expression.toValue) := by
  unfold Handler.init at h
  split at h
  · cases h
  · obtain ⟨k, hk, rfl⟩ := map_eq_ok_iff.mp h
    have hk : FilterHandler.init (Value.entry settings "force_filter") = .ok k := hk
    refine ⟨k, rfl, ?_, forcedConditions?_of_init hk⟩
    obtain ⟨forced, -, rfl⟩ := map_eq_ok_iff.mp hk
    rfl

/-- An input that is refused leaves no conditions behind. -/
theorem stages_of_refused {k : FilterHandler} (h : k.intake.received = false) {v : Value} {e : Error}
    (he : (k.input v).answer = .error e) : (k.input v).state.stages = k.stages := by
  rw [FilterHandler.answer_input h, map_eq_error_iff] at he
  simp [FilterHandler.input, Intake.take, h, he, FilterHandler.stages]

/-- A descriptor with all its parts is flawed iff its fragment cannot be compiled, with the same error. A filter
refuses a batch, as its input or in a merge, iff a descriptor in it is flawed, for the first one that is, and its
stages stay as they were. Else the fragments of the whole batch are added: those of the input in front of the
forced conditions, those of merges at the end, in the order of the merges. -/
theorem batches_taken_whole {settings : Document} {g : Handler} (hg : Handler.init .filter settings = .ok g)
    {first : Value} {items : List Value} (hfirst : first.items? = some items) :
    let start := (Family.single g).input 0 first .null
    (∀ index v field token value e, Describes v field token value →
      (Flaw index v e ↔ compileFragment field (.text token) value = .error e)) ∧
    Verdict items start.answer ∧
    (∀ e, start.answer = .error e → stagesOf start.state = stagesOf (Family.single g)) ∧
    (start.answer = .ok () →
      ∃ initial forced, items.mapM fragment? = some initial ∧ forcedConditions? settings = some forced ∧
        ∀ batches : List Value, (∀ b ∈ batches, ∃ items, b.items? = some items) →
          let filter := mergeEach start.state batches
          stagesOf filter = .ok (matchStages (initial ++ forced ++ batches.flatMap addedFragments)) ∧
          ∀ (batch : Value) (items : List Value), batch.items? = some items →
            Verdict items (filter.merge 0 batch).answer ∧
            ((∃ e, (filter.merge 0 batch).answer = .error e) → (filter.merge 0 batch).state = filter)) := by
  obtain ⟨k, rfl, hfresh, hforced⟩ := filter_of_init hg
  have hanswer : (k.input first).answer = (Expression.ofFilter first).map fun _ => () :=
    FilterHandler.answer_input hfresh first
  intro start
  have hstart : start = (k.input first).within fun k => Family.single (.filter k) := input_filter k first
  rw [hstart, Reply.answer_within, Reply.state_within]
  refine ⟨fun _ _ _ _ _ _ h => flaw_iff_of_describes h, ?_, ?_, ?_⟩
  · rw [hanswer]
    exact verdict_of_read hfirst
  · intro e he
    have hstages := stages_of_refused hfresh he
    simp only [stagesOf, Family.single, Handler.stages, hstages]
  · intro hok
    obtain ⟨-, es, hes, hstate⟩ := (k.input_ensures first).of_ok hok
    have hinitial : items.mapM fragment? = some (es.map Expression.toValue) := by
      have hconditions := conditions?_of_filter hes
      rwa [conditions?, hfirst, Option.getD_some] at hconditions
    have hhas : HasConditions (Family.single (.filter (k.input first).state))
        (es.map Expression.toValue ++ k.forced.expressions.map Expression.toValue) := by
      rw [hstate]
      exact ⟨_, _, rfl, rfl, List.map_append⟩
    refine ⟨_, _, hinitial, hforced, fun batches hb => ?_⟩
    have hmerged := hhas.mergeEach hb
    refine ⟨hmerged.stagesOf, fun batch items hitems => ?_⟩
    obtain ⟨hverdict, hunchanged, -⟩ := hmerged.merge hitems
    exact ⟨hverdict, hunchanged⟩

end

def ofShop : Document := [("force_filter", .array [
  .document [("field", .text "shop"), ("operator", .text "="), ("value", .int 1)]])]

/-- A descriptor without a value. -/
def nameless : Value := .document [("field", .text "Name"), ("operator", .text "is empty")]

/-- A descriptor whose operator is not in the table. -/
def likely : Value := .document [("field", .text "Name"), ("operator", .text "like"), ("value", .text "x")]

def cheap : Value := .document [("field", .text "Price"), ("operator", .text "<"), ("value", .text " 30 ")]

theorem batches_taken_whole_refused : ∃ g, Handler.init .filter ofShop = .ok g ∧
    let start := (Family.single g).input 0 (.tuple [nameless]) .null
    start.answer = .ok () ∧
    (start.state.merge 0 (.array [cheap, likely, .null])).answer =
      .error (.unknownOperator (.text "like") "Name") ∧
    stagesOf (mergeEach start.state [.array [cheap, likely, .null], .array [cheap]]) = .ok [matchStage [
      .document [("Name", .document [("$eq", .text "")])], .document [("shop", .document [("$eq", .int 1)])],
      .document [("Price", .document [("$lt", .int 30)])]]] := by
  have hok : ((Handler.init .filter ofShop).bind fun g =>
      ((Family.single g).input 0 (.tuple [nameless]) .null).answer).isOk = true := by decide +kernel
  obtain ⟨a, hok⟩ := exists_of_isOk hok
  obtain ⟨g, hg, hok⟩ := bind_eq_ok_iff.mp hok
  have hitems : (Value.tuple [nameless]).items? = some [nameless] := rfl
  obtain ⟨-, -, -, hmerges⟩ := batches_taken_whole hg hitems
  obtain ⟨initial, forced, hinitial, hforced, hmerges⟩ := hmerges hok
  have hcheap : fragment? cheap = some (.document [("Price", .document [("$lt", .int 30)])]) := rfl
  have hlikely : fragment? likely = none := rfl
  have hflaw : FirstFlaw 0 [cheap, likely, .null] (.unknownOperator (.text "like") "Name") := by
    refine ⟨[cheap], likely, [.null], rfl, by simp [hcheap], ?_⟩
    refine .unknownOperator ⟨_, rfl, rfl, by decide, rfl, rfl⟩ fun o ho => ?_
    have hnone : Operator.ofToken? "like" = none := by decide
    rw [← ho, Operator.ofToken?_token] at hnone
    cases hnone
  refine ⟨g, hg, hok, ?_, ?_⟩
  · obtain ⟨-, hverdicts⟩ := hmerges [] (by simp)
    exact ((hverdicts (.array [cheap, likely, .null]) _ rfl).1.error _).mpr hflaw
  · obtain ⟨hstages, -⟩ := hmerges [.array [cheap, likely, .null], .array [cheap]] (by simp [Value.items?])
    cases hinitial
    cases hforced
    rw [hstages]
    rfl

end GridQuery.FilterBatches

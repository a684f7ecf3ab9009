import GridQuery.Proofs.CallerErrors

/-! # The vocabulary of query objects

A query object is accepted iff its keys are known, its parts are switched on and each part has its form;
any other one is refused, and the caller is told why. For a filter and a sort specification every empty
value counts as a missing one, whatever its type. -/
namespace GridQuery.QueryVocabulary
open Text

/-! ## The form of each part -/

/-- A value that an operator can take: comparisons want a number, all others take anything. -/
def HasOperand : Operator → Value → Prop
  | .compare _, v => ∃ x, Number.ofValue? v = some x
  | _, _ => True

/-- A field, an operator of the table, and a value for it; a missing value is the empty text. -/
def IsDescriptor (v : Value) : Prop :=
  ∃ (d : Document) (field : String) (o : Operator), v = .document d ∧
    Value.entry d "field" = .text field ∧ field ≠ "" ∧ Value.entry d "operator" = .text o.token ∧
    HasOperand o ((Table.get? d "value").getD (.text ""))

def IsSearch (v : Value) : Prop := v = .null ∨ ∃ s, v = .text s

def IsFilter (v : Value) : Prop := v = .null ∨ ∃ items, v.items? = some items ∧ ∀ d ∈ items, IsDescriptor d

/-- Clauses with commas between them, each of a field and at most one more word. -/
def IsSort (v : Value) : Prop :=
  v = .null ∨ ∃ s : String, v = .text s ∧ ∀ clause ∈ splitAt ',' s.toList, (words clause).length ≤ 2

/-- A value that counts as missing, or has the given form. -/
def OrEmpty (form : Value → Prop) (v : Value) : Prop := v.truthy = false ∨ form v

/-- A query object with known keys, in which what is not null is switched on, and filter and sort
specification have the given forms. -/
structure Fits (filterForm sortForm : Value → Prop) (settings q : Document) : Prop where
  keys : ∀ key ∈ Table.keys q, key ∈ ["search", "filter", "sort", "page", "pageSize"]
  enabled : ∀ part ∈ ["search", "filter", "sort"],
    Value.entry q part ≠ .null → Settings.leavesOn settings part = true
  paged : Value.entry q "page" ≠ .null ∨ Value.entry q "pageSize" ≠ .null →
    Settings.leavesOn settings "limit" = true
  search : IsSearch (Value.entry q "search")
  filter : filterForm (Value.entry q "filter")
  sort : sortForm (Value.entry q "sort")

/-- The form that a query object is documented to have. -/
abbrev Documented : Document → Document → Prop := Fits IsFilter IsSort

/-- The form in which a query object is accepted. -/
abbrev Acceptable : Document → Document → Prop := Fits (OrEmpty IsFilter) (OrEmpty IsSort)

/-- No empty value of another type stands in the place of a filter or a sort specification. -/
structure Typed (q : Document) : Prop where
  filter : (Value.entry q "filter").truthy = true ∨ Value.entry q "filter" = .null ∨
    ∃ items, (Value.entry q "filter").items? = some items
  sort : (Value.entry q "sort").truthy = true ∨ Value.entry q "sort" = .null ∨
    ∃ s, Value.entry q "sort" = .text s

theorem items_eq_nil {v : Value} {items : List Value} (hv : v.items? = some items) (ht : v.truthy = false) :
    items = [] := by
  cases v <;> cases hv <;> simpa [Value.truthy] using ht

theorem Typed.filter_iff {q : Document} (h : Typed q) :
    OrEmpty IsFilter (Value.entry q "filter") ↔ IsFilter (Value.entry q "filter") := by
  constructor
  · rintro (hempty | hform)
    · rcases h.filter with ht | hnull | ⟨items, hitems⟩
      · rw [hempty] at ht
        cases ht
      · exact Or.inl hnull
      · refine Or.inr ⟨items, hitems, ?_⟩
        simp [items_eq_nil hitems hempty]
    · exact hform
  · exact Or.inr

theorem Typed.sort_iff {q : Document} (h : Typed q) :
    OrEmpty IsSort (Value.entry q "sort") ↔ IsSort (Value.entry q "sort") := by
  constructor
  · rintro (hempty | hform)
    · rcases h.sort with ht | hnull | ⟨s, hs⟩
      · rw [hempty] at ht
        cases ht
      · exact Or.inl hnull
      · have hs' : s = "" := by simpa [hs, Value.truthy] using hempty
        refine Or.inr ⟨s, hs, ?_⟩
        simp [hs', splitAt, words]
    · exact hform
  · exact Or.inr

theorem Typed.acceptable_iff {settings q : Document} (h : Typed q) :
    Acceptable settings q ↔ Documented settings q := by
  constructor
  · intro hq
    exact { hq with filter := h.filter_iff.mp hq.filter, sort := h.sort_iff.mp hq.sort }
  · intro hq
    exact { hq with filter := h.filter_iff.mpr hq.filter, sort := h.sort_iff.mpr hq.sort }

/-! ## What the readers accept -/

theorem isOk_readSearch_iff {v : Value} : (∃ t, SearchHandler.read v = .ok t) ↔ IsSearch v := by
  cases v <;> simp [SearchHandler.read, IsSearch]

theorem parts_of_items? {v : Value} {items : List Value} (h : v.items? = some items) : v.parts = items := by
  cases v <;> cases h <;> rfl

section
variable [Stack]

theorem isOk_readOperand_iff {o : Operator} (field : String) {v : Value}
    (hv : v.obstacle? Stack.textRoom = none) : (∃ c, Criterion.read o field v = .ok c) ↔ HasOperand o v := by
  obtain ⟨s, hs⟩ := exists_operandText hv
  cases o with
  | compare c => cases hx : Number.ofValue? v <;> simp [Criterion.read, HasOperand, hx]
  | _ => simp [Criterion.read, HasOperand, hs, Except.map]

theorem lookupOperator_token {o : Operator} (field : String) :
    lookupOperator (.text o.token) field = .ok o := by
  simp [lookupOperator, Operator.ofToken?_token]

theorem token_of_lookupOperator {token field : String} {o : Operator}
    (h : lookupOperator (.text token) field = .ok o) : token = o.token := by
  rw [lookupOperator] at h
  split at h
  · rename_i o' ho
    cases h
    exact Operator.ofToken?_eq_some_iff.mp ho
  · cases h

/-- The value of a descriptor stands within it, or is the empty text. -/
theorem obstacle?_value {d : Document} (hd : (Value.document d).obstacle? Stack.textRoom = none) :
    ((Table.get? d "value").getD (.text "")).obstacle? Stack.textRoom = none := by
  cases hv : Table.get? d "value" with
  | none => rfl
  | some v => exact (Value.within_of_get? hv).obstacle?_eq_none hd

theorem isOk_ofDescriptor_iff (index : Nat) {v : Value} (hv : v.obstacle? Stack.textRoom = none) :
    (∃ e, Expression.ofDescriptor index v = .ok e) ↔ IsDescriptor v := by
  constructor
  · rintro ⟨e, he⟩
    obtain ⟨d, field, token, o, c, rfl, hf, hne, ht, ho, hc, -⟩ := Expression.ofDescriptor_eq_ok he
    rw [token_of_lookupOperator ho] at ht
    exact ⟨d, field, o, rfl, hf, hne, ht, (isOk_readOperand_iff field (obstacle?_value hv)).mp ⟨c, hc⟩⟩
  · rintro ⟨d, field, o, rfl, hf, hne, ht, hoperand⟩
    obtain ⟨c, hc⟩ := (isOk_readOperand_iff field (obstacle?_value hv)).mpr hoperand
    refine ⟨.field field ((Table.get? d "value").getD (.text "")) c, ?_⟩
    simp [Expression.ofDescriptor, hf, hne, ht, lookupOperator_token, hc, bind, Except.bind, pure, Except.pure]

theorem isOk_ofDescriptors_iff (index : Nat) {items : List Value}
    (hw : ∀ d ∈ items, d.obstacle? Stack.textRoom = none) :
    (∃ es, Expression.ofDescriptors index items = .ok es) ↔ ∀ d ∈ items, IsDescriptor d := by
  induction items generalizing index with
  | nil => simp [Expression.ofDescriptors]
  | cons d r ih =>
    rw [List.forall_mem_cons] at hw
    rw [List.forall_mem_cons, ← isOk_ofDescriptor_iff index hw.1, ← ih (index + 1) hw.2]
    constructor
    · rintro ⟨es, h⟩
      obtain ⟨e, he, h⟩ := bind_eq_ok_iff.mp h
      obtain ⟨rest, hr, -⟩ := bind_eq_ok_iff.mp h
      exact ⟨⟨e, he⟩, rest, hr⟩
    · rintro ⟨⟨e, he⟩, rest, hr⟩
      exact ⟨e :: rest, bind_eq_ok_iff.mpr ⟨e, he, bind_eq_ok_iff.mpr ⟨rest, hr, rfl⟩⟩⟩

theorem isOk_ofFilter_iff {v : Value} (hv : v.obstacle? Stack.textRoom = none) :
    (∃ es, Expression.ofFilter v = .ok es) ↔ OrEmpty IsFilter v := by
  cases ht : v.truthy with
  | false => simp [Expression.ofFilter, OrEmpty, ht]
  | true =>
    have hnull : v ≠ .null := by
      rintro rfl
      cases ht
    cases hi : v.items? with
    | none => simp [Expression.ofFilter, OrEmpty, IsFilter, ht, hi, hnull]
    | some items =>
      have hitems : ∀ d ∈ items, d.obstacle? Stack.textRoom = none := by
        rw [← parts_of_items? hi]
        exact fun d hd => (Value.Within.part hd .whole).obstacle?_eq_none hv
      have hread := isOk_ofDescriptors_iff 0 hitems
      simpa [Expression.ofFilter, OrEmpty, IsFilter, ht, hi, hnull] using hread

end

theorem isOk_addClause_iff (spec : SortSpec) {clause : List Char} :
    (∃ spec', SortSpec.addClause spec clause = .ok spec') ↔ (words clause).length ≤ 2 := by
  unfold SortSpec.addClause
  split
  · rename_i h
    simp [h]
  · rename_i h
    simp [h]
  · rename_i h
    simp [h]
  · rename_i hnone hone htwo
    rcases hw : words clause with _ | ⟨a, _ | ⟨b, _ | ⟨c, r⟩⟩⟩
    · exact absurd hw hnone
    · exact absurd hw (hone a)
    · exact absurd hw (htwo a b)
    · simp

theorem isOk_addClauses_iff (spec : SortSpec) {clauses : List (List Char)} :
    (∃ spec', SortSpec.addClauses spec clauses = .ok spec') ↔
      ∀ clause ∈ clauses, (words clause).length ≤ 2 := by
  induction clauses generalizing spec with
  | nil => simp [SortSpec.addClauses]
  | cons clause r ih =>
    rw [List.forall_mem_cons, ← isOk_addClause_iff spec]
    constructor
    · rintro ⟨spec', h⟩
      obtain ⟨mid, hc, hr⟩ := bind_eq_ok_iff.mp h
      exact ⟨⟨mid, hc⟩, (ih mid).mp ⟨spec', hr⟩⟩
    · rintro ⟨⟨mid, hc⟩, hr⟩
      obtain ⟨spec', hr⟩ := (ih mid).mpr hr
      exact ⟨spec', bind_eq_ok_iff.mpr ⟨mid, hc, hr⟩⟩

theorem isOk_ofSort_iff {v : Value} : (∃ spec, SortSpec.ofValue v = .ok spec) ↔ OrEmpty IsSort v := by
  cases ht : v.truthy with
  | false => simp [SortSpec.ofValue, OrEmpty, ht]
  | true =>
    have hread (s : String) := @isOk_addClauses_iff [] (splitAt ',' s.toList)
    cases v with
    | null => cases ht
    | text s => simpa [SortSpec.ofValue, SortSpec.ofText, OrEmpty, IsSort, ht] using hread s
    | _ => simp [SortSpec.ofValue, OrEmpty, IsSort, ht]

/-! ## What a pipeline accepts -/

theorem allow_eq_ok_iff {s : Settings} {part : String} {v : Value} :
    s.allow part v = .ok () ↔ (v ≠ .null → s.isEnabled part = true) := by
  unfold Settings.allow Settings.requireEnabled
  cases v <;> cases s.isEnabled part <;> simp [Value.isNull]

theorem readPart_eq_ok_iff {α : Type} {s : Settings} {part : String} {read : Value → Except Error α} {v : Value} :
    s.readPart part read v = .ok () ↔
      (v ≠ .null → s.isEnabled part = true) ∧ ∃ a, read v = .ok a := by
  rw [← allow_eq_ok_iff, Settings.readPart]
  cases s.allow part v <;> cases read v <;> simp [Except.bind, Except.map]

theorem entry_limit_ne_null_iff {q : Document} (hl : Table.get? q "limit" = none) :
    Value.entry (LimitHandler.packDocument q) "limit" ≠ .null ↔
      Value.entry q "page" ≠ .null ∨ Value.entry q "pageSize" ≠ .null := by
  rw [LimitHandler.entry_limit_packDocument hl]
  cases Value.entry q "page" <;> cases Value.entry q "pageSize" <;> simp [Value.isNull]

theorem readParts_eq_ok_iff [Stack] {s : Settings} {q : Document} (hl : Table.get? q "limit" = none) :
    s.readParts q = .ok () ↔
      ((Value.entry q "search" ≠ .null → s.isEnabled "search" = true) ∧
        ∃ t, SearchHandler.read (Value.entry q "search") = .ok t) ∧
      ((Value.entry q "filter" ≠ .null → s.isEnabled "filter" = true) ∧
        ∃ es, Expression.ofFilter (Value.entry q "filter") = .ok es) ∧
      ((Value.entry q "sort" ≠ .null → s.isEnabled "sort" = true) ∧
        ∃ spec, SortSpec.ofValue (Value.entry q "sort") = .ok spec) ∧
      (Value.entry q "page" ≠ .null ∨ Value.entry q "pageSize" ≠ .null → s.isEnabled "limit" = true) := by
  rw [← entry_limit_ne_null_iff hl, ← readPart_eq_ok_iff, ← readPart_eq_ok_iff, ← readPart_eq_ok_iff,
    ← allow_eq_ok_iff, Settings.readParts]
  cases s.readPart "search" SearchHandler.read (Value.entry q "search") <;>
    cases s.readPart "filter" Expression.ofFilter (Value.entry q "filter") <;>
    cases s.readPart "sort" SortSpec.ofValue (Value.entry q "sort") <;>
    simp [Except.bind]

variable {settings : Value} {p : Pipeline} {q : Document}

theorem accepted_iff [Stack] (hp : Pipeline.init settings = .ok p)
    (hw : (Value.entry q "filter").obstacle? Stack.textRoom = none) :
    (p.query q).answer = .ok () ↔ Acceptable (settingsTable settings) q := by
  have hon (part : String) (h : part ∈ ["search", "filter", "sort", "limit", "count"]) :=
    Pipeline.isEnabled_of_init hp h
  by_cases hk : Pipeline.unknownKeys q = []
  · have hl : Table.get? q "limit" = none := Pipeline.get?_of_known hk (by decide)
    rw [(Pipeline.untouched_of_init hp).answer_query hk, readParts_eq_ok_iff hl, isOk_readSearch_iff,
      isOk_ofFilter_iff hw, isOk_ofSort_iff, hon "search" (by simp), hon "filter" (by simp),
      hon "sort" (by simp), hon "limit" (by simp)]
    constructor
    · rintro ⟨⟨hsearch, hs⟩, ⟨hfilter, hf⟩, ⟨hsort, ho⟩, hpaged⟩
      refine ⟨Pipeline.unknownKeys_eq_nil_iff.mp hk, ?_, hpaged, hs, hf, ho⟩
      intro part hpart
      simp only [List.mem_cons, List.not_mem_nil, or_false] at hpart
      rcases hpart with rfl | rfl | rfl
      · exact hsearch
      · exact hfilter
      · exact hsort
    · intro h
      exact ⟨⟨h.enabled "search" (by simp), h.search⟩, ⟨h.enabled "filter" (by simp), h.filter⟩,
        ⟨h.enabled "sort" (by simp), h.sort⟩, h.paged⟩
  · constructor
    · intro h
      exact absurd (Pipeline.known_of_accepted h) hk
    · intro h
      exact absurd (Pipeline.unknownKeys_eq_nil_iff.mpr h.keys) hk

theorem writable_entry (hw : Value.fieldsWritable q = true) (key : String) :
    (Value.entry q key).writable = true := by
  rw [Value.entry]
  cases hv : Table.get? q key with
  | none => rfl
  | some v => exact (Value.within_of_get? hv).writable hw

/-- Settings without sorting, a query object that does without, and one that compares with a word. -/
def unsorted : Value := .document [("sort_enabled", .bool false)]

def cheapest : Document := [("page", .bool true), ("filter", .tuple [
  .document [("field", .text "Price"), ("operator", .text "<"), ("value", .text " 30 ")]])]

def wordy : Document := [("filter", .array [
  .document [("field", .text "Price"), ("operator", .text "<"), ("value", .text "thirty")]])]

end GridQuery.QueryVocabulary

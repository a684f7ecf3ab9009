import Mathlib.Algebra.Ring.Int.Defs
import Mathlib.Data.List.Forall2
import GridQuery.Proofs.CompiledQuery

/-! # Operands are scalars

Whatever a descriptor holds as its value, the condition that it is read as compares its field with a
scalar or with a pattern. A value with structure of its own, in which an operator of the store could be
hidden, never gets into a condition, and neither does a number that a document cannot hold. -/
namespace GridQuery.ScalarOperands

/-- A value without parts that a document can hold: an integer of 64 bits, a finite floating point
number, a text or a truth value. -/
inductive Scalar : Value → Prop
  | int {n : Int} (low : -2 ^ 63 ≤ n) (high : n ≤ 2 ^ 63 - 1) : Scalar (.int n)
  | double {d : Double} (finite : d.isFinite = true) : Scalar (.double d)
  | text (s : String) : Scalar (.text s)
  | bool (b : Bool) : Scalar (.bool b)

def comparisonNames : List String := ["$eq", "$ne", "$gt", "$lt", "$gte", "$lte"]

/-- A comparison with a scalar, a pattern, or the negation of a pattern. -/
inductive PlainCondition : Value → Prop
  | compare {name : String} {operand : Value} (known : name ∈ comparisonNames) (scalar : Scalar operand) :
      PlainCondition (.document [(name, operand)])
  | pattern (p : String) : PlainCondition (.document [("$regex", .text p)])
  | noPattern (p : String) : PlainCondition (.document [("$not", .document [("$regex", .text p)])])

/-- The fragment is a condition on the descriptor's field, and on nothing else. -/
def Contributes (descriptor fragment : Value) : Prop :=
  ∃ d field condition, descriptor = .document d ∧ Value.entry d "field" = .text field ∧
    fragment = .document [(field, condition)] ∧ PlainCondition condition

/-! ## Operands -/

theorem scalar_of_ofDouble? {d : Double} {x : Number} (h : Number.ofDouble? d = some x) :
    Scalar x.toValue := by
  unfold Number.ofDouble? at h
  split at h
  case isTrue hd =>
    cases h
    exact .double hd
  case isFalse => cases h

/-- An integer beyond 64 bits is kept as a floating point number, or not at all. -/
theorem scalar_of_ofInt? {n : Int} {x : Number} (h : Number.ofInt? n = some x) : Scalar x.toValue := by
  unfold Number.ofInt? at h
  split at h
  case isTrue hn =>
    cases h
    obtain ⟨hlow, hhigh⟩ := hn
    simp only [Number.least, Number.greatest] at hlow hhigh
    exact .int (by omega) (by omega)
  case isFalse => exact scalar_of_ofDouble? h

theorem scalar_of_ofText? {s : List Char} {x : Number} (h : Number.ofText? s = some x) :
    Scalar x.toValue := by
  unfold Number.ofText? at h
  split at h
  · exact scalar_of_ofInt? h
  · obtain ⟨d, -, hd⟩ := Option.bind_eq_some_iff.mp h
    exact scalar_of_ofDouble? hd

theorem scalar_of_ofValue? {v : Value} {x : Number} (h : Number.ofValue? v = some x) :
    Scalar x.toValue := by
  unfold Number.ofValue? at h
  split at h
  · cases h
  · cases h
  · exact scalar_of_ofInt? h
  · exact scalar_of_ofDouble? h
  · exact scalar_of_ofText? h

/-! ## Conditions -/

theorem name_mem (c : Comparison) : c.name ∈ comparisonNames := by
  cases c <;> decide

theorem plain_compare (c : Comparison) {x : Value} (h : Scalar x) :
    PlainCondition (Condition.compare c x).toValue := .compare (name_mem c) h

theorem plain_condition_of_pattern (t : TextTest) (p : String) :
    PlainCondition (Criterion.pattern t p).condition.toValue := by
  cases t with
  | notContains => exact .noPattern _
  | _ => exact .pattern _

section
variable [Stack]

theorem plain_condition_of_read {o : Operator} {field : String} {v : Value} {c : Criterion}
    (h : Criterion.read o field v = .ok c) : PlainCondition c.condition.toValue := by
  cases o with
  | compare comparison =>
    rw [Criterion.read] at h
    split at h
    case h_1 x hx =>
      cases h
      exact plain_compare comparison (scalar_of_ofValue? hx)
    case h_2 => cases h
  | pattern t =>
    obtain ⟨s, -, rfl⟩ := map_eq_ok_iff.mp h
    exact plain_condition_of_pattern t _
  | equals =>
    obtain ⟨s, -, rfl⟩ := map_eq_ok_iff.mp h
    exact plain_compare .eq (.text _)
  | notEquals =>
    obtain ⟨s, -, rfl⟩ := map_eq_ok_iff.mp h
    exact plain_compare .ne (.text _)
  | isEmpty =>
    cases h
    exact plain_compare .eq (.text "")
  | isNotEmpty =>
    cases h
    exact plain_compare .ne (.text "")
  | is =>
    cases h
    exact plain_compare .eq (.bool _)

/-! ## Descriptors -/

theorem contributes_of_descriptor {index : Nat} {descriptor : Value} {e : Expression}
    (h : Expression.ofDescriptor index descriptor = .ok e) : Contributes descriptor e.toValue := by
  obtain ⟨d, field, operator, o, c, rfl, hf, -, -, -, hc, rfl⟩ := Expression.ofDescriptor_eq_ok h
  exact ⟨d, field, _, rfl, hf, rfl, plain_condition_of_read hc⟩

theorem forall_contributes {index : Nat} {items : List Value} {es : List Expression}
    (h : Expression.ofDescriptors index items = .ok es) :
    List.Forall₂ Contributes items (es.map Expression.toValue) := by
  induction items generalizing index es with
  | nil =>
    cases h
    exact .nil
  | cons d r ih =>
    obtain ⟨e, he, h⟩ := bind_eq_ok_iff.mp h
    obtain ⟨rest, hr, h⟩ := bind_eq_ok_iff.mp h
    cases h
    exact .cons (contributes_of_descriptor he) (ih hr)

theorem forall_contributes_of_filter {v : Value} {items : List Value} {es : List Expression}
    (hv : v.items? = some items) (h : Expression.ofFilter v = .ok es) :
    List.Forall₂ Contributes items (es.map Expression.toValue) := by
  unfold Expression.ofFilter at h
  split at h
  · rw [hv] at h
    exact forall_contributes h
  · rename_i ht
    cases h
    have hempty : items = [] := by
      cases v <;> cases hv <;> simpa [Value.truthy] using ht
    rw [hempty]
    exact .nil

theorem forall_contributes_of_forced {v : Value} {items : List Value} {forced : ForcedFilter}
    (hv : v.items? = some items) (h : ForcedFilter.ofValue v = .ok forced) :
    List.Forall₂ Contributes items (forced.expressions.map Expression.toValue) := by
  cases v <;> cases hv
  all_goals
    obtain ⟨es, hes, rfl⟩ := map_eq_ok_iff.mp h
    exact forall_contributes hes

/-! ## Filters -/

/-- In a filter that accepts a list of descriptors, as its input, by a merge or as forced conditions, each
descriptor stands with one fragment, a plain condition on its field; nothing else of it is compiled. -/
theorem fragments_of_accepted {v : Value} {items : List Value} (hv : v.items? = some items)
    (h : FilterHandler) :
    ((h.input v).answer = .ok () → ∃ fragments, List.Forall₂ Contributes items fragments ∧
      (h.input v).state.stages.map Stage.toValue =
        CompiledQuery.matchStages (fragments ++ h.forced.expressions.map Expression.toValue)) ∧
    (∀ es, h.merged v = .ok es → ∃ before fragments, h.expressions = some before ∧
      List.Forall₂ Contributes items fragments ∧
      { h with expressions := some es }.stages.map Stage.toValue =
        CompiledQuery.matchStages (before.map Expression.toValue ++ fragments)) ∧
    (FilterHandler.init v = .ok h →
      List.Forall₂ Contributes items (h.forced.expressions.map Expression.toValue)) := by
  refine ⟨?_, ?_, ?_⟩
  · intro hok
    obtain ⟨-, es, hes, hstate⟩ := (h.input_ensures v).of_ok hok
    refine ⟨es.map Expression.toValue, forall_contributes_of_filter hv hes, ?_⟩
    have hexpressions : (h.input v).state.expressions = some (es ++ h.forced.expressions) := by rw [hstate]
    rw [CompiledQuery.stages_filter hexpressions, List.map_append]
  · intro es hes
    unfold FilterHandler.merged at hes
    split at hes
    case h_1 => cases hes
    case h_2 before hbefore =>
      obtain ⟨more, hmore, rfl⟩ := map_eq_ok_iff.mp hes
      refine ⟨before, more.map Expression.toValue, hbefore, forall_contributes_of_filter hv hmore, ?_⟩
      rw [CompiledQuery.stages_filter rfl, List.map_append]
  · intro hinit
    obtain ⟨forced, hforced, rfl⟩ := map_eq_ok_iff.mp hinit
    exact forall_contributes_of_forced hv hforced

end

/-- An operator of the store in a text, one in a list, and a number beyond 64 bits. -/
def hostile : List Value := [
  .document [("field", .text "Name"), ("operator", .text "equals"),
    ("value", .document [("$gt", .text "")])],
  .document [("field", .text "inStock"), ("operator", .text "is"),
    ("value", .array [.document [("$ne", .null)]])],
  .document [("field", .text "Price"), ("operator", .text "<"), ("value", .int (10 ^ 30))]]

theorem fragments_of_accepted_hostile : ∃ h, FilterHandler.init (.array hostile) = .ok h ∧
    (h.input (.array hostile)).answer = .ok () ∧
    ∃ fragments forced, List.Forall₂ Contributes hostile fragments ∧ List.Forall₂ Contributes hostile forced ∧
      (h.input (.array hostile)).state.stages.map Stage.toValue =
        CompiledQuery.matchStages (fragments ++ forced) := by
  have hok : ((FilterHandler.init (.array hostile)).bind fun h => (h.input (.array hostile)).answer).isOk =
      true := by decide +kernel
  obtain ⟨a, hok⟩ := exists_of_isOk hok
  obtain ⟨h, hinit, hinput⟩ := bind_eq_ok_iff.mp hok
  obtain ⟨haccepted, -, hforced⟩ := fragments_of_accepted (v := .array hostile) rfl h
  obtain ⟨fragments, hfragments, hstages⟩ := haccepted hinput
  exact ⟨h, hinit, hinput, fragments, _, hfragments, hforced hinit, hstages⟩

end GridQuery.ScalarOperands

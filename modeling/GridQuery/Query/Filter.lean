import GridQuery.Query.Criterion
import GridQuery.Query.Intake
import GridQuery.Query.Stage

/-! # Filters

A filter is a list of descriptors, each a field, an operator and a value. Conditions of the settings
are added to those of every request. -/
namespace GridQuery

/-- One condition of a filter. -/
inductive Expression
  | field (field : String) (value : Value) (criterion : Criterion)
  /-- Criteria in the store's own language. -/
  | literal (criteria : Document)

namespace Expression

def toValue : Expression → Value
  | field f _ c => fragment f c
  | literal criteria => .document criteria

/-- The descriptor an expression was read from. -/
def descriptor? : Expression → Option Value
  | field f v c => some (.document [("field", .text f), ("operator", .text c.operator.token), ("value", v)])
  | literal _ => none

variable [Stack]

/-- The expression as text, if its value can be written. -/
def display? : Expression → Option String
  | field f v c => v.display?.map fun s => f ++ " " ++ c.operator.token ++ " " ++ String.ofList s
  | literal criteria =>
    (Value.document criteria).display?.map fun s => "LiteralExpression(" ++ String.ofList s ++ ")"

/-- Reads the descriptor at a position of a filter. A missing value is the empty text. -/
def ofDescriptor (index : Nat) : Value → Except Error Expression
  | .document d =>
    match Value.entry d "field" with
    | .text f =>
      if f.isEmpty then .error (.query (.missingField index))
      else match Value.entry d "operator" with
        | .text o => do
          let operator ← lookupOperator (.text o) f
          let value := (Table.get? d "value").getD (.text "")
          let criterion ← Criterion.read operator f value
          return field f value criterion
        | _ => .error (.query (.missingOperator index f))
    | _ => .error (.query (.missingField index))
  | _ => .error (.query (.descriptorShape index))

/-- An accepted descriptor names a field and an operator, and the operator reads its value. -/
theorem ofDescriptor_eq_ok {index : Nat} {d : Value} {e : Expression} (h : ofDescriptor index d = .ok e) :
    ∃ fields f operator o c, d = .document fields ∧ Value.entry fields "field" = .text f ∧ f ≠ "" ∧
      Value.entry fields "operator" = .text operator ∧ lookupOperator (.text operator) f = .ok o ∧
      Criterion.read o f ((Table.get? fields "value").getD (.text "")) = .ok c ∧
      e = field f ((Table.get? fields "value").getD (.text "")) c := by
  unfold ofDescriptor at h
  split at h
  case h_2 => cases h
  case h_1 fields =>
    split at h
    case h_2 => cases h
    case h_1 f hf =>
      split at h
      case isTrue => cases h
      case isFalse hne =>
        split at h
        case h_2 => cases h
        case h_1 operator ho =>
          obtain ⟨o, hop, h⟩ := bind_eq_ok_iff.mp h
          obtain ⟨c, hc, h⟩ := bind_eq_ok_iff.mp h
          cases h
          have hne : f ≠ "" := by simpa using hne
          exact ⟨fields, f, operator, o, c, rfl, hf, hne, ho, hop, hc, rfl⟩

/-- Reads descriptors in order, the first with the given position. -/
def ofDescriptors (index : Nat) : List Value → Except Error (List Expression)
  | [] => .ok []
  | v :: r => do
    let e ← ofDescriptor index v
    let es ← ofDescriptors (index + 1) r
    return e :: es

/-- Reads a filter; everything empty is the empty filter. -/
def ofFilter (v : Value) : Except Error (List Expression) :=
  if v.truthy then
    match v.items? with
    | some items => ofDescriptors 0 items
    | none => .error (.query (.wrongType "filter" "a list of filter descriptors" v.kind))
  else .ok []

end Expression

variable [Stack]

/-- Conditions that every filter gets. -/
inductive ForcedFilter
  | none
  | criteria (fields : Document)
  | descriptors (expressions : List Expression)

namespace ForcedFilter

def ofValue : Value → Except Error ForcedFilter
  | .null => .ok none
  | .document fields => .ok (criteria fields)
  | .array items => (Expression.ofDescriptors 0 items).map descriptors
  | .tuple items => (Expression.ofDescriptors 0 items).map descriptors
  | _ => .error .unacceptable

def expressions : ForcedFilter → List Expression
  | none => []
  | criteria fields => [.literal fields]
  | descriptors es => es

end ForcedFilter

structure FilterHandler where
  forced : ForcedFilter
  intake : Intake
  /-- The conditions of an accepted input, the forced ones last. -/
  expressions : Option (List Expression)

namespace FilterHandler

def handlerName : String := "MongoFilter"

def init (force : Value) : Except Error FilterHandler :=
  (ForcedFilter.ofValue force).map fun f => ⟨f, .fresh, none⟩

def input (h : FilterHandler) (v : Value) : Reply FilterHandler Unit :=
  match h.intake.take handlerName v with
  | .error e => ⟨.error e, h⟩
  | .ok i =>
    match Expression.ofFilter v with
    | .error e => ⟨.error e, { h with intake := i }⟩
    | .ok es => ⟨.ok (), { h with intake := i, expressions := some (es ++ h.forced.expressions) }⟩

theorem input_ensures (h : FilterHandler) (v : Value) :
    (h.input v).Ensures
      (fun k => h.intake.received = false ∧ ∃ es, Expression.ofFilter v = .ok es ∧
        k = { h with intake := ⟨true, v⟩, expressions := some (es ++ h.forced.expressions) })
      (fun k => h.intake.received = true ∧ k = h ∨
        h.intake.received = false ∧ k = { h with intake := ⟨true, v⟩ }) := by
  cases hr : h.intake.received <;> cases he : Expression.ofFilter v <;>
    simp [input, Intake.take, hr, he, Reply.Ensures]

/-- The expressions with those of another filter behind them. -/
def merged (h : FilterHandler) (v : Value) : Except Error (List Expression) :=
  match h.expressions with
  | none => .error .shape
  | some es => (Expression.ofFilter v).map (es ++ ·)

def isInputEmpty (h : FilterHandler) : Bool :=
  match h.expressions with
  | some (_ :: _) => false
  | _ => true

def statement (h : FilterHandler) : Except Error Value :=
  match h.expressions with
  | none => .error .shape
  | some es => .ok (Stage.filterStatement (es.map Expression.toValue))

def stages (h : FilterHandler) : List Stage :=
  match h.expressions with
  | some (e :: es) => [.filter ((e :: es).map Expression.toValue)]
  | _ => []

def finalInput (h : FilterHandler) : Except Error Value :=
  match h.expressions with
  | none => .error .shape
  | some es => .ok (.array (es.filterMap Expression.descriptor?))

end FilterHandler
end GridQuery

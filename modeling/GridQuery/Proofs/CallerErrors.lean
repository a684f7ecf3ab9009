import GridQuery.Proofs.NestedValues
import GridQuery.Proofs.QueryAnswers

/-! # Errors that the caller is told about

A pipeline that is given a query object for the first time refuses it for a reason that the caller can
understand: unknown keys, parts that are switched off, and parts that cannot be read. The reason quotes
values of the filter, so these have to be such that they can be written. -/
namespace GridQuery

namespace Error

variable {e : Error}

/-- The error has a reason that the caller is told. -/
def IsCallers (e : Error) : Prop := e.reason?.isSome = true

theorem IsCallers.status_eq (h : e.IsCallers) : e.status = 400 := by
  cases e <;> simp_all [IsCallers, status, reason?]

theorem isCallers_query (f : QueryFault) : (query f).IsCallers := rfl

theorem isCallers_disabled (part : String) : (disabled part).IsCallers := rfl

theorem isCallers_ofOperator [Stack] (operator field : String) :
    (ofOperator (.text operator) field).IsCallers := rfl

end Error

open Error

/-! ## Values that cannot be written -/

namespace Value

variable [Stack]

/-- The value is nested deeper than there is room for where it is written or quoted. -/
def OutOfRoom (v : Value) : Prop := v.Exceeds Stack.textRoom ∨ v.Exceeds Stack.messageRoom

theorem Within.outOfRoom {v w : Value} {k : Nat} (hw : Within v k w) (h : w.OutOfRoom) : v.OutOfRoom :=
  h.imp hw.exceeds hw.exceeds

theorem not_outOfRoom_of_parts {v : Value} (h : v.parts = []) : ¬v.OutOfRoom := by
  rintro (htext | hmessage)
  · exact not_exceeds_of_parts h _ htext
  · exact not_exceeds_of_parts h _ hmessage

end Value

/-- The usual stack is taken to have room for any value. -/
theorem Value.not_outOfRoom_standard (v : Value) : ¬v.OutOfRoom := by
  rintro (htext | hmessage)
  · exact not_exceeds_none v htext
  · exact not_exceeds_none v hmessage

theorem Value.within_of_get? {fields : Document} {key : String} {v : Value}
    (h : Table.get? fields key = some v) : Within (.document fields) 1 v :=
  .part (List.mem_map.mpr ⟨_, Table.mem_of_get? h, rfl⟩) .whole

variable {e : Error}

/-! ## Filters -/

section
variable [Stack]

/-- What a value is refused with is the caller's error, unless the value would have to be written and cannot be. -/
def RefusedFor (v : Value) (e : Error) : Prop :=
  e.IsCallers ∨ (v.HasLong ∧ e = .unacceptable) ∨ (v.OutOfRoom ∧ e = .tooDeep)

theorem RefusedFor.isCallers {v : Value} (h : RefusedFor v e) (hv : v.writable = true) (hroom : ¬v.OutOfRoom) :
    e.IsCallers := by
  rcases h with h | ⟨hlong, -⟩ | ⟨hout, -⟩
  · exact h
  · exact absurd hlong (Value.writable_iff.mp hv)
  · exact absurd hout hroom

/-- A part that cannot be written makes the whole one that cannot be written either. -/
theorem RefusedFor.of_within {v w : Value} {k : Nat} (h : RefusedFor w e) (hw : v.Within k w) : RefusedFor v e :=
  h.imp_right fun h => h.imp (And.imp_left hw.hasLong) (And.imp_left hw.outOfRoom)

theorem refusedFor_ofObstacle {v : Value} {room : Room} {o : Value.Obstacle} (h : v.obstacle? room = some o)
    (hroom : v.Exceeds room → v.OutOfRoom) : RefusedFor v (ofObstacle o) := by
  have hblocks := Value.blocks_of_obstacle? h
  cases o with
  | overlong => exact Or.inr (Or.inl ⟨hblocks, rfl⟩)
  | deep => exact Or.inr (Or.inr ⟨hroom hblocks, rfl⟩)

theorem refusedFor_ofValue (v : Value) (field operator : String) (kind : ValueKind) :
    RefusedFor v (ofValue field operator v kind) := by
  unfold ofValue
  split
  · rename_i o ho
    exact refusedFor_ofObstacle ho Or.inr
  · exact Or.inl rfl

/-- The value that a message quotes is part of the descriptor, or the empty text. -/
theorem RefusedFor.of_value {d : Document} (h : RefusedFor ((Table.get? d "value").getD (.text "")) e) :
    RefusedFor (.document d) e := by
  cases hv : Table.get? d "value" with
  | none =>
    rw [hv] at h
    exact Or.inl (h.isCallers rfl (Value.not_outOfRoom_of_parts rfl))
  | some v =>
    rw [hv] at h
    exact h.of_within (Value.within_of_get? hv)

theorem exists_operandText {v : Value} (h : v.obstacle? Stack.textRoom = none) : ∃ s, operandText v = .ok s := by
  cases v with
  | null => exact ⟨[], rfl⟩
  | _ => exact ⟨_, by rw [operandText, h]; simp⟩

theorem refusedFor_operandText {v : Value} (h : operandText v = .error e) : RefusedFor v e := by
  unfold operandText at h
  split at h
  · cases h
  · split at h
    · rename_i o ho
      cases h
      exact refusedFor_ofObstacle ho Or.inl
    · cases h

theorem Criterion.noNumber_eq (field operator : String) {v : Value} (hv : v.writable = true)
    (hroom : ¬v.OutOfRoom) : noNumber field operator v = .invalidValue field operator v .numeric := by
  have hshort := Value.writable_iff.mp hv
  have htext : v.obstacle? Stack.textRoom = none :=
    Value.obstacle?_eq_none_iff.mpr ⟨hshort, fun hdeep => hroom (Or.inl hdeep)⟩
  have hmessage : v.obstacle? Stack.messageRoom = none :=
    Value.obstacle?_eq_none_iff.mpr ⟨hshort, fun hdeep => hroom (Or.inr hdeep)⟩
  rw [noNumber, htext, ofValue, hmessage]
  rfl

theorem Criterion.refusedFor_read {o : Operator} {field : String} {v : Value}
    (h : Criterion.read o field v = .error e) : RefusedFor v e := by
  cases o with
  | compare c =>
    simp only [Criterion.read] at h
    split at h
    · cases h
    · cases h
      unfold Criterion.noNumber
      split
      · rename_i hdeep
        exact refusedFor_ofObstacle hdeep Or.inl
      · exact refusedFor_ofValue v field _ _
  | isEmpty => cases h
  | isNotEmpty => cases h
  | is => cases h
  | _ => exact refusedFor_operandText (map_eq_error_iff.mp h)

theorem isCallers_lookupOperator {operator field : String}
    (h : lookupOperator (.text operator) field = .error e) : e.IsCallers := by
  rw [lookupOperator] at h
  split at h
  · cases h
  · cases h
    exact isCallers_ofOperator operator field

namespace Expression

theorem refusedFor_ofDescriptor {index : Nat} {d : Value} (h : ofDescriptor index d = .error e) :
    RefusedFor d e := by
  unfold ofDescriptor at h
  split at h
  case h_2 =>
    cases h
    exact Or.inl (isCallers_query _)
  case h_1 fields =>
    split at h
    case h_2 =>
      cases h
      exact Or.inl (isCallers_query _)
    case h_1 field hf =>
      split at h
      case isTrue =>
        cases h
        exact Or.inl (isCallers_query _)
      case isFalse =>
        split at h
        case h_2 =>
          cases h
          exact Or.inl (isCallers_query _)
        case h_1 operator ho =>
          rcases bind_eq_error_iff.mp h with hop | ⟨o, -, h⟩
          · exact Or.inl (isCallers_lookupOperator hop)
          rcases bind_eq_error_iff.mp h with hc | ⟨c, -, h⟩
          · exact (Criterion.refusedFor_read hc).of_value
          · cases h

theorem refusedFor_ofDescriptors {index : Nat} {items : List Value} (h : ofDescriptors index items = .error e) :
    ∃ d ∈ items, RefusedFor d e := by
  induction items generalizing index with
  | nil => cases h
  | cons d r ih =>
    rcases bind_eq_error_iff.mp h with hd | ⟨x, -, h⟩
    · exact ⟨d, List.mem_cons_self, refusedFor_ofDescriptor hd⟩
    rcases bind_eq_error_iff.mp h with hr | ⟨xs, -, h⟩
    · obtain ⟨w, hw, hrefused⟩ := ih hr
      exact ⟨w, List.mem_cons_of_mem d hw, hrefused⟩
    · cases h

theorem refusedFor_ofFilter {v : Value} (h : ofFilter v = .error e) : RefusedFor v e := by
  unfold ofFilter at h
  split at h
  · cases v with
    | array items | tuple items =>
      obtain ⟨d, hd, hrefused⟩ := refusedFor_ofDescriptors h
      exact hrefused.of_within (.part hd .whole)
    | _ =>
      cases h
      exact Or.inl (isCallers_query _)
  · cases h

end Expression

end

/-! ## Search and sort -/

theorem SearchHandler.isCallers_read {v : Value} (h : SearchHandler.read v = .error e) : e.IsCallers := by
  cases v with
  | null => cases h
  | text s => cases h
  | _ =>
    cases h
    exact isCallers_query _

namespace SortSpec

theorem isCallers_addClause {spec : SortSpec} {clause : List Char} (h : addClause spec clause = .error e) :
    e.IsCallers := by
  unfold addClause at h
  split at h
  · cases h
  · cases h
  · cases h
  · cases h
    exact isCallers_query _

theorem isCallers_addClauses {spec : SortSpec} {clauses : List (List Char)}
    (h : addClauses spec clauses = .error e) : e.IsCallers := by
  induction clauses generalizing spec with
  | nil => cases h
  | cons clause r ih =>
    rcases bind_eq_error_iff.mp h with hc | ⟨spec', -, hr⟩
    · exact isCallers_addClause hc
    · exact ih hr

theorem isCallers_ofValue {v : Value} (h : SortSpec.ofValue v = .error e) : e.IsCallers := by
  unfold SortSpec.ofValue at h
  split at h
  · split at h
    · exact isCallers_addClauses h
    · cases h
      exact isCallers_query _
  · cases h

end SortSpec

/-! ## Query objects -/

namespace Pipeline

variable [Stack] {p : Pipeline} {q : Document}

/-- What an untouched pipeline refuses a query object with known keys for, the caller is told, if its filter
can be quoted. -/
theorem Untouched.refusedFor_query (h : p.Untouched) (hk : unknownKeys q = [])
    (he : (p.query q).answer = .error e) : RefusedFor (Value.entry q "filter") e := by
  rw [h.answer_query hk] at he
  rcases Settings.readParts_error he with ⟨part, rfl⟩ | hsearch | hfilter | hsort
  · exact Or.inl (isCallers_disabled part)
  · exact Or.inl (SearchHandler.isCallers_read hsearch)
  · exact Expression.refusedFor_ofFilter hfilter
  · exact Or.inl (SortSpec.isCallers_ofValue hsort)

/-- The key of the receiver is no key of a query object, and the caller cannot be told so. -/
theorem query_of_reserved (h : "self" ∈ Table.keys q) : p.query q = ⟨.error .shape, p⟩ := by
  have hc : Table.contains q reservedKey = true := (Table.get?_isSome_iff q _).mpr h
  rw [query, if_pos hc]

theorem query_of_unknown (h : "self" ∉ Table.keys q) (hk : unknownKeys q ≠ []) :
    (p.query q).answer = .error (.query (.unknownKeys (unknownKeys q))) := by
  have hc : ¬Table.contains q reservedKey = true := fun hc => h ((Table.get?_isSome_iff q _).mp hc)
  rw [query, if_neg hc]
  split
  · rename_i hnil
    exact absurd hnil hk
  · rfl

theorem Untouched.error_query (h : p.Untouched) (he : (p.query q).answer = .error e) :
    "self" ∈ Table.keys q ∧ e = .shape ∨ RefusedFor (Value.entry q "filter") e := by
  by_cases hr : "self" ∈ Table.keys q
  · rw [query_of_reserved hr] at he
    cases he
    exact Or.inl ⟨hr, rfl⟩
  by_cases hk : unknownKeys q = []
  · exact Or.inr (h.refusedFor_query hk he)
  · rw [query_of_unknown hr hk] at he
    cases he
    exact Or.inr (Or.inl (Error.isCallers_query _))

end Pipeline
end GridQuery

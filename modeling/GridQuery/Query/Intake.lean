import GridQuery.Reply

/-! # Intake: the one input a handler takes -/
namespace GridQuery

/-- Whether a handler has had its input, and the input as it was given. -/
structure Intake where
  received : Bool
  value : Value

namespace Intake

def fresh : Intake := ⟨false, .null⟩

/-- Takes the input of the handler with the given name. A second input is refused, even if the first
one was not acceptable. -/
def take (handler : String) (v : Value) (i : Intake) : Except Error Intake :=
  if i.received then .error (.inputReused handler) else .ok ⟨true, v⟩

@[simp] theorem take_fresh (handler : String) (v : Value) : take handler v fresh = .ok ⟨true, v⟩ := rfl

theorem take_of_received {handler : String} {v : Value} {i : Intake} (h : i.received = true) :
    i.take handler v = .error (.inputReused handler) := by
  simp [take, h]

theorem take_eq_ok_iff {handler : String} {v : Value} {i j : Intake} :
    i.take handler v = .ok j ↔ i.received = false ∧ j = ⟨true, v⟩ := by
  unfold take
  cases h : i.received <;> simp [eq_comm]

end Intake

end GridQuery

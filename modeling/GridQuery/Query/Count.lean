import GridQuery.Query.Intake
import GridQuery.Query.Stage

/-! # The total count

The total is always counted, so there is nothing to ask for; the handler takes its input like the others. -/
namespace GridQuery

structure CountHandler where
  /-- The field that the total is written into. -/
  field : Value
  intake : Intake

namespace CountHandler

def handlerName : String := "MongoCount"

def init (field : Value) : CountHandler := ⟨field, .fresh⟩

def input (h : CountHandler) (v : Value) : Reply CountHandler Unit :=
  match h.intake.take handlerName v with
  | .error e => ⟨.error e, h⟩
  | .ok i => ⟨.ok (), { h with intake := i }⟩

theorem input_ensures (h : CountHandler) (v : Value) :
    (h.input v).Ensures
      (fun k => h.intake.received = false ∧ k = { h with intake := ⟨true, v⟩ })
      (fun k => h.intake.received = true ∧ k = h) := by
  cases hr : h.intake.received <;> simp [input, Intake.take, hr, Reply.Ensures]

def statements (h : CountHandler) : List Value := Stage.countStatements h.field

end CountHandler
end GridQuery

import GridQuery.Query.Intake
import GridQuery.Query.Stage
import GridQuery.Text.Blank

/-! # Full-text search -/
namespace GridQuery

structure SearchHandler where
  index : Value
  intake : Intake
  /-- The text to search for; a blank one is none. -/
  text : Option String

namespace SearchHandler

def handlerName : String := "MongoSearch"

def init (index : Value) : SearchHandler := ⟨index, .fresh, none⟩

/-- A text that is not blank, or nothing. -/
def read : Value → Except Error (Option String)
  | .null => .ok none
  | .text s => .ok (if Text.isBlankText s.toList then none else some s)
  | v => .error (.query (.wrongType "search" "a string" v.kind))

def input (h : SearchHandler) (v : Value) : Reply SearchHandler Unit :=
  match h.intake.take handlerName v with
  | .error e => ⟨.error e, h⟩
  | .ok i =>
    match read v with
    | .error e => ⟨.error e, { h with intake := i }⟩
    | .ok t => ⟨.ok (), { h with intake := i, text := t }⟩

theorem input_ensures (h : SearchHandler) (v : Value) :
    (h.input v).Ensures
      (fun k => h.intake.received = false ∧
        ∃ t, read v = .ok t ∧ k = { h with intake := ⟨true, v⟩, text := t })
      (fun k => h.intake.received = true ∧ k = h ∨
        h.intake.received = false ∧ k = { h with intake := ⟨true, v⟩ }) := by
  cases hr : h.intake.received <;> cases ht : read v <;> simp [input, Intake.take, hr, ht, Reply.Ensures]

theorem input_of_received {h : SearchHandler} (hr : h.intake.received = true) (v : Value) :
    h.input v = ⟨.error (.inputReused handlerName), h⟩ := by
  simp [input, Intake.take, hr]

def isInputEmpty (h : SearchHandler) : Bool := h.text.isNone

def statement (h : SearchHandler) : Value := Stage.searchStatement h.text h.index

def stages (h : SearchHandler) : List Stage :=
  match h.text with
  | none => []
  | some s => [.search (some s) h.index]

def finalInput (h : SearchHandler) : Value :=
  match h.text with
  | none => .null
  | some s => .text s

end SearchHandler
end GridQuery

import GridQuery.Value.Display

/-! # Faults of a document store

What a call to the store may end with instead of an answer. -/
namespace GridQuery

inductive Fault
  /-- The server refused the command, with its error code and a document of details. -/
  | refused (name message : String) (code details : Value)
  /-- No server could be reached. -/
  | unreachable (name message : String)
  /-- The command could not be built or sent. -/
  | unsendable (name message : String)
  /-- A failure that is not the store's. -/
  | foreign (name message : String)
  deriving Inhabited

namespace Fault

def name : Fault → String
  | refused n .. | unreachable n _ | unsendable n _ | foreign n _ => n

/-- Whether the fault comes from the store and its connection. -/
def isStoreFault : Fault → Bool
  | foreign .. => false
  | _ => true

def code : Fault → Value
  | refused _ _ c _ => c
  | _ => .null

def details : Fault → Value
  | refused _ _ _ d => d
  | unreachable .. => .array []
  | _ => .null

/-- The message; a refusal with details carries them in full. -/
def text : Fault → String
  | refused _ m _ d => if d.isNull then m else m ++ ", full error: " ++ String.ofList d.display
  | unreachable _ m | unsendable _ m | foreign _ m => m

end Fault
end GridQuery

import GridQuery.Store.Fault

/-! # Errors

Each error is a cause; `message` gives its wording. -/
namespace GridQuery

/-- What can be wrong with the form of a request. -/
inductive QueryFault
  | unknownKeys (keys : List String)
  | wrongType (part expected found : String)
  | longClause (clause : String)
  | descriptorShape (index : Nat)
  | missingField (index : Nat)
  | missingOperator (index : Nat) (field : String)
  | queryShape
  | documentShape (action found : String)
  deriving DecidableEq

/-- What a value was to be read as. -/
inductive ValueKind
  | numeric
  | date
  deriving DecidableEq

inductive Error
  /-- The request has the wrong form. -/
  | query (fault : QueryFault)
  /-- Input for a part of the query object that is switched off. -/
  | disabled (part : String)
  | unknownOperator (operator : Value) (field : String)
  /-- A value that its operator, or the field's type, cannot read. -/
  | invalidValue (field operator : String) (value : Value) (kind : ValueKind)
  /-- The store failed. -/
  | execution (message : String) (code details : Value)
  /-- The store's validator turned a document down. -/
  | validation (message : String) (code details : Value)
  /-- A second input for a handler that takes one. -/
  | inputReused (handler : String)
  /-- A requirement of the caller is not met. -/
  | requirement (text : String)
  | unknownSettings (owner : String) (names : List String)
  /-- A value of the right type that is not acceptable, or that cannot be written as text. -/
  | unacceptable
  | unimplemented
  /-- A fault that is not the store's goes through as it is. -/
  | fault (f : Fault)
  /-- A value of a type that has no such operation, or a result that is not there yet. -/
  | shape

namespace ValueKind

def word : ValueKind → String
  | numeric => "numeric"
  | date => "date"

end ValueKind

def shown (v : Value) : String := String.ofList v.display
def plain (v : Value) : String := String.ofList v.plainText
def shownText (s : String) : String := String.ofList (Text.quoted s.toList)
def ordinal (n : Nat) : String := String.ofList (Text.decimalDigits n)

namespace QueryFault

def message : QueryFault → String
  | unknownKeys keys => "Unknown Query Object operations: " ++ ", ".intercalate keys
  | wrongType part expected found => part ++ " must be " ++ expected ++ "; " ++ found ++ " provided."
  | longClause clause => "sort clause must be \"<field> <asc|desc>\", got " ++ shownText clause
  | descriptorShape i =>
    "filter: item #" ++ ordinal i ++ " must be an object with \"field\", \"operator\", \"value\""
  | missingField i => "filter: item #" ++ ordinal i ++ " must have a non-empty \"field\""
  | missingOperator i field =>
    "filter: item #" ++ ordinal i ++ " must have an \"operator\" for field \"" ++ field ++ "\""
  | queryShape => "Query Object must be either an object, or null"
  | documentShape action found =>
    "Document \"" ++ action ++ "\": the value has to be an object, not " ++ found

end QueryFault

namespace Error

/-- The part of a caller's message behind the common opening. -/
def reason? : Error → Option String
  | query f => some f.message
  | disabled part => some ("Query handler \"" ++ part ++ "\" is disabled")
  | unknownOperator operator field =>
    some ("Invalid operator \"" ++ plain operator ++ "\" specified in filter for field \"" ++ field ++ "\"")
  | invalidValue field operator value kind =>
    some ("Invalid " ++ kind.word ++ " value " ++ shown value ++ " for operator \"" ++ operator
      ++ "\" on field \"" ++ field ++ "\"")
  | _ => none

/-- Whether the caller is told about the error, rather than only that there was one. -/
def isReported : Error → Bool
  | execution .. | validation .. => true
  | e => e.reason?.isSome

/-- The HTTP status of the error. -/
def status : Error → Nat
  | validation .. => 400
  | e => if e.reason?.isSome then 400 else 500

def message (e : Error) : String :=
  match e with
  | execution m _ _ | validation m _ _ => m
  | inputReused handler =>
    "You can't use the " ++ handler ++ ".input() method twice. "
      ++ "copy() it before the first input() instead!"
  | requirement text => text
  | unknownSettings owner names =>
    "Invalid settings were provided for " ++ owner ++ ": " ++ ",".intercalate names
  | fault f => f.text
  | e => match e.reason? with
    | some r => "Query object error: " ++ r
    | none => ""

/-- The fault of a stack that is used up. Nobody is told about it but the log. -/
def tooDeep : Error := fault (.foreign "RecursionError" "maximum recursion depth exceeded")

/-- The error of a value that was to be written and cannot be. -/
def ofObstacle : Value.Obstacle → Error
  | .overlong => unacceptable
  | .deep => tooDeep

section
variable [Stack]

/-- The error for an operator that is not in the table; its message needs the operator's text. -/
def ofOperator (operator : Value) (field : String) : Error :=
  match operator.obstacle? Stack.messageRoom with
  | some o => ofObstacle o
  | none => unknownOperator operator field

/-- The error for a value that cannot be read; its message needs the value's text. -/
def ofValue (field operator : String) (value : Value) (kind : ValueKind) : Error :=
  match value.obstacle? Stack.messageRoom with
  | some o => ofObstacle o
  | none => invalidValue field operator value kind

end

/-- A store fault as an error. Code 121 is the server's code for documents that its validator turns
down; the list of failures then stands within the details. -/
def ofFault (f : Fault) : Error :=
  let isValidation := match f.code with
    | .int n => n == 121
    | .double d => d.numEq (Double.ofInt 121)
    | _ => false
  if isValidation then
    let details := if f.details.truthy then f.details else .document []
    match details with
    | .document fields =>
      let info := Value.entry fields "errInfo"
      match if info.truthy then info else .document [] with
      | .document info => validation f.text f.code (Value.entry info "details")
      | _ => shape
    | _ => shape
  else execution f.text f.code f.details

/-- The error a store call ends with. -/
def ofCall (f : Fault) : Error := if f.isStoreFault then ofFault f else fault f

end Error
end GridQuery

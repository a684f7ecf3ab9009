import GridQuery.Query.Intake
import GridQuery.Query.Stage
import GridQuery.Text.Blank

/-! # Sort specifications

Clauses with commas between them, each a field and a direction. Only the word `asc` sorts in ascending
order. A field that is named again keeps its place and takes the later direction. -/
namespace GridQuery
open Text

namespace SortSpec

def directionOf (word : List Char) : Direction :=
  if word = ['a', 's', 'c'] then .ascending else .descending

/-- Adds a clause to a specification; a blank clause says nothing. -/
def addClause (spec : SortSpec) (clause : List Char) : Except Error SortSpec :=
  match words clause with
  | [] => .ok spec
  | [field] => .ok (Table.put spec (String.ofList field) .descending)
  | [field, word] => .ok (Table.put spec (String.ofList field) (directionOf word))
  | _ => .error (.query (.longClause (String.ofList (trim clause))))

def addClauses (spec : SortSpec) : List (List Char) → Except Error SortSpec
  | [] => .ok spec
  | c :: r => do
    let spec ← addClause spec c
    addClauses spec r

def ofText (s : List Char) : Except Error SortSpec := addClauses [] (splitAt ',' s)

/-- Reads a sort specification; everything empty is the empty one. -/
def ofValue (v : Value) : Except Error SortSpec :=
  if v.truthy then
    match v with
    | .text s => ofText s.toList
    | v => .error (.query (.wrongType "sort" "a string: \"<field> <asc|desc>\"" v.kind))
  else .ok []

def clauseText (e : String × Direction) : String :=
  e.1 ++ " " ++ (match e.2 with
    | .ascending => "asc"
    | .descending => "desc")

/-- The text of a specification, with both directions written out. -/
def text (spec : SortSpec) : String := ", ".intercalate (spec.map clauseText)

end SortSpec

structure SortHandler where
  intake : Intake
  spec : Option SortSpec

namespace SortHandler

def handlerName : String := "MongoSort"

def init : SortHandler := ⟨.fresh, none⟩

def input (h : SortHandler) (v : Value) : Reply SortHandler Unit :=
  match h.intake.take handlerName v with
  | .error e => ⟨.error e, h⟩
  | .ok i =>
    match SortSpec.ofValue v with
    | .error e => ⟨.error e, { h with intake := i }⟩
    | .ok s => ⟨.ok (), ⟨i, some s⟩⟩

theorem input_ensures (h : SortHandler) (v : Value) :
    (h.input v).Ensures
      (fun k => h.intake.received = false ∧ ∃ s, SortSpec.ofValue v = .ok s ∧ k = ⟨⟨true, v⟩, some s⟩)
      (fun k => h.intake.received = true ∧ k = h ∨
        h.intake.received = false ∧ k = { h with intake := ⟨true, v⟩ }) := by
  cases hr : h.intake.received <;> cases hs : SortSpec.ofValue v <;>
    simp [input, Intake.take, hr, hs, Reply.Ensures]

/-- The specification with the fields of another put into it. -/
def merged (h : SortHandler) (v : Value) : Except Error SortSpec :=
  match h.spec with
  | none => .error .shape
  | some s => (SortSpec.ofValue v).map (Table.putAll s)

def isInputEmpty (h : SortHandler) : Bool :=
  match h.spec with
  | some (_ :: _) => false
  | _ => true

def statement (h : SortHandler) : Except Error SortSpec :=
  match h.spec with
  | none => .error .shape
  | some s => .ok s

def stages (h : SortHandler) : List Stage :=
  match h.spec with
  | some (e :: s) => [.sort (e :: s)]
  | _ => []

def finalInput (h : SortHandler) : Except Error Value :=
  match h.spec with
  | none => .error .shape
  | some s => .ok (.text s.text)

end SortHandler
end GridQuery

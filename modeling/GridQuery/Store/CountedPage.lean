import GridQuery.Store.Basic
import GridQuery.Reply

/-! # Counted pages

A pipeline that ends with the stage that pages and counts yields one document, with the page in one
branch and the total in the other. It is run once, when the first part of its result is asked for. -/
namespace GridQuery

structure CountedPage where
  pipeline : List Value
  collection : Option String
  dataBranch : Value
  countBranch : Value
  countField : Value
  /-- The documents of the page, once the pipeline was run. -/
  data : Option (List Value)
  /-- The total, null until it is known. -/
  total : Value

namespace CountedPage

def init (pipeline : List Value) (collection : Option String)
    (dataBranch countBranch countField : Value) : CountedPage :=
  ⟨pipeline, collection, dataBranch, countBranch, countField, none, .null⟩

def withCollection (c : CountedPage) (collection : String) : CountedPage :=
  { c with collection := some collection }

mutual

/-- Whether a value can be a key: a collection that can grow cannot. -/
def isKey : Value → Bool
  | .array _ | .document _ => false
  | .tuple items => areKeys items
  | _ => true

def areKeys : List Value → Bool
  | [] => true
  | v :: r => isKey v && areKeys r

end

/-- The entry of a document under any key. Keys of documents are texts, so another key has none. -/
def lookup? (fields : Document) (key : Value) : Except Error (Option Value) :=
  match key with
  | .text k => .ok (Table.get? fields k)
  | k => if isKey k then .ok none else .error .shape

/-- The items of a branch: those of a sequence, the characters of a text, the keys of a document. -/
def itemsOf (v : Value) : Except Error (List Value) :=
  match v with
  | .array items | .tuple items => .ok items
  | .text s => .ok (s.toList.map fun c => .text (String.singleton c))
  | .document fields => .ok (fields.map fun e => .text e.1)
  | .bytes data => .ok (data.map fun b => .int b.toNat)
  | _ => .error .shape

/-- The total in the first row of the count branch; without a row, or the field, it is zero. -/
def totalOf (countField rows : Value) : Except Error Value :=
  if rows.truthy then
    match rows.items? with
    | some (.document row :: _) => (lookup? row countField).map fun v => v.getD (.int 0)
    | _ => .error .shape
  else .ok (.int 0)

/-- Takes the page and the total out of a result document. The page is kept even if the total cannot
be found. -/
def unwrap (c : CountedPage) (response : Value) : Reply CountedPage Unit :=
  match if response.truthy then response else .document [] with
  | .document fields =>
    match lookup? fields c.dataBranch with
    | .error e => ⟨.error e, c⟩
    | .ok rows? =>
      let rows := rows?.getD .null
      match if rows.truthy then itemsOf rows else .ok [] with
      | .error e => ⟨.error e, c⟩
      | .ok data =>
        let c := { c with data := some data }
        match (lookup? fields c.countBranch).bind fun v? => totalOf c.countField (v?.getD .null) with
        | .error e => ⟨.error e, c⟩
        | .ok total => ⟨.ok (), { c with total := total }⟩
  | _ => ⟨.error .shape, c⟩

/-- Runs the pipeline. What the page and the store have become is kept when there is an error. -/
def execute (c : CountedPage) (s : Store) : Reply (CountedPage × Store) Unit :=
  match c.collection with
  | none => ⟨.error (.requirement "CountingPipeline has no collection to run against"), (c, s)⟩
  | some collection =>
    match Store.aggregate collection c.pipeline s with
    | (.error e, s) => ⟨.error e, (c, s)⟩
    | (.ok response, s) => (c.unwrap response).within (·, s)

/-- Runs the pipeline unless its result is known, and takes an answer from the result. -/
def ask {α : Type} (known : CountedPage → Bool) (result : CountedPage → α) (c : CountedPage) (s : Store) :
    Reply (CountedPage × Store) α :=
  if known c then ⟨.ok (result c), (c, s)⟩
  else (c.execute s).andThen fun t _ => ⟨.ok (result t.1), t⟩

/-- The total number of documents. -/
def count (c : CountedPage) (s : Store) : Reply (CountedPage × Store) Value :=
  ask (fun c => !c.total.isNull) (·.total) c s

/-- The documents of the page. -/
def documents (c : CountedPage) (s : Store) : Reply (CountedPage × Store) (List Value) :=
  ask (·.data.isSome) (fun c => c.data.getD []) c s

/-- A page and the total number of documents. -/
structure Result where
  data : List Value
  total : Value

def Result.toDocument (r : Result) : Document := [("data", .array r.data), ("total", r.total)]

/-- The documents of the page and the total. -/
def page (c : CountedPage) (s : Store) : Reply (CountedPage × Store) Result :=
  ask (·.data.isSome) (fun c => ⟨c.data.getD [], c.total⟩) c s

end CountedPage
end GridQuery

import GridQuery.Query.Pipeline
import GridQuery.Store.CountedPage
import GridQuery.Crud.DateField
import GridQuery.Crud.Identifier

/-! # Work on the documents of a collection

Reading goes through a pipeline that is compiled before the store is asked. Writing looks up the
validator of the collection first and reads the date fields that it declares. -/
namespace GridQuery

/-- The stages of a pipeline, as a page that is run when its result is asked for. -/
def Pipeline.countedPage (p : Pipeline) (collection : Option String) : Except Error CountedPage :=
  p.stages.map fun stages =>
    .init (stages.map Stage.toValue) collection (.text dataBranch) (.text countBranch) p.count.field

/-- The pipeline that every query starts from. It never takes input itself. -/
structure Crud where
  pipeline : Pipeline

namespace Crud

/-- A result as work on a store that makes no call. -/
def pureWork {α : Type} (e : Except Error α) : StoreM α := fun s => (e, s)

@[simp] theorem pureWork_ok_bind {α β : Type} (a : α) (next : α → StoreM β) :
    (pureWork (.ok a) >>= next) = next a := rfl

@[simp] theorem pureWork_error_bind {α β : Type} (e : Error) (next : α → StoreM β) :
    (pureWork (.error e) >>= next) = pureWork (.error e) := rfl

variable [Stack]

/-- Settings are named arguments here, so that the receiver's name cannot be one. -/
def init : Value → Except Error Crud
  | .document settings =>
    if Table.contains settings Pipeline.reservedKey then .error .shape
    else (Pipeline.init (.document settings)).map fun p => ⟨p⟩
  | _ => .error .shape

theorem init_eq_ok {settings : Value} {c : Crud} (h : init settings = .ok c) :
    Pipeline.init settings = .ok c.pipeline := by
  unfold init at h
  cases settings with
  | document d =>
    dsimp only at h
    split at h
    · cases h
    · obtain ⟨p, hp, rfl⟩ := map_eq_ok_iff.mp h
      exact hp
  | _ => cases h

/-- The pipeline for a query object; null is the empty one. -/
def query (c : Crud) (q : Value) : Except Error Pipeline :=
  let run (fields : Document) : Except Error Pipeline :=
    let r := c.pipeline.query fields
    r.answer.map fun _ => r.state
  match q with
  | .null => run []
  | .document fields => run fields
  | _ => .error (.query .queryShape)

/-- A page of the documents that a query object describes, and their total number. -/
def list (c : Crud) (collection : String) (q : Value) : StoreM CountedPage.Result := do
  let p ← pureWork (c.query q)
  let page ← pureWork (p.countedPage (some collection))
  fun s =>
    let r := page.page s
    (r.answer, r.state.2)

/-- The query object is compiled before the store is asked. -/
theorem list_eq (c : Crud) (collection : String) (q : Value) : c.list collection q =
    match (c.query q).bind fun p => p.countedPage (some collection) with
    | .error e => pureWork (.error e)
    | .ok page => fun s => ((page.page s).answer, (page.page s).state.2) := by
  unfold list
  cases c.query q with
  | error e => rfl
  | ok p =>
    rw [pureWork_ok_bind, Except.bind]
    cases p.countedPage (some collection) <;> rfl

/-- The entry of a document. Everything empty counts as a document without entries. -/
def entryOf (v : Value) (key : String) : Except Error Value :=
  if v.truthy then
    match v with
    | .document d => .ok (Value.entry d key)
    | _ => .error .shape
  else .ok .null

/-- The validator of a collection, or null. -/
def validator (database collection : String) : StoreM Value := do
  match ← Store.collectionInfo database collection with
  | none => return .null
  | some info => pureWork (entryOf (Value.entry info "options") "validator")

/-- The properties that the validator of a collection declares. -/
def validatorSchema (database collection : String) : StoreM Value := do
  let v ← validator database collection
  let schema ← pureWork (entryOf v "$jsonSchema")
  let properties ← pureWork (entryOf schema "properties")
  return if properties.truthy then properties else .document []

/-- The document of a write; anything but a document is refused. -/
def documentOf (action : String) : Value → Except Error Document
  | .document d => .ok d
  | v => .error (.query (.documentShape action v.kind))

/-- The document that is written: the given one with its date fields read. -/
def prepareDocument (action database collection : String) (v : Value) : StoreM Document := do
  let d ← pureWork (documentOf action v)
  let properties ← validatorSchema database collection
  pureWork (DateField.coerce properties d)

def create (database collection : String) (v : Value) : StoreM Document := do
  let d ← prepareDocument "create" database collection v
  let a ← Store.insert (Store.collectionName database collection) d
  return [("acknowledged", a.acknowledged), ("insertedId", a.insertedId)]

variable [Library]

/-- The filter for the document with an identifier. -/
def byId (id : Value) : Value := .single "_id" id.asIdentifier

/-- Writes the fields of the given document, and leaves the others. -/
def update (database collection : String) (id v : Value) : StoreM Document := do
  let d ← prepareDocument "update" database collection v
  let a ← Store.update (Store.collectionName database collection) (byId id) (.single "$set" (.document d))
  return [("acknowledged", a.acknowledged), ("matchedCount", a.matchedCount),
    ("modifiedCount", a.modifiedCount), ("upsertedId", a.upsertedId),
    ("upsertedCount", .int (if a.upsertedId.isNull then 0 else 1))]

def delete (database collection : String) (id : Value) : StoreM Document := do
  let a ← Store.delete (Store.collectionName database collection) (byId id)
  return [("acknowledged", a.acknowledged), ("deletedCount", a.deletedCount)]

end Crud
end GridQuery

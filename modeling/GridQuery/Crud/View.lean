import GridQuery.Crud.Collection

/-! # Views: one request to one collection -/
namespace GridQuery

inductive CrudMethod
  | list
  | schema
  | create
  | update
  | delete
  deriving DecidableEq

def CrudMethod.name : CrudMethod → String
  | list => "LIST"
  | schema => "SCHEMA"
  | create => "CREATE"
  | update => "UPDATE"
  | delete => "DELETE"

/-- What a view works on. -/
structure ViewSource where
  crud : Crud
  database : String
  collection : String
  queryObject : Value
  filter : Value

/-- A view, and the method that it was last asked for. A view without a source implements nothing. -/
structure View where
  source : Option ViewSource
  method : Option CrudMethod

namespace View

/-- The key and the value of an item that is to become an entry: a sequence of two, a text of two
characters or a document of two keys. -/
def pairOf (v : Value) : Except Error (Value × Value) :=
  let items? : Option (List Value) := match v with
    | .array items | .tuple items => some items
    | .text s => some (s.toList.map fun c => .text (String.singleton c))
    | .document d => some (d.map fun e => .text e.1)
    | .bytes b => some (b.map fun x => .int x.toNat)
    | _ => none
  match items? with
  | some [k, x] => if CountedPage.isKey k then .ok (k, x) else .error .shape
  | some _ => .error .unacceptable
  | none => .error .shape

/-- The pairs of a sequence, up to the first item that is none. -/
def pairsOf : List Value → Except Error (List (Value × Value))
  | [] => .ok []
  | v :: r => do
    let p ← pairOf v
    let ps ← pairsOf r
    return p :: ps

/-- A document from pairs. Its keys must be texts. -/
def documentOfPairs : Document → List (Value × Value) → Except Error Document
  | d, [] => .ok d
  | d, (.text k, v) :: r => documentOfPairs (Table.put d k v) r
  | _, _ :: _ => .error .shape

/-- A query object from a document or from pairs; everything empty is the empty one. -/
def queryDocument (v : Value) : Except Error Document :=
  if v.truthy then
    match v with
    | .document d => .ok d
    | .array items | .tuple items => do
      let pairs ← pairsOf items
      documentOfPairs [] pairs
    | .text s => do
      let pairs ← pairsOf (s.toList.map fun c => .text (String.singleton c))
      documentOfPairs [] pairs
    | _ => .error .shape
  else .ok []

variable [Stack]

/-- The page of documents for the view's query object, with the view's filter in it. -/
def listOf (s : ViewSource) : StoreM CountedPage.Result := do
  let q ← Crud.pureWork (queryDocument s.queryObject)
  s.crud.list (Store.collectionName s.database s.collection)
    (.document (Table.put q "filter" s.filter))

/-- Starts a method: what runs then is given by the source. -/
def start {α : Type} (v : View) (m : CrudMethod) (missing : Error) (run : ViewSource → StoreM α) :
    View × StoreM α :=
  ({ v with method := some m }, match v.source with
    | some s => run s
    | none => throw missing)

def list (v : View) : View × StoreM CountedPage.Result := v.start .list .unimplemented listOf

def schema (v : View) : View × StoreM Value :=
  v.start .schema .shape fun s => Crud.validator s.database s.collection

def create (v : View) (entity : Value) : View × StoreM Document :=
  v.start .create .shape fun s => Crud.create s.database s.collection entity

variable [Library]

def update (v : View) (id entity : Value) : View × StoreM Document :=
  v.start .update .shape fun s => Crud.update s.database s.collection id entity

def delete (v : View) (id : Value) : View × StoreM Document :=
  v.start .delete .shape fun s => Crud.delete s.database s.collection id

end View
end GridQuery

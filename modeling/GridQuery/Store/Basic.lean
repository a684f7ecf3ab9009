import GridQuery.Error

/-! # The document store

A store is seen through the calls that are made to it: it keeps them, in order, and has an answer ready
for each call to come. -/
namespace GridQuery

inductive Call
  | aggregate (collection : String) (pipeline : List Value)
  | insert (collection : String) (document : Document)
  | update (collection : String) (filter change : Value)
  | delete (collection : String) (filter : Value)
  | listCollections (database name : String)
  | listDatabases
  | listCollectionNames (database : String)

structure InsertAnswer where
  acknowledged : Value
  insertedId : Value

structure UpdateAnswer where
  acknowledged : Value
  matchedCount : Value
  modifiedCount : Value
  upsertedId : Value

structure DeleteAnswer where
  acknowledged : Value
  deletedCount : Value

def InsertAnswer.default : InsertAnswer := ⟨.bool true, .null⟩
def UpdateAnswer.default : UpdateAnswer := ⟨.bool true, .int 0, .int 0, .null⟩
def DeleteAnswer.default : DeleteAnswer := ⟨.bool true, .int 0⟩

structure Store where
  /-- Answers to aggregations to come: the one document that is found, or null. -/
  aggregates : List (Except Fault Value)
  inserts : List (Except Fault InsertAnswer)
  updates : List (Except Fault UpdateAnswer)
  deletes : List (Except Fault DeleteAnswer)
  /-- What is known about collections. -/
  infos : Except Fault (List Document)
  databases : Except Fault (List (String × Except Fault (List String)))
  calls : List Call

/-- Work on a store, which keeps the calls that were made before an error. -/
abbrev StoreM := ExceptT Error (StateM Store)

namespace Store

/-- A store without data. -/
def empty : Store := ⟨[], [], [], [], .ok [], .ok [], []⟩

/-- The full name of a collection. -/
def collectionName (database collection : String) : String := database ++ "." ++ collection

def record (c : Call) (s : Store) : Store := { s with calls := s.calls ++ [c] }

/-- The next answer of a list, or the default when there is none left. -/
def next {α : Type} (default : α) : List (Except Fault α) → Except Fault α × List (Except Fault α)
  | [] => (.ok default, [])
  | a :: r => (a, r)

def answer {α : Type} : Except Fault α → Except Error α
  | .ok a => .ok a
  | .error f => .error (Error.ofCall f)

def aggregate (collection : String) (pipeline : List Value) : StoreM Value := fun s =>
  let n := next .null s.aggregates
  (answer n.1, { s.record (.aggregate collection pipeline) with aggregates := n.2 })

def insert (collection : String) (document : Document) : StoreM InsertAnswer := fun s =>
  let n := next .default s.inserts
  (answer n.1, { s.record (.insert collection document) with inserts := n.2 })

def update (collection : String) (filter change : Value) : StoreM UpdateAnswer := fun s =>
  let n := next .default s.updates
  (answer n.1, { s.record (.update collection filter change) with updates := n.2 })

def delete (collection : String) (filter : Value) : StoreM DeleteAnswer := fun s =>
  let n := next .default s.deletes
  (answer n.1, { s.record (.delete collection filter) with deletes := n.2 })

/-- What is known about the first collection with a name. -/
def collectionInfo (database name : String) : StoreM (Option Document) := fun s =>
  (answer (s.infos.map fun infos => infos.find? fun i => (Value.entry i "name").isText name),
    s.record (.listCollections database name))

def databaseNames : StoreM (List String) := fun s =>
  (answer (s.databases.map fun ds => ds.map Prod.fst), s.record .listDatabases)

def collectionNames (database : String) : StoreM (List String) := fun s =>
  let names := match s.databases with
    | .error _ => .ok []
    | .ok ds => match Table.get? ds database with
      | some names => names
      | none => .ok []
  (answer names, s.record (.listCollectionNames database))

end Store

/-- Databases that are never listed. -/
def systemDatabases : List String := ["admin", "local"]

/-- Each name with the collections of that database. -/
def describeDatabases : List String → StoreM (List Value)
  | [] => return []
  | name :: r => do
    let names ← Store.collectionNames name
    let rest ← describeDatabases r
    let entry : Document := [("databaseName", .text name), ("collections", .array (names.map .text))]
    return .document entry :: rest

/-- The databases of a store with their collections. -/
def listDatabases : StoreM Value := do
  let names ← Store.databaseNames
  let entries ← describeDatabases (names.filter fun n => !systemDatabases.contains n)
  return .array entries

end GridQuery

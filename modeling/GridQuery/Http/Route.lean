import GridQuery.Text.Blank

/-! # Routes

A path is matched segment by segment. Where a fixed word and a variable both match, the word is tried
first, and the variable still has its chance if the method does not fit. -/
namespace GridQuery.Http
open Text

/-- What a request is for. -/
inductive Endpoint
  | databases
  | query (database collection : String)
  | schema (database collection : String)
  | insert (database collection : String)
  | update (database collection id : String)
  | delete (database collection id : String)
  /-- A file; none is ever there. -/
  | file
  deriving DecidableEq

/-- What becomes of a request by its method and path. -/
inductive Routing
  | found (e : Endpoint)
  /-- A question for the methods of a path that exists. -/
  | options
  /-- The path exists with fewer slashes, or with the one that an empty path lacks. -/
  | redirect
  | wrongMethod
  | notFound

/-- Whether a text can be the path of a file: it begins with no slash and has no further line. -/
def isFilePath (s : List Char) : Bool :=
  match s with
  | [] => false
  | c :: r => c ≠ '/' && r.all (· ≠ '\n')

def joinSegments : List (List Char) → List Char
  | [] => []
  | [s] => s
  | s :: t :: r => s ++ '/' :: joinSegments (t :: r)

/-- The endpoints of a path, by method, in the order in which they are tried. -/
def endpoints (segments : List (List Char)) : List (List String × Endpoint) :=
  let s := String.ofList
  let files := match segments with
    | ['s', 't', 'a', 't', 'i', 'c'] :: r =>
      if isFilePath (joinSegments r) then [(["GET", "HEAD"], Endpoint.file)] else []
    | _ => []
  let others := match segments with
    | [[]] => [(["GET", "HEAD"], Endpoint.databases)]
    | [d, c] => if d ≠ [] ∧ c ≠ [] then [(["POST"], .query (s d) (s c))] else []
    | [d, c, i] =>
      if d ≠ [] ∧ c ≠ [] ∧ i ≠ [] then
        (if i = "schema".toList then [(["GET", "HEAD"], Endpoint.schema (s d) (s c))] else [])
          ++ (if i = "insert".toList then [(["POST"], Endpoint.insert (s d) (s c))] else [])
          ++ [(["PUT"], .update (s d) (s c) (s i)), (["DELETE"], .delete (s d) (s c) (s i))]
      else []
    | _ => []
  files ++ others

/-- Slashes in a row as one. -/
def mergeSlashes : List Char → List Char
  | c :: r => if c = '/' ∧ r.head? = some '/' then mergeSlashes r else c :: mergeSlashes r
  | [] => []

/-- The segments of a path that begins with one slash. -/
def segmentsOf (path : List Char) : List (List Char) := splitAt '/' (path.drop 1)

/-- The first endpoint of a path that a method can have. -/
def endpoint? (method : String) (path : List Char) : Option Endpoint :=
  ((endpoints (segmentsOf path)).find? fun e => e.1.contains method).map Prod.snd

def isServed (path : List Char) : Bool := !(endpoints (segmentsOf path)).isEmpty

/-- Routes a request by its method and a path that begins with a slash. -/
def routeRooted (method : String) (path : List Char) : Routing :=
  let merged := mergeSlashes path
  if method = "OPTIONS" then
    if isServed path then .options
    else if isServed merged then .redirect
    else .notFound
  else match endpoint? method path with
    | some e => .found e
    | none =>
      if (endpoint? method merged).isSome then .redirect
      else if isServed path || isServed merged then .wrongMethod
      else .notFound

/-- Routes a request by method and path. An empty path leads to the root for the methods that the root
has, and nowhere for all others. -/
def route (method : String) (path : List Char) : Routing :=
  if path = [] then
    match routeRooted method ['/'] with
    | .found _ | .options => .redirect
    | _ => .notFound
  else routeRooted method path

end GridQuery.Http

import GridQuery.Crud.View
import GridQuery.Http.Argument
import GridQuery.Http.Route
import GridQuery.Json.Plain
import GridQuery.Json.Reader

/-! # The service

Every request is answered once, and leaves one line in the access log behind at most one diagnostic. -/
namespace GridQuery.Http
open Text

structure Request where
  method : String
  /-- The path as it is sent, in percent encoding. -/
  path : String
  query : String
  body : List UInt8

inductive Level
  | info
  | warning
  | error
  deriving DecidableEq

def Level.name : Level → String
  | info => "INFO"
  | warning => "WARNING"
  | error => "ERROR"

structure LogLine where
  level : Level
  message : String
  deriving DecidableEq

structure Response where
  status : Nat
  /-- The body, unless it is empty or no JSON. -/
  body : Option Value
  log : List LogLine

/-- Why a request is not answered as it was meant. -/
inductive Failure
  | notFound
  | methodNotAllowed
  /-- The body is no JSON. -/
  | badRequest
  /-- Something else failed while the request was reported. -/
  | internal
  | work (e : Error)
  /-- A result that cannot be shown. -/
  | unshowable

namespace Failure

def status : Failure → Nat
  | notFound => 404
  | methodNotAllowed => 405
  | badRequest => 400
  | internal => 500
  | work e => e.status
  | unshowable => 500

def message : Failure → String
  | notFound => "The requested URL was not found on the server. If you entered the URL manually "
      ++ "please check your spelling and try again."
  | methodNotAllowed => "The method is not allowed for the requested URL."
  | badRequest => "The browser (or proxy) sent a request that this server could not understand."
  | internal => "The server encountered an internal error and was unable to complete your request. "
      ++ "Either the server is overloaded or there is an error in the application."
  | work e => if e.isReported then e.message else "Something went wrong"
  | unshowable => "Something went wrong"

/-- The fields of the response to a failure. -/
def fields (f : Failure) : Document :=
  let common : Document := [("status", .int f.status), ("message", .text f.message)]
  match f with
  | work (.validation _ _ details) => common ++ [("validationErrorDetails", details)]
  | _ => common

end Failure

/-- Work on the store that may also fail for reasons of its own. -/
abbrev ServiceM := ExceptT Failure (StateM Store)

def lift {α : Type} (work : StoreM α) : ServiceM α := fun s =>
  match work s with
  | (.ok a, s) => (.ok a, s)
  | (.error e, s) => (.error (.work e), s)

variable [Stack]

/-- The value in the body of a request. Only what is no JSON is the fault of the request. -/
def bodyValue (r : Request) : ServiceM Value :=
  match Json.readBytes r.body with
  | .ok v => return v
  | .error .malformed => throw .badRequest
  | .error .deep => throw (.work Error.tooDeep)

/-- The filter in the body of a request; no body is no filter. -/
def bodyFilter (r : Request) : ServiceM Value :=
  if r.body.isEmpty then return .null else bodyValue r

/-- A view of the collection that a request names. -/
def viewSource (crud : Crud) (r : Request) (database collection : String) (filter : Value) : ViewSource where
  crud := crud
  database := database
  collection := collection
  queryObject := .document (queryObject r.query.toList)
  filter := filter

variable [Library]

/-- The result of the work that an endpoint stands for. -/
def perform (crud : Crud) (r : Request) : Endpoint → ServiceM Value
  | .databases => lift listDatabases
  | .query d c => do
    let filter ← bodyFilter r
    let page ← lift (View.listOf (viewSource crud r d c filter))
    return .document page.toDocument
  | .schema d c => lift (Crud.validator d c)
  | .insert d c => do
    let v ← bodyValue r
    return .document (← lift (Crud.create d c v))
  | .update d c i => do
    let v ← bodyValue r
    return .document (← lift (Crud.update d c (.text i) v))
  | .delete d c i => return .document (← lift (Crud.delete d c (.text i)))
  | .file => throw .notFound

/-- The result in the form in which it is shown. -/
def shownResult (crud : Crud) (r : Request) (e : Endpoint) : ServiceM Value := do
  let v ← perform crud r e
  match Json.plain? v with
  | some v => return v
  | none => throw .unshowable

/-- The path of a request, decoded and with one slash in front. -/
def requestPath (r : Request) : List Char :=
  '/' :: (decodePath r.path.toList).dropWhile (· = '/')

/-- The path that decides what a request is for. Unlike the path that is reported, it may be empty. -/
def routedPath (r : Request) : List Char := if r.path = "" then [] else requestPath r

/-- The method in capitals, in which it is matched and reported. -/
def requestMethod (r : Request) : String := r.method.toUpper

def requestLine (r : Request) : String := requestMethod r ++ " " ++ String.ofList (requestPath r)

/-- The line that diagnoses a failure. -/
def diagnosis (r : Request) (f : Failure) : LogLine :=
  if f.status < 500 then ⟨.warning, requestLine r ++ " rejected: " ++ f.message⟩
  else ⟨.error, requestLine r ++ " failed"⟩

/-- The line of the access log, with the query string unless it is empty. -/
def accessLine (r : Request) (status : Nat) : LogLine :=
  let target := requestPath r ++ '?' :: r.query.toList
  let target := (target.reverse.dropWhile (· = '?')).reverse
  ⟨.info, requestMethod r ++ " " ++ String.ofList target ++ " " ++ ordinal status⟩

/-- A body is left out of the answer to a request for the head only, as long as its method is sent in
capitals. -/
def withBody (r : Request) (v : Value) : Option Value := if r.method = "HEAD" then none else some v

/-- The response to a failure. Details that cannot be shown are a failure in turn. -/
def failureResponse (r : Request) (f : Failure) : Response :=
  match Json.plain? (.document f.fields) with
  | some body => ⟨f.status, withBody r body, [diagnosis r f, accessLine r f.status]⟩
  | none =>
    let path := String.ofList (requestPath r)
    let outer := Failure.internal
    ⟨outer.status, withBody r (.document outer.fields),
      [diagnosis r f, ⟨.error, "Exception on " ++ path ++ " [" ++ requestMethod r ++ "]"⟩,
        diagnosis r outer, accessLine r outer.status]⟩

/-- Answers one request. -/
def handle (crud : Crud) (r : Request) (s : Store) : Response × Store :=
  match route (requestMethod r) (routedPath r) with
  | .found e =>
    match shownResult crud r e s with
    | (.ok v, s) => (⟨200, withBody r v, [accessLine r 200]⟩, s)
    | (.error f, s) => (failureResponse r f, s)
  | .options => (⟨200, none, [accessLine r 200]⟩, s)
  | .redirect => (⟨308, none, [accessLine r 308]⟩, s)
  | .wrongMethod => (failureResponse r .methodNotAllowed, s)
  | .notFound => (failureResponse r .notFound, s)

end GridQuery.Http

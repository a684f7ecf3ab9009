import GridQuery.Query.Signature
import GridQuery.Query.Search
import GridQuery.Query.Filter
import GridQuery.Query.Sort
import GridQuery.Query.Limit
import GridQuery.Query.Count

/-! # Handlers of every kind

One type for the handlers of all parts of a query object, and the operations they share. A kind without
an operation answers with an error. -/
namespace GridQuery

inductive HandlerKind
  | search
  | filter
  | sort
  | limit
  | count
  /-- A handler that takes its input and does nothing with it. -/
  | plain
  deriving DecidableEq, Repr

namespace HandlerKind

/-- The constructor of a handler. -/
def signature : HandlerKind → Signature
  | search => ⟨[.required "self", .optional "search_index" .null], by decide⟩
  | filter => ⟨[.required "self", .optional "force_filter" .null], by decide⟩
  | sort => ⟨[.required "self"], by decide⟩
  | limit =>
    ⟨[.required "self", .optional "default_page_size" (.int 10), .optional "max_items" .null], by decide⟩
  | count => ⟨[.required "self", .optional "count_field" (.text "total")], by decide⟩
  | plain => ⟨[.required "self"], by decide⟩

/-- The settings of a handler, with their defaults. -/
def defaults (kind : HandlerKind) : Document := kind.signature.defaults

/-- The settings of a handler out of a table of settings. -/
def pluck (kind : HandlerKind) (settings : Document) (skip : List String) : Document :=
  kind.signature.pluck settings skip

end HandlerKind

inductive Handler
  | search (h : SearchHandler)
  | filter (h : FilterHandler)
  | sort (h : SortHandler)
  | limit (h : LimitHandler)
  | count (h : CountHandler)
  | plain (i : Intake)

namespace Handler

variable [Stack]

/-- A handler with the given settings. A name that is not among its settings is refused. -/
def init (kind : HandlerKind) (settings : Document) : Except Error Handler :=
  if (Table.keys settings).any fun k => !Table.contains kind.defaults k then .error .shape
  else
    let s := kind.pluck settings []
    match kind with
    | .search => .ok (search (.init (Value.entry s "search_index")))
    | .filter => (FilterHandler.init (Value.entry s "force_filter")).map filter
    | .sort => .ok (sort .init)
    | .limit =>
      (LimitHandler.init (Value.entry s "default_page_size") (Value.entry s "max_items")).map limit
    | .count => .ok (count (.init (Value.entry s "count_field")))
    | .plain => .ok (plain .fresh)

def intake : Handler → Intake
  | search h => h.intake
  | filter h => h.intake
  | sort h => h.intake
  | limit h => h.intake
  | count h => h.intake
  | plain i => i

/-- The name of the handler of the base kind. -/
def plainName : String := "MongoPipelineHandlerBase"

/-- Takes an input; only pagination looks at the second value. -/
def input (h : Handler) (v w : Value) : Reply Handler Unit :=
  match h with
  | search h => (h.input v).within search
  | filter h => (h.input v).within filter
  | sort h => (h.input v).within sort
  | limit h => (h.input v w).within limit
  | count h => (h.input v).within count
  | plain i =>
    match i.take plainName v with
    | .error e => ⟨.error e, plain i⟩
    | .ok i => ⟨.ok (), plain i⟩

/-- What an accepted input was read as, where later input can be merged into it. -/
inductive Content
  | expressions (es : List Expression)
  | spec (s : SortSpec)

def content? : Handler → Option Content
  | filter h => h.expressions.map .expressions
  | sort h => h.spec.map .spec
  | _ => none

/-- The handler with other content in place of its own. -/
def withContent : Handler → Content → Handler
  | filter h, .expressions es => filter { h with expressions := some es }
  | sort h, .spec s => sort { h with spec := some s }
  | h, _ => h

/-- The content after a merge. -/
def merged (h : Handler) (v : Value) : Except Error Content :=
  match h with
  | filter h => (h.merged v).map .expressions
  | sort h => (h.merged v).map .spec
  | _ => .error .shape

def isInputEmpty : Handler → Bool
  | search h => h.isInputEmpty
  | filter h => h.isInputEmpty
  | sort h => h.isInputEmpty
  | limit h => !h.intake.value.truthy
  | count h => !h.intake.value.truthy
  | plain i => !i.value.truthy

def finalInput : Handler → Except Error Value
  | search h => .ok h.finalInput
  | filter h => h.finalInput
  | sort h => h.finalInput
  | limit h => .ok (.document h.finalInput)
  | count h => .ok h.intake.value
  | plain i => .ok i.value

def statement : Handler → Except Error Value
  | search h => .ok h.statement
  | filter h => h.statement
  | sort h => h.statement.map fun s => .document s.toDocument
  | limit _ | count _ => .error .shape
  | plain _ => .error .unimplemented

def statements : Handler → Except Error (List Value)
  | limit h => h.statements
  | count h => .ok h.statements
  | plain _ => .error .unimplemented
  | _ => .error .shape

def stages : Handler → Except Error (List Stage)
  | search h => .ok h.stages
  | filter h => .ok h.stages
  | sort h => .ok h.stages
  | limit _ | count _ => .error .shape
  | plain _ => .error .unimplemented

/-- Looks at a query object before any part of it is taken. -/
def prepare (h : Handler) (v : Value) : Except Error Value :=
  match h with
  | limit _ => LimitHandler.pack v
  | _ => .ok v

end Handler
end GridQuery

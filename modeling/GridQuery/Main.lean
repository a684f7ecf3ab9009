import GridQuery.Http.Startup
import GridQuery.Json.Printer

/-! # The command line

Starts the service from the environment and answers requests from standard input. A request is a JSON
object with `method`, `path`, `query` and `body`, on one line; so is an answer, with `status` and `body`. The
log goes to standard error. -/
namespace GridQuery.Http

def LogLine.text (l : LogLine) : String := l.level.name ++ " " ++ l.message

/-- What a start that failed is reported with. -/
def StartError.lines : StartError → List String
  | config problems => problems.map fun p => p.1 ++ ": " ++ p.2.name
  | unknownLevel => ["LOG_LEVEL: unknown level"]
  | store f => [f.text]
  | service e => [e.message]

/-- A request from the line that it is written on. -/
def Request.ofLine? (line : String) : Option Request :=
  match Json.read? (some Numeral.digitLimit) line.toList with
  | some (.document d) =>
    let field (name : String) : String := match Value.entry d name with
      | .text s => s
      | _ => ""
    some ⟨field "method", field "path", field "query", Text.encodeUtf8 (field "body").toList⟩
  | _ => none

def Response.line (r : Response) : String :=
  String.ofList (Json.write (.document [("status", .int r.status), ("body", r.body.getD .null)]))

/-- The variables of the environment that the configuration is read from. -/
def environment : List String → IO (Table String)
  | [] => return []
  | name :: r => do
    let value ← IO.getEnv name
    let rest ← environment r
    return match value with
      | some v => (name, v) :: rest
      | none => rest

def printAll (output : IO.FS.Stream) : List String → IO Unit
  | [] => return ()
  | s :: r => do
    output.putStrLn s
    printAll output r

/-- Answers requests until the input ends. A line that is no request is skipped. -/
partial def serve (crud : Crud) (s : Store) : IO Unit := do
  let line ← (← IO.getStdin).getLine
  if line.isEmpty then return ()
  match Request.ofLine? line with
  | none => serve crud s
  | some r =>
    let (response, s) := handle crud r s
    printAll (← IO.getStderr) (response.log.map LogLine.text)
    printAll (← IO.getStdout) [response.line]
    serve crud s

end GridQuery.Http

open GridQuery Http in
/-- Ends with 1 if the service cannot be started. -/
def main : IO UInt32 := do
  let env ← environment Config.names
  let (log, result) := start env none
  let err ← IO.getStderr
  printAll err (log.log.map LogLine.text)
  match result with
  | .error e =>
    printAll err e.lines
    return 1
  | .ok () =>
    match Config.read env with
    | .error _ => return 1
    | .ok c =>
      match createService (.document c.handlerSettings) with
      | .error _ => return 1
      | .ok crud =>
        serve crud Store.empty
        return 0

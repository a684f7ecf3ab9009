import GridQuery.Http.Config
import GridQuery.Http.Service

/-! # Starting the service

The configuration is read, the store is asked for a sign of life, and only then the service runs. What
fails ends the start. -/
namespace GridQuery.Http

/-- A call that starting makes. -/
inductive StartCall
  | client (uri : String) (timeoutMillis : Value)
  | ping
  | run (host : String) (port : Int) (settings : Document)

inductive StartError
  | config (problems : Config.Problems)
  | unknownLevel
  | store (f : Fault)
  | service (e : Error)

/-- What starting has done so far. -/
structure StartLog where
  calls : List StartCall
  log : List LogLine
  /-- The level of diagnostics that is in force. -/
  level : String

def StartLog.initial : StartLog := ⟨[], [], "WARNING"⟩

def StartLog.call (c : StartCall) (s : StartLog) : StartLog := { s with calls := s.calls ++ [c] }

def StartLog.info (message : String) (s : StartLog) : StartLog :=
  { s with log := s.log ++ [⟨.info, message⟩] }

/-- Levels of diagnostics, with the name that each goes by. -/
def levels : Table String := [
  ("CRITICAL", "CRITICAL"), ("FATAL", "CRITICAL"), ("ERROR", "ERROR"), ("WARN", "WARNING"),
  ("WARNING", "WARNING"), ("INFO", "INFO"), ("DEBUG", "DEBUG"), ("NOTSET", "NOTSET")]

/-- Connects to a store; `fault` is what its sign of life fails with, if it does. -/
def connect (uri : String) (timeoutMillis : Value) (fault : Option Fault) (s : StartLog) :
    StartLog × Except Fault Unit :=
  let s := (s.call (.client uri timeoutMillis)).call .ping
  match fault with
  | some f => (s, .error f)
  | none => (s.info "Connected to MongoDB", .ok ())

/-- The part of the service that does not depend on requests. -/
def createService [Stack] (settings : Value) : Except Error Crud :=
  Crud.init (if settings.truthy then settings else .document [])

/-- Starts the service from an environment. -/
def start [Stack] (env : Table String) (fault : Option Fault) : StartLog × Except StartError Unit :=
  let s := StartLog.initial
  match Config.read env with
  | .error problems => (s, .error (.config problems))
  | .ok c =>
    match Table.get? levels c.logLevel with
    | none => (s, .error .unknownLevel)
    | some level =>
      match connect c.database (.int c.timeoutMillis) fault { s with level := level } with
      | (s, .error f) => (s, .error (.store f))
      | (s, .ok ()) =>
        match createService (.document c.handlerSettings) with
        | .error e => (s, .error (.service e))
        | .ok _ =>
          let s := s.info ("Server is running on port " ++ String.ofList (integerText c.port))
          (s.call (.run c.host c.port c.handlerSettings), .ok ())

end GridQuery.Http

import GridQuery.Value.Basic
import GridQuery.Number.Numeral
import GridQuery.Text.Blank

/-! # Configuration of the service

The configuration is read from environment variables. All that is wrong with them is reported at once. -/
namespace GridQuery.Http
open Text

structure Config where
  database : String
  timeoutMillis : Int
  host : String
  port : Int
  logLevel : String
  defaultPageSize : Int
  maxPageSize : Option Int
  searchIndex : Option String

/-- What is wrong with a variable. -/
inductive ConfigProblem
  | missing
  | notAnInteger
  /-- An integer with too many digits. -/
  | overlong
  deriving DecidableEq

def ConfigProblem.name : ConfigProblem → String
  | missing => "missing"
  | notAnInteger => "int_parsing"
  | overlong => "int_parsing_size"

namespace Config

/-- The variables that are read. -/
def names : List String := ["DATABASE", "SERVER_SELECTION_TIMEOUT_MS", "HOST", "PORT", "LOG_LEVEL",
  "DEFAULT_PAGE_SIZE", "MAX_PAGE_SIZE", "SEARCH_INDEX"]

/-- Reads an integer without superfluous characters: an optional minus, and digits that begin with zero
only if there are no others. The limit on digits counts the minus as well, and comes before what may
stand behind them. -/
def readStrict (s : List Char) : Except ConfigProblem Int :=
  let (negative, body) := match s with
    | '-' :: r => (true, r)
    | r => (false, r)
  let digits := body.takeWhile Char.isDigit
  if digits = [] ∨ digits.head? = some '0' ∧ digits.length ≠ 1 then .error .notAnInteger
  else if Numeral.digitLimit < digits.length + (if negative then 1 else 0) then .error .overlong
  else if digits.length ≠ body.length then .error .notAnInteger
  else .ok (Numeral.signed negative (Numeral.ofDigits (Numeral.asciiDigits digits)))

/-- Drops zeros and underscores in front of another digit or a minus, or of the zero before a point.
The text begins with a digit. -/
def dropLeadingZeros? (s : List Char) : Option (List Char) :=
  match s with
  | '0' :: r =>
    let rest := r.dropWhile fun c => c == '0' || c == '_'
    match rest with
    | [] => some (s.drop (s.length - 1))
    | '.' :: _ => some (s.drop (s.length - rest.length - 1))
    | c :: _ => if c = '-' ∨ '1' ≤ c ∧ c ≤ '9' then some rest else none
  | c :: _ => if '1' ≤ c ∧ c ≤ '9' then some s else none
  | [] => none

/-- Drops a point that is followed by zeros, at least one, and nothing else. -/
def dropZeroFraction (s : List Char) : List Char :=
  let whole := s.takeWhile (· ≠ '.')
  let fraction := s.drop (whole.length + 1)
  if fraction ≠ [] ∧ fraction.all (· = '0') then whole else s

/-- Whether two underscores stand side by side. -/
def hasDoubleUnderscore : List Char → Bool
  | '_' :: '_' :: _ => true
  | _ :: r => hasDoubleUnderscore r
  | [] => false

/-- Drops single underscores that stand inside a numeral. -/
def dropUnderscores (s : List Char) : List Char :=
  if s.head? = some '_' ∨ s.getLast? = some '_' ∨ hasDoubleUnderscore s then s
  else s.filter (· ≠ '_')

/-- The plain form of a numeral without a sign: no leading zeros, no fraction of zeros, no
underscores. Zeros may stand before a minus, which then stays. -/
def plainNumeral? (s : List Char) : Option (List Char) :=
  (dropLeadingZeros? s).map fun s => dropUnderscores (dropZeroFraction s)

/-- An integer in its plain form, from one with blanks around it, a sign, leading zeros, a fraction of
zeros or underscores. -/
def plainInteger? (s : List Char) : Option (List Char) :=
  match trimBy Numeral.isNumeralBlank s with
  | '+' :: r => if r.head? = some '-' then none else plainNumeral? r
  | '-' :: r => (plainNumeral? r).map ('-' :: ·)
  | r => plainNumeral? r

/-- Reads an integer as it stands, and otherwise its plain form. -/
def readInteger (s : List Char) : Except ConfigProblem Int :=
  match readStrict s with
  | .error .notAnInteger =>
    match plainInteger? s with
    | some plain => readStrict plain
    | none => .error .notAnInteger
  | result => result

abbrev Problems := List (String × ConfigProblem)

def text (env : Table String) (name default : String) : String := (Table.get? env name).getD default

/-- An integer variable, or its default. -/
def integer (env : Table String) (name : String) (default : Int) : Except Problems Int :=
  match Table.get? env name with
  | none => .ok default
  | some s => (readInteger s.toList).mapError fun problem => [(name, problem)]

def problemsOf {α : Type} : Except Problems α → Problems
  | .ok _ => []
  | .error p => p

/-- Reads the configuration. Problems are listed by the name of the variable. -/
def read (env : Table String) : Except Problems Config :=
  let database : Except Problems String := match Table.get? env "DATABASE" with
    | some s => .ok s
    | none => .error [("DATABASE", .missing)]
  let pageSize := integer env "DEFAULT_PAGE_SIZE" 10
  let maxSize : Except Problems (Option Int) := match Table.get? env "MAX_PAGE_SIZE" with
    | none => .ok none
    | some _ => (integer env "MAX_PAGE_SIZE" 0).map some
  let port := integer env "PORT" 8000
  let timeout := integer env "SERVER_SELECTION_TIMEOUT_MS" 5000
  match database, pageSize, maxSize, port, timeout with
  | .ok database, .ok pageSize, .ok maxSize, .ok port, .ok timeout => .ok {
      database := database
      timeoutMillis := timeout
      host := text env "HOST" "0.0.0.0"
      port := port
      logLevel := text env "LOG_LEVEL" "INFO"
      defaultPageSize := pageSize
      maxPageSize := maxSize
      searchIndex := Table.get? env "SEARCH_INDEX" }
  | database, pageSize, maxSize, port, timeout =>
    .error (problemsOf database ++ problemsOf pageSize ++ problemsOf maxSize ++ problemsOf port
      ++ problemsOf timeout)

def optionalInt : Option Int → Value
  | some n => .int n
  | none => .null

def optionalText : Option String → Value
  | some s => .text s
  | none => .null

/-- The settings of the pipelines. -/
def handlerSettings (c : Config) : Document := [
  ("default_page_size", .int c.defaultPageSize),
  ("max_items", optionalInt c.maxPageSize),
  ("search_index", optionalText c.searchIndex)]

/-- All variables with their values. -/
def toDocument (c : Config) : Document := [
  ("DATABASE", .text c.database),
  ("SERVER_SELECTION_TIMEOUT_MS", .int c.timeoutMillis),
  ("HOST", .text c.host),
  ("PORT", .int c.port),
  ("LOG_LEVEL", .text c.logLevel),
  ("DEFAULT_PAGE_SIZE", .int c.defaultPageSize),
  ("MAX_PAGE_SIZE", optionalInt c.maxPageSize),
  ("SEARCH_INDEX", optionalText c.searchIndex)]

end Config
end GridQuery.Http

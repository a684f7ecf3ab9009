import GridQuery.Query.Handler

/-! # Settings

One flat table of settings serves all handlers: each is given those it knows. A part is switched off by
a setting of its own, and a setting that no handler asked for is an error. -/
namespace GridQuery

structure Settings where
  table : Document
  /-- The parts that settings were asked for. -/
  asked : List String
  /-- The names of settings that a handler knows. -/
  known : List String
  /-- The parts that are switched off. -/
  off : List String

namespace Settings

def ofValue : Value → Except Error Settings
  | .document table => .ok ⟨table, [], [], []⟩
  | _ => .error (.requirement "")

/-- The setting that switches a part on or off. -/
def switchName (part : String) : String := part ++ "_enabled"

/-- Whether a table of settings leaves a part switched on. -/
def leavesOn (table : Document) (part : String) : Bool :=
  match Table.get? table (switchName part) with
  | some v => v.truthy
  | none => true

def insertNew (names : List String) (name : String) : List String :=
  if names.contains name then names else names ++ [name]

/-- The settings for a part whose handler has the given constructor. -/
def supply (s : Settings) (part : String) (signature : Signature) : Settings × Document :=
  let given := signature.pluck s.table []
  let off := if leavesOn s.table part then s.off else insertNew s.off part
  ({ s with
    asked := insertNew s.asked part
    known := (Table.keys given).foldl insertNew s.known
    off := off }, given)

/-- The settings for the handler of a part. -/
def route (s : Settings) (part : String) (kind : HandlerKind) : Settings × Document :=
  s.supply part kind.signature

def isEnabled (s : Settings) (part : String) : Bool := !s.off.contains part

def requireEnabled (s : Settings) (part : String) : Except Error Unit :=
  if s.isEnabled part then .ok () else .error (.disabled part)

/-- Names in ascending order of their code points. -/
def sorted (names : List String) : List String := names.mergeSort fun a b => decide (a ≤ b)

theorem sorted_eq_nil_iff {names : List String} : sorted names = [] ↔ names = [] := by
  rw [← List.length_eq_zero_iff, sorted, List.length_mergeSort, List.length_eq_zero_iff]

/-- The settings that no part asked for. -/
def unknownNames (s : Settings) : List String :=
  sorted ((Table.keys s.table).filter fun name =>
    !(s.known.contains name || (s.asked.map switchName).contains name))

/-- Fails, in the name of an owner, if there are unknown settings. -/
def requireKnown (s : Settings) (owner : String) : Except Error Unit :=
  match s.unknownNames with
  | [] => .ok ()
  | names => .error (.unknownSettings owner names)

def display? [Stack] (s : Settings) : Option String :=
  (Value.document s.table).display?.map fun t => "MongoPipelineSettingsHandler(" ++ String.ofList t ++ ")"

end Settings
end GridQuery

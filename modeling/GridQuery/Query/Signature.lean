import GridQuery.Value.Basic

/-! # Signatures

The parameters of a constructor. Those that may be left out and are given by name are its settings. -/
namespace GridQuery

/-- How an argument for a parameter is given. -/
inductive Passing
  | byPlace
  | byPlaceOrName
  | byName
  /-- All further arguments without a name. -/
  | furtherPlaces
  /-- All further arguments with a name. -/
  | furtherNames
  deriving DecidableEq

structure Parameter where
  name : String
  passing : Passing
  default : Option Value

namespace Parameter

def required (name : String) : Parameter := ⟨name, .byPlaceOrName, none⟩

def optional (name : String) (v : Value) : Parameter := ⟨name, .byPlaceOrName, some v⟩

/-- A parameter as a setting, with its default. -/
def setting? (p : Parameter) : Option (String × Value) :=
  match p.passing with
  | .byPlaceOrName | .byName => p.default.map fun v => (p.name, v)
  | _ => none

theorem setting?_eq_some_iff {p : Parameter} {name : String} {v : Value} :
    p.setting? = some (name, v) ↔
      (p.passing = .byPlaceOrName ∨ p.passing = .byName) ∧ p.name = name ∧ p.default = some v := by
  unfold setting?
  cases p.passing <;> cases p.default <;> simp

end Parameter

/-- Parameters of distinct names. -/
structure Signature where
  parameters : List Parameter
  distinct : (parameters.map Parameter.name).Nodup

namespace Signature

/-- The settings, with their defaults. -/
def defaults (s : Signature) : Document := s.parameters.filterMap Parameter.setting?

/-- The settings out of a table of settings, the defaults where there is none; names to be skipped are
left out. -/
def pluck (s : Signature) (settings : Document) (skip : List String) : Document :=
  (s.defaults.filter fun e => !skip.contains e.1).map fun e =>
    (e.1, (Table.get? settings e.1).getD e.2)

end Signature
end GridQuery

/-! # Tables

Entries under text keys, in the order in which their keys were first put. -/
namespace GridQuery

abbrev Table (α : Type) := List (String × α)

namespace Table

variable {α : Type}

def keys (t : Table α) : List String := t.map Prod.fst

def get? (t : Table α) (key : String) : Option α :=
  match t with
  | [] => none
  | (k, a) :: r => if k = key then some a else get? r key

def contains (t : Table α) (key : String) : Bool := (get? t key).isSome

/-- A known key keeps its place and takes the new entry; a new key goes to the end. -/
def put (t : Table α) (key : String) (a : α) : Table α :=
  match t with
  | [] => [(key, a)]
  | (k, b) :: r => if k = key then (k, a) :: r else (k, b) :: put r key a

/-- All entries of the second table put into the first, in order. -/
def putAll (t u : Table α) : Table α := u.foldl (fun t e => put t e.1 e.2) t

def erase (t : Table α) (key : String) : Table α := t.filter (·.1 != key)

@[simp] theorem get?_nil (key : String) : get? ([] : Table α) key = none := rfl

theorem get?_put (t : Table α) (key key' : String) (a : α) :
    get? (put t key a) key' = if key = key' then some a else get? t key' := by
  induction t with
  | nil => simp [put, get?]
  | cons e r ih =>
    obtain ⟨k, b⟩ := e
    by_cases h : k = key
    · subst h
      by_cases h' : k = key' <;> simp [put, get?, h']
    · by_cases h' : k = key'
      · subst h'
        simp [put, get?, h, Ne.symm h]
      · by_cases h'' : key = key' <;> simp_all [put, get?]

theorem map_put {β : Type} (f : α → β) (t : Table α) (key : String) (a : α) :
    (put t key a).map (fun e => (e.1, f e.2)) = put (t.map fun e => (e.1, f e.2)) key (f a) := by
  induction t with
  | nil => rfl
  | cons e r ih =>
    obtain ⟨k, b⟩ := e
    by_cases h : k = key <;> simp [put, h, ih]

theorem put_ne_nil (t : Table α) (key : String) (a : α) : put t key a ≠ [] := by
  cases t with
  | nil => simp [put]
  | cons e r =>
    rw [put]
    split <;> simp

theorem putAll_cons (t : Table α) (e : String × α) (u : Table α) :
    putAll t (e :: u) = putAll (put t e.1 e.2) u := rfl

theorem putAll_eq_nil_iff {t u : Table α} : putAll t u = [] ↔ t = [] ∧ u = [] := by
  induction u generalizing t with
  | nil => simp [putAll]
  | cons e u ih => simp [putAll_cons, ih, put_ne_nil]

theorem keys_put (t : Table α) (key : String) (a : α) :
    keys (put t key a) = if key ∈ keys t then keys t else keys t ++ [key] := by
  induction t with
  | nil => simp [put, keys]
  | cons e r ih =>
    obtain ⟨k, b⟩ := e
    by_cases h : k = key
    · simp [put, keys, h]
    · have h' : key ≠ k := Ne.symm h
      simp only [put, h, ite_false, keys, List.map_cons, List.mem_cons, h', false_or] at ih ⊢
      split <;> rename_i hk <;> simp [ih, hk]

theorem get?_isSome_iff (t : Table α) (key : String) : (get? t key).isSome ↔ key ∈ keys t := by
  induction t with
  | nil => simp [keys]
  | cons e r ih =>
    obtain ⟨k, b⟩ := e
    by_cases h : k = key
    · simp [get?, keys, h]
    · have h' : key ≠ k := Ne.symm h
      simpa [get?, keys, h, h'] using ih

theorem mem_of_get? {t : Table α} {key : String} {a : α} (h : get? t key = some a) : (key, a) ∈ t := by
  induction t with
  | nil => cases h
  | cons entry r ih =>
    obtain ⟨k, b⟩ := entry
    rw [get?] at h
    split at h
    · rename_i hk
      cases h
      rw [hk]
      exact List.mem_cons_self
    · exact List.mem_cons_of_mem _ (ih h)

theorem get?_eq_none_iff (t : Table α) (key : String) : get? t key = none ↔ key ∉ keys t := by
  rw [← get?_isSome_iff, Bool.not_eq_true, Option.isSome_eq_false_iff, Option.isNone_iff_eq_none]

theorem get?_erase (t : Table α) (key key' : String) :
    get? (erase t key) key' = if key = key' then none else get? t key' := by
  induction t with
  | nil => simp [erase]
  | cons e r ih =>
    obtain ⟨k, a⟩ := e
    by_cases h : k = key
    · by_cases h' : key = key' <;> simp_all [erase, get?]
    · by_cases h' : k = key'
      · subst h'
        simp [erase, get?, h, Ne.symm h]
      · simpa [erase, get?, h, h'] using ih

end Table
end GridQuery

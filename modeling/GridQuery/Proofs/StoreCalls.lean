import GridQuery.Crud.Collection

/-! # What work does to the calls of a store

Work goes on from the state that the work before it has left, and ends with the first error. Each
operation of the store adds one call to those that were made before. -/
namespace GridQuery

section Work

variable {ε σ α β : Type} {work : ExceptT ε (StateM σ) α} {next : α → ExceptT ε (StateM σ) β} {s t : σ}

theorem run_bind_ok {a : α} (h : work s = (.ok a, t)) : (work >>= next) s = next a t := by
  simp [bind, ExceptT.bind, ExceptT.mk, StateT.bind, ExceptT.bindCont, h]

theorem run_bind_error {e : ε} (h : work s = (.error e, t)) : (work >>= next) s = (.error e, t) := by
  simp only [bind, ExceptT.bind, ExceptT.mk, StateT.bind, ExceptT.bindCont, h]
  rfl

/-- What goes on from an answer without touching the state leaves the state alone. -/
theorem state_run_bind (h : ∀ a t, (next a t).2 = t) : ((work >>= next) s).2 = (work s).2 := by
  cases hw : work s with
  | mk answer t =>
    cases answer with
    | ok a =>
      rw [run_bind_ok hw]
      exact h a t
    | error e => rw [run_bind_error hw]

theorem state_run_map (f : α → β) : ((do let a ← work; return f a) s).2 = (work s).2 :=
  state_run_bind fun _ _ => rfl

end Work

namespace Store

variable (collection : String) (s : Store)

@[simp] theorem calls_aggregate (pipeline : List Value) :
    (aggregate collection pipeline s).2.calls = s.calls ++ [.aggregate collection pipeline] := rfl

@[simp] theorem calls_insert (document : Document) :
    (insert collection document s).2.calls = s.calls ++ [.insert collection document] := rfl

@[simp] theorem calls_update (filter change : Value) :
    (update collection filter change s).2.calls = s.calls ++ [.update collection filter change] := rfl

@[simp] theorem calls_delete (filter : Value) :
    (delete collection filter s).2.calls = s.calls ++ [.delete collection filter] := rfl

end Store

namespace CountedPage

variable {c : CountedPage} {collection : String}

/-- A page asks the store once, whatever is made of the answer. -/
theorem calls_execute (hc : c.collection = some collection) (s : Store) :
    (c.execute s).state.2.calls = s.calls ++ [.aggregate collection c.pipeline] := by
  unfold execute
  rw [hc]
  dsimp only
  have hcalls := Store.calls_aggregate collection s c.pipeline
  cases h : Store.aggregate collection c.pipeline s with
  | mk answer t =>
    rw [h] at hcalls
    cases answer <;> exact hcalls

theorem calls_page (hd : c.data = none) (hc : c.collection = some collection) (s : Store) :
    (c.page s).state.2.calls = s.calls ++ [.aggregate collection c.pipeline] := by
  have hunknown : ¬c.data.isSome = true := by simp [hd]
  have hcalls := calls_execute hc s
  rw [page, ask, if_neg hunknown]
  cases h : c.execute s with
  | mk answer t =>
    rw [h] at hcalls
    cases answer <;> exact hcalls

end CountedPage
end GridQuery

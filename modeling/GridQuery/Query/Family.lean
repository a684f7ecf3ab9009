import GridQuery.Query.Handler

/-! # Families of handlers

A copy of a handler that has accepted its input shares what was accepted with the original: a merge into
one is a merge into both. A copy of a handler that has not is on its own from then on. Members that
share carry the same mark. -/
namespace GridQuery

/-- A handler and the mark of those it shares accepted input with. -/
structure Relative where
  mark : Nat
  handler : Handler

abbrev Family := List Relative

namespace Family

variable [Stack]

def single (h : Handler) : Family := [⟨0, h⟩]

/-- The mark of a copy: the original's once there is something to share, else one that is not in use. -/
def markOfCopy (f : Family) (r : Relative) : Nat :=
  if r.handler.content?.isSome then r.mark else f.length

/-- Adds a copy of a member. -/
def copy (f : Family) (i : Nat) : Reply Family Nat :=
  match f[i]? with
  | none => ⟨.error .shape, f⟩
  | some r => ⟨.ok f.length, f ++ [⟨f.markOfCopy r, r.handler⟩]⟩

def input (f : Family) (i : Nat) (v w : Value) : Reply Family Unit :=
  match f[i]? with
  | none => ⟨.error .shape, f⟩
  | some r =>
    (r.handler.input v w).within fun h => f.set i { r with handler := h }

/-- Gives all members with a mark the same content. -/
def share (f : Family) (mark : Nat) (c : Handler.Content) : Family :=
  f.map fun r => if r.mark = mark then { r with handler := r.handler.withContent c } else r

def merge (f : Family) (i : Nat) (v : Value) : Reply Family Unit :=
  match f[i]? with
  | none => ⟨.error .shape, f⟩
  | some r =>
    match r.handler.merged v with
    | .error e => ⟨.error e, f⟩
    | .ok c => ⟨.ok (), f.share r.mark c⟩

end Family
end GridQuery

/-! # Room on the stack

Nested values are followed on a stack, which has room for so many levels. The program finds it as it is. -/
namespace GridQuery

/-- The levels there is room for; without a number there is room for any. -/
abbrev Room := Option Nat

namespace Room

/-- Whether there is room so many levels further in. -/
def Holds (room : Room) (levels : Nat) : Prop := ∀ most ∈ room, levels ≤ most

/-- The room that is left one level further in. -/
def inner? : Room → Option Room
  | none => some none
  | some 0 => none
  | some (n + 1) => some (some n)

theorem holds_none (levels : Nat) : Holds none levels := by simp [Holds]

theorem holds_zero (room : Room) : room.Holds 0 := fun _ _ => Nat.zero_le _

theorem Holds.mono {room : Room} {k levels : Nat} (h : room.Holds levels) (hk : k ≤ levels) : room.Holds k :=
  fun most hm => Nat.le_trans hk (h most hm)

theorem holds_succ_of_inner? {room inner : Room} (h : room.inner? = some inner) (levels : Nat) :
    room.Holds (levels + 1) ↔ inner.Holds levels := by
  match room with
  | none =>
    cases h
    simp [Holds]
  | some 0 => cases h
  | some (n + 1) =>
    cases h
    simp [Holds]

theorem not_holds_succ_of_inner? {room : Room} (h : room.inner? = none) (levels : Nat) :
    ¬room.Holds (levels + 1) := by
  match room with
  | some 0 => simp [Holds]

end Room

class Stack where
  /-- For the brackets of JSON that is read. -/
  jsonRoom : Room
  /-- For a value that becomes a text. -/
  textRoom : Room
  /-- For a value that a message quotes, some calls further in. -/
  messageRoom : Room

/-- A stack of the usual size, which the reader of JSON can use up. Values are taken to be such that they can be
written. -/
instance Stack.standard : Stack where
  jsonRoom := some 960
  textRoom := none
  messageRoom := none

end GridQuery

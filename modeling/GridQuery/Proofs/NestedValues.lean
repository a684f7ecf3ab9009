import GridQuery.Proofs.DecimalNumerals

/-! # What stands within a value

A value can be written where no integer within it is too long and nothing stands deeper than there is room for. -/
namespace GridQuery.Value

/-- What stands directly in a value. -/
def parts : Value → List Value
  | array items | tuple items => items
  | document fields => fields.map Prod.snd
  | _ => []

/-- What stands within a value, so many levels in. -/
inductive Within : Value → Nat → Value → Prop
  | whole {v : Value} : Within v 0 v
  | part {v p w : Value} {k : Nat} (hp : p ∈ v.parts) (h : Within p k w) : Within v (k + 1) w

/-- An integer within the value has more than 4300 digits. -/
def HasLong (v : Value) : Prop := ∃ k n, Within v k (int n) ∧ 10 ^ 4300 ≤ n.natAbs

/-- Something within the value stands deeper than there is room for. -/
def Exceeds (v : Value) (room : Room) : Prop := ∃ k w, Within v k w ∧ ¬room.Holds k

variable {v p : Value} {room : Room}

theorem sizeOf_lt_of_mem_parts (hp : p ∈ v.parts) : sizeOf p < sizeOf v := by
  cases v with
  | array items | tuple items =>
    have hlt : sizeOf p < sizeOf items := List.sizeOf_lt_of_mem hp
    simp only [array.sizeOf_spec, tuple.sizeOf_spec]
    omega
  | document fields =>
    obtain ⟨⟨key, w⟩, hmem, rfl⟩ := List.mem_map.mp hp
    have hlt := List.sizeOf_lt_of_mem hmem
    simp only [document.sizeOf_spec, Prod.mk.sizeOf_spec] at hlt ⊢
    omega
  | _ => cases hp

/-- What holds of a value as soon as it holds of its parts holds of every value. -/
theorem parts_induction {P : Value → Prop} (step : ∀ v, (∀ p ∈ v.parts, P p) → P v) (v : Value) : P v :=
  step v fun p _ => parts_induction step p
termination_by sizeOf v
decreasing_by exact sizeOf_lt_of_mem_parts ‹_›

theorem HasLong.of_part (hp : p ∈ v.parts) (h : p.HasLong) : v.HasLong := by
  obtain ⟨k, n, hn, hlong⟩ := h
  exact ⟨k + 1, n, .part hp hn, hlong⟩

theorem Exceeds.of_part {inner : Room} (hinner : room.inner? = some inner) (hp : p ∈ v.parts)
    (h : p.Exceeds inner) : v.Exceeds room := by
  obtain ⟨k, w, hw, hk⟩ := h
  exact ⟨k + 1, w, .part hp hw, fun hroom => hk ((Room.holds_succ_of_inner? hinner k).mp hroom)⟩

theorem Within.hasLong {w : Value} {k : Nat} (hw : Within v k w) (h : w.HasLong) : v.HasLong := by
  induction hw with
  | whole => exact h
  | part hp _ ih => exact (ih h).of_part hp

theorem Within.exceeds {w : Value} {k : Nat} (hw : Within v k w) (h : w.Exceeds room) : v.Exceeds room := by
  induction hw with
  | whole => exact h
  | part hp _ ih =>
    obtain ⟨j, u, hu, hj⟩ := ih h
    exact ⟨j + 1, u, .part hp hu, fun hroom => hj (hroom.mono (Nat.le_succ j))⟩

theorem not_exceeds_of_parts (h : v.parts = []) (room : Room) : ¬v.Exceeds room := by
  rintro ⟨k, w, hw, hk⟩
  cases hw with
  | whole => exact hk (Room.holds_zero room)
  | part hp =>
    rw [h] at hp
    cases hp

theorem not_exceeds_none (v : Value) : ¬v.Exceeds none := by
  rintro ⟨k, w, -, hk⟩
  exact hk (Room.holds_none k)

/-! ## Obstacles -/

theorem fieldsObstacle?_eq (fields : List (String × Value)) (room : Room) :
    fieldsObstacle? fields room = itemsObstacle? (fields.map Prod.snd) room := by
  induction fields with
  | nil => rfl
  | cons e r ih =>
    rw [List.map_cons, fieldsObstacle?, itemsObstacle?, ih]

/-- The obstacles in a value that is no integer are those in its parts. -/
theorem obstacle?_eq (h : ∀ n, v ≠ int n) (room : Room) : v.obstacle? room = itemsObstacle? v.parts room := by
  cases v with
  | int n => exact absurd rfl (h n)
  | document fields => rw [obstacle?, fieldsObstacle?_eq, parts]
  | _ => rfl

theorem itemsObstacle?_eq_none_iff {items : List Value} : itemsObstacle? items room = none ↔
    ∀ v ∈ items, ∃ inner, room.inner? = some inner ∧ v.obstacle? inner = none := by
  induction items with
  | nil => simp [itemsObstacle?]
  | cons v r ih =>
    rw [itemsObstacle?, List.forall_mem_cons, ← ih]
    cases room.inner? <;> simp

theorem of_itemsObstacle? {items : List Value} {o : Obstacle} (h : itemsObstacle? items room = some o) :
    (o = .deep ∧ room.inner? = none ∧ ∃ v, v ∈ items) ∨
    ∃ v ∈ items, ∃ inner, room.inner? = some inner ∧ v.obstacle? inner = some o := by
  induction items with
  | nil => cases h
  | cons v r ih =>
    rw [itemsObstacle?] at h
    cases hinner : room.inner? with
    | none =>
      rw [hinner] at h
      cases h
      exact Or.inl ⟨rfl, rfl, v, List.mem_cons_self⟩
    | some inner =>
      rw [hinner] at h
      rcases Option.or_eq_some_iff.mp h with hv | ⟨-, hr⟩
      · exact Or.inr ⟨v, List.mem_cons_self, inner, rfl, hv⟩
      · rcases ih hr with ⟨-, hnone, -⟩ | ⟨w, hw, hrest⟩
        · rw [hinner] at hnone
          cases hnone
        · rw [hinner] at hrest
          exact Or.inr ⟨w, List.mem_cons_of_mem v hw, hrest⟩

/-- What an obstacle says about the value that it stands in. -/
def Blocks (v : Value) (room : Room) : Obstacle → Prop
  | .overlong => v.HasLong
  | .deep => v.Exceeds room

theorem blocks_of_obstacle? {o : Obstacle} (h : v.obstacle? room = some o) : v.Blocks room o := by
  induction v using parts_induction generalizing room with
  | step v ih =>
    by_cases hint : ∃ n, v = int n
    · obtain ⟨n, rfl⟩ := hint
      rw [obstacle?] at h
      split at h
      · cases h
      · rename_i hn
        cases h
        rw [isWritable_iff, Numeral.digitLimit, Nat.not_lt] at hn
        exact ⟨0, n, .whole, hn⟩
    · rw [obstacle?_eq fun n hn => hint ⟨n, hn⟩] at h
      rcases of_itemsObstacle? h with ⟨rfl, hnone, p, hp⟩ | ⟨p, hp, inner, hinner, ho⟩
      · exact ⟨1, p, .part hp .whole, Room.not_holds_succ_of_inner? hnone 0⟩
      · have hpart := ih p hp ho
        cases o with
        | overlong => exact hpart.of_part hp
        | deep => exact hpart.of_part hinner hp

/-- Without an obstacle there is room for everything within, and its integers are short. -/
theorem Within.of_obstacle? {w : Value} {k : Nat} (hw : Within v k w) (h : v.obstacle? room = none) :
    room.Holds k ∧ ∀ n, w = int n → n.natAbs < 10 ^ 4300 := by
  induction hw generalizing room with
  | @whole v =>
    refine ⟨Room.holds_zero room, ?_⟩
    rintro n rfl
    rw [obstacle?] at h
    split at h
    · rename_i hn
      rwa [isWritable_iff, Numeral.digitLimit] at hn
    · cases h
  | @part v p w k hp hw ih =>
    have hint : ∀ n, v ≠ int n := by
      rintro n rfl
      cases hp
    rw [obstacle?_eq hint] at h
    obtain ⟨inner, hinner, hnone⟩ := itemsObstacle?_eq_none_iff.mp h p hp
    obtain ⟨hholds, hshort⟩ := ih hnone
    exact ⟨(Room.holds_succ_of_inner? hinner k).mpr hholds, hshort⟩

theorem obstacle?_eq_none_iff : v.obstacle? room = none ↔ ¬v.HasLong ∧ ¬v.Exceeds room := by
  constructor
  · intro h
    constructor
    · rintro ⟨k, n, hn, hlong⟩
      exact Nat.not_lt.mpr hlong ((hn.of_obstacle? h).2 n rfl)
    · rintro ⟨k, w, hw, hk⟩
      exact hk (hw.of_obstacle? h).1
  · rintro ⟨hshort, hroom⟩
    cases ho : v.obstacle? room with
    | none => rfl
    | some o =>
      have hblocks := blocks_of_obstacle? ho
      cases o with
      | overlong => exact absurd hblocks hshort
      | deep => exact absurd hblocks hroom

theorem Within.obstacle?_eq_none {w : Value} {k : Nat} (hw : Within v k w) (h : v.obstacle? room = none) :
    w.obstacle? room = none := by
  rw [obstacle?_eq_none_iff] at h ⊢
  exact ⟨fun hlong => h.1 (hw.hasLong hlong), fun hdeep => h.2 (hw.exceeds hdeep)⟩

/-! ## Values that can be written -/

theorem fieldsWritable_eq (fields : List (String × Value)) :
    fieldsWritable fields = allWritable (fields.map Prod.snd) := by
  induction fields with
  | nil => rfl
  | cons e r ih => rw [List.map_cons, fieldsWritable, allWritable, ih]

theorem allWritable_iff {items : List Value} : allWritable items = true ↔ ∀ v ∈ items, v.writable = true := by
  induction items with
  | nil => simp [allWritable]
  | cons v r ih => rw [allWritable, Bool.and_eq_true, List.forall_mem_cons, ih]

/-- Where there is room for any value, only long integers are in the way. -/
theorem writable_iff_obstacle? : v.writable = true ↔ v.obstacle? none = none := by
  induction v using parts_induction with
  | step v ih =>
    by_cases hint : ∃ n, v = int n
    · obtain ⟨n, rfl⟩ := hint
      simp [writable, obstacle?]
    · have hparts : v.writable = allWritable v.parts := by
        cases v with
        | int n => exact absurd ⟨n, rfl⟩ hint
        | document fields => rw [writable, fieldsWritable_eq, parts]
        | _ => rfl
      rw [hparts, obstacle?_eq fun n hn => hint ⟨n, hn⟩, allWritable_iff, itemsObstacle?_eq_none_iff]
      refine forall₂_congr fun p hp => (ih p hp).trans ?_
      simp [Room.inner?]

theorem writable_iff : v.writable = true ↔ ¬v.HasLong := by
  rw [writable_iff_obstacle?, obstacle?_eq_none_iff]
  exact and_iff_left (not_exceeds_none v)

theorem Within.writable {w : Value} {k : Nat} (hw : Within v k w) (h : v.writable = true) : w.writable = true :=
  writable_iff.mpr fun hlong => writable_iff.mp h (hw.hasLong hlong)

end GridQuery.Value

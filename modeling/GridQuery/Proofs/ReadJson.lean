import GridQuery.Json.Reader
import GridQuery.Reply
import GridQuery.Proofs.NestedValues

/-! # What is read from JSON

Integers with more digits than a numeral may have are refused where they are read, so every value that comes out of
the reader is free of them. The reader gives up on a text whose brackets use up its room, and on no other that is
JSON. -/
namespace GridQuery.Json
open Numeral

theorem fieldsWritable_put {fields : Document} (key : String) {v : Value}
    (hf : Value.fieldsWritable fields = true) (hv : v.writable = true) :
    Value.fieldsWritable (Table.put fields key v) = true := by
  induction fields with
  | nil => simp [Table.put, Value.fieldsWritable, hv]
  | cons e r ih =>
    obtain ⟨k, w⟩ := e
    rw [Value.fieldsWritable, Bool.and_eq_true] at hf
    by_cases hk : k = key
    · simp [Table.put, hk, Value.fieldsWritable, hv, hf.2]
    · simp [Table.put, hk, Value.fieldsWritable, hf.1, ih hf.2]

theorem natAbs_signed (negative : Bool) (n : Nat) : (signed negative n).natAbs = n := by
  cases negative <;> simp [signed]

theorem ofDigits_asciiDigits_lt {s : List Char} {k : Nat} (h : s.length ≤ k) :
    ofDigits (asciiDigits s) < 10 ^ k := by
  have hdigits : ∀ d ∈ asciiDigits s, d < 10 := by
    intro d hd
    obtain ⟨c, -, hc⟩ := List.mem_filterMap.mp hd
    exact Text.asciiDigit?_lt hc
  have hlength : (asciiDigits s).length ≤ k := Nat.le_trans (List.length_filterMap_le _ _) h
  exact Nat.lt_of_lt_of_le (ofDigits_lt hdigits) (Nat.pow_le_pow_right (by decide) hlength)

variable {s r : List Char} {v : Value}

theorem writable_number? {negative : Bool} (h : number? (some digitLimit) negative s = some (v, r)) :
    v.writable = true := by
  unfold number? at h
  dsimp only at h
  split at h
  · cases h
  split at h
  · split at h
    · cases h
    · rename_i hlimit
      cases h
      rw [Value.writable, Value.isWritable_iff, natAbs_signed]
      exact ofDigits_asciiDigits_lt (by omega)
  · obtain ⟨d, -, hd⟩ := Option.map_eq_some_iff.mp h
    cases hd
    rfl

theorem writable_scalar? (h : scalar? (some digitLimit) s = some (v, r)) : v.writable = true := by
  unfold scalar? at h
  split at h
  · cases h; rfl
  · cases h; rfl
  · cases h; rfl
  · split at h
    · cases h; rfl
    · exact writable_number? h
  · split at h
    · cases h; rfl
    · cases h; rfl
    · exact writable_number? h

/-! ## What remains behind a value -/

theorem skipSpace_suffix (s : List Char) : skipSpace s <:+ s := List.dropWhile_suffix isSpace

/-- What is left behind something that was read is the end of what was there. -/
theorem hexUnit?_suffix {n : Nat} (h : hexUnit? s = some (n, r)) : r <:+ s := by
  unfold hexUnit? at h
  split at h
  · cases h
    exact List.drop_suffix 4 s
  · cases h

theorem unescape?_suffix {c : Char} (h : unescape? s = some (c, r)) : r <:+ s := by
  unfold unescape? at h
  split at h
  case h_9 q =>
    obtain ⟨⟨high, q'⟩, hq, h⟩ := Option.bind_eq_some_iff.mp h
    have hfirst : q' <:+ 'u' :: q := (hexUnit?_suffix hq).trans (List.suffix_cons _ _)
    dsimp only at h
    split at h
    · split at h
      · split at h
        · rename_i hlow
          have hsecond := (hexUnit?_suffix hlow).trans (List.suffix_append ['\\', 'u'] _)
          split at h
          · obtain ⟨-, rfl⟩ := Prod.mk.inj (Option.some.inj h)
            exact hsecond.trans hfirst
          · cases h
            exact hfirst
        · cases h
          exact hfirst
      · cases h
        exact hfirst
    · cases h
      exact hfirst
  case h_10 => cases h
  all_goals
    cases h
    exact List.suffix_cons _ _

theorem textBody?_suffix {fuel : Nat} {cs : List Char} (h : textBody? fuel s = some (cs, r)) : r <:+ s := by
  induction fuel generalizing s cs with
  | zero => cases h
  | succ fuel ih =>
    unfold textBody? at h
    split at h
    · cases h
    · cases h
      exact List.suffix_cons _ _
    · obtain ⟨⟨c, q⟩, hq, h⟩ := Option.bind_eq_some_iff.mp h
      obtain ⟨⟨cs, q'⟩, hq', h⟩ := Option.bind_eq_some_iff.mp h
      cases h
      exact (ih hq').trans ((unescape?_suffix hq).trans (List.suffix_cons _ _))
    · split at h
      · cases h
      · obtain ⟨⟨cs, q'⟩, hq', h⟩ := Option.bind_eq_some_iff.mp h
        cases h
        exact (ih hq').trans (List.suffix_cons _ _)

theorem text?_suffix {t : String} (h : text? s = some (t, r)) : r <:+ s := by
  obtain ⟨p, hp, heq⟩ := Option.map_eq_some_iff.mp h
  cases heq
  exact textBody?_suffix hp

theorem number?_suffix {limit : Option Nat} {negative : Bool} (h : number? limit negative s = some (v, r)) :
    r <:+ s := by
  have hrest (j k l : Nat) : ((s.drop j).drop k).drop l <:+ s :=
    (List.drop_suffix _ _).trans ((List.drop_suffix _ _).trans (List.drop_suffix _ _))
  unfold number? at h
  dsimp only at h
  split at h
  · cases h
  split at h
  · split at h
    · split at h
      · cases h
      · cases h
        exact hrest _ _ _
    · cases h
      exact hrest _ _ _
  · obtain ⟨d, -, hd⟩ := Option.map_eq_some_iff.mp h
    cases hd
    exact hrest _ _ _

theorem after?_suffix {word : List Char} (h : after? word s = some r) : r <:+ s := by
  unfold after? at h
  split at h
  · cases h
    exact List.drop_suffix _ _
  · cases h

theorem scalar?_suffix {limit : Option Nat} (h : scalar? limit s = some (v, r)) : r <:+ s := by
  unfold scalar? at h
  split at h
  · cases h
    exact List.suffix_append ['n', 'u', 'l', 'l'] _
  · cases h
    exact List.suffix_append ['t', 'r', 'u', 'e'] _
  · cases h
    exact List.suffix_append ['f', 'a', 'l', 's', 'e'] _
  · split at h
    · rename_i hword
      cases h
      exact (after?_suffix hword).trans (List.suffix_cons _ _)
    · exact (number?_suffix h).trans (List.suffix_cons _ _)
  · split at h
    · rename_i hword
      cases h
      exact after?_suffix hword
    · rename_i hword _
      cases h
      exact after?_suffix hword
    · exact number?_suffix h

/-! ## Room for brackets -/

/-- The opening brackets of a text, inside its quotes or not. -/
def openings (s : List Char) : Nat := (s.filter fun c => c == '[' || c == '\x7b').length

theorem openings_mono (h : r <:+ s) : openings r ≤ openings s := (h.sublist.filter _).length_le

variable {room inner : Room}

/-- What is left has no more brackets than there were, and the reader only gives up where they use up the room. -/
def Bounded {α : Type} (room : Room) (s : List Char) : Except Defect (α × List Char) → Prop
  | .ok (_, r) => r <:+ s
  | .error .deep => ¬room.Holds (openings s)
  | .error .malformed => True

theorem Bounded.mono {α : Type} {x : Except Defect (α × List Char)} (h : Bounded room r x) (hr : r <:+ s) :
    Bounded room s x := by
  match x with
  | .ok (_, _) => exact List.IsSuffix.trans h hr
  | .error .deep => exact fun hs => h (hs.mono (openings_mono hr))
  | .error .malformed => trivial

theorem Bounded.map {α β : Type} {x : Except Defect (α × List Char)} (h : Bounded room s x) (f : α → β) :
    Bounded room s (x.map fun p => (f p.1, p.2)) := by
  match x with
  | .ok (_, _) => exact h
  | .error .deep => exact h
  | .error .malformed => trivial

theorem Bounded.bind {α β : Type} {x : Except Defect (α × List Char)} (h : Bounded room s x)
    {next : α × List Char → Except Defect (β × List Char)}
    (hnext : ∀ a r, x = .ok (a, r) → r <:+ s → Bounded room s (next (a, r))) : Bounded room s (x >>= next) := by
  match x, h with
  | .ok (a, r), h => exact hnext a r rfl h
  | .error .deep, h => exact h
  | .error .malformed, _ => trivial

theorem bounded_found {α : Type} {x : Option (α × List Char)} (h : ∀ a r, x = some (a, r) → r <:+ s) :
    Bounded room s (found x) := by
  match x with
  | some (a, r) => exact h a r rfl
  | none => trivial

/-- A bracket takes one level of the room. -/
theorem Bounded.bracket {α : Type} {c : Char} (hc : (c == '[' || c == '\x7b') = true)
    {x : Except Defect (α × List Char)} (hinner : room.inner? = some inner) (h : Bounded inner s x) :
    Bounded room (c :: s) x := by
  match x with
  | .ok (_, _) => exact List.IsSuffix.trans h (List.suffix_cons _ _)
  | .error .deep =>
    have hone : openings (c :: s) = openings s + 1 := by simp [openings, hc]
    intro hroom
    rw [hone] at hroom
    exact h ((Room.holds_succ_of_inner? hinner _).mp hroom)
  | .error .malformed => trivial

theorem bounded_deep {α : Type} {c : Char} (hc : (c == '[' || c == '\x7b') = true) (h : room.inner? = none)
    (s : List Char) : Bounded room (c :: s) (.error .deep : Except Defect (α × List Char)) := by
  have hone : openings (c :: s) = openings s + 1 := by simp [openings, hc]
  intro hroom
  rw [hone] at hroom
  exact Room.not_holds_succ_of_inner? h _ hroom

/-- With some fuel, the readers stay within their text and their room. -/
structure ReadsBounded (limit : Option Nat) (fuel : Nat) : Prop where
  value : ∀ room s, Bounded room s (value limit room fuel s)
  items : ∀ room s, Bounded room s (items limit room fuel s)
  members : ∀ room fields s, Bounded room s (members limit room fuel fields s)

variable {limit : Option Nat} {fuel : Nat}

theorem ReadsBounded.value_succ (ih : ReadsBounded limit fuel) (room : Room) (s : List Char) :
    Bounded room s (Json.value limit room (fuel + 1) s) := by
  unfold Json.value
  split
  · exact ((bounded_found fun t r h => text?_suffix h).map Value.text).mono (List.suffix_cons _ _)
  · split
    · rename_i hnone
      exact bounded_deep rfl hnone _
    · rename_i hinner
      refine Bounded.bracket rfl hinner ?_
      split
      · rename_i hspace
        exact (List.suffix_cons _ _).trans (hspace ▸ skipSpace_suffix _)
      · exact ((ih.items _ _).map Value.array).mono (skipSpace_suffix _)
  · split
    · rename_i hnone
      exact bounded_deep rfl hnone _
    · rename_i hinner
      refine Bounded.bracket rfl hinner ?_
      split
      · rename_i hspace
        exact (List.suffix_cons _ _).trans (hspace ▸ skipSpace_suffix _)
      · exact ((ih.members _ _ _).map Value.document).mono (skipSpace_suffix _)
  · exact bounded_found fun v r h => scalar?_suffix h

theorem ReadsBounded.items_succ (ih : ReadsBounded limit fuel) (room : Room) (s : List Char) :
    Bounded room s (Json.items limit room (fuel + 1) s) := by
  unfold Json.items
  refine (ih.value room s).bind fun v r _ hr => ?_
  have hspace := (skipSpace_suffix r).trans hr
  dsimp only
  split
  · rename_i hclose
    exact (List.suffix_cons _ _).trans (hclose ▸ hspace)
  · rename_i hcomma
    have hrest := (skipSpace_suffix _).trans ((List.suffix_cons _ _).trans (hcomma ▸ hspace))
    exact ((ih.items room _).map fun vs => v :: vs).mono hrest
  · trivial

theorem ReadsBounded.members_succ (ih : ReadsBounded limit fuel) (room : Room) (fields : Document)
    (s : List Char) : Bounded room s (Json.members limit room (fuel + 1) fields s) := by
  unfold Json.members
  split
  · refine Bounded.mono ?_ (List.suffix_cons _ _)
    refine Bounded.bind (bounded_found fun t r h => text?_suffix h) fun key r _ hr => ?_
    have hspace := (skipSpace_suffix r).trans hr
    dsimp only
    split
    · rename_i hcolon
      have hrest := (skipSpace_suffix _).trans ((List.suffix_cons _ _).trans (hcolon ▸ hspace))
      refine Bounded.bind ((ih.value room _).mono hrest) fun v q _ hq => ?_
      have hspace := (skipSpace_suffix q).trans hq
      dsimp only
      split
      · rename_i hclose
        exact (List.suffix_cons _ _).trans (hclose ▸ hspace)
      · rename_i hcomma
        have hrest := (skipSpace_suffix _).trans ((List.suffix_cons _ _).trans (hcomma ▸ hspace))
        exact (ih.members room _ _).mono hrest
      · trivial
    · trivial
  · trivial

theorem readsBounded (limit : Option Nat) (fuel : Nat) : ReadsBounded limit fuel := by
  -- The three readers call each other with one unit of fuel less, so one induction carries all of them.
  induction fuel with
  | zero =>
    exact {
      value := fun _ _ => by simp [Json.value, Bounded]
      items := fun _ _ => by simp [Json.items, Bounded]
      members := fun _ _ _ => by simp [Json.members, Bounded] }
  | succ fuel ih => exact ⟨ih.value_succ, ih.items_succ, ih.members_succ⟩

/-! ## Integers within what is read -/

/-- With some fuel, only what can be written is read. -/
structure ReadsWritable (fuel : Nat) : Prop where
  value : ∀ {room s v r}, value (some digitLimit) room fuel s = .ok (v, r) → v.writable = true
  items : ∀ {room s vs r}, items (some digitLimit) room fuel s = .ok (vs, r) → Value.allWritable vs = true
  members : ∀ {room fields s d r}, Value.fieldsWritable fields = true →
    members (some digitLimit) room fuel fields s = .ok (d, r) → Value.fieldsWritable d = true

theorem found_eq_ok {α : Type} {x : Option α} {a : α} (h : found x = .ok a) : x = some a := by
  cases x <;> cases h
  rfl

theorem ReadsWritable.value_succ (ih : ReadsWritable fuel)
    (h : Json.value (some digitLimit) room (fuel + 1) s = .ok (v, r)) : v.writable = true := by
  unfold Json.value at h
  split at h
  · obtain ⟨t, -, ht⟩ := map_eq_ok_iff.mp h
    cases ht
    rfl
  · split at h
    · cases h
    split at h
    · cases h
      rfl
    · obtain ⟨p, hp, heq⟩ := map_eq_ok_iff.mp h
      cases heq
      exact ih.items hp
  · split at h
    · cases h
    split at h
    · cases h
      rfl
    · obtain ⟨p, hp, heq⟩ := map_eq_ok_iff.mp h
      cases heq
      exact ih.members rfl hp
  · exact writable_scalar? (found_eq_ok h)

theorem ReadsWritable.items_succ (ih : ReadsWritable fuel) {vs : List Value}
    (h : Json.items (some digitLimit) room (fuel + 1) s = .ok (vs, r)) : Value.allWritable vs = true := by
  unfold Json.items at h
  obtain ⟨⟨v, s⟩, hv, h⟩ := bind_eq_ok_iff.mp h
  dsimp only at h
  split at h
  · cases h
    simp [Value.allWritable, ih.value hv]
  · obtain ⟨⟨rest, s⟩, hrest, h⟩ := bind_eq_ok_iff.mp h
    cases h
    simp [Value.allWritable, ih.value hv, ih.items hrest]
  · cases h

theorem ReadsWritable.members_succ (ih : ReadsWritable fuel) {fields d : Document}
    (hf : Value.fieldsWritable fields = true)
    (h : Json.members (some digitLimit) room (fuel + 1) fields s = .ok (d, r)) :
    Value.fieldsWritable d = true := by
  unfold Json.members at h
  split at h
  · obtain ⟨⟨key, s⟩, -, h⟩ := bind_eq_ok_iff.mp h
    dsimp only at h
    split at h
    · obtain ⟨⟨v, s⟩, hv, h⟩ := bind_eq_ok_iff.mp h
      have hput := fieldsWritable_put key hf (ih.value hv)
      dsimp only at h
      split at h
      · cases h
        exact hput
      · exact ih.members hput h
      · cases h
    · cases h
  · cases h

theorem readsWritable (fuel : Nat) : ReadsWritable fuel := by
  induction fuel with
  | zero =>
    exact {
      value := fun h => by simp [Json.value] at h
      items := fun h => by simp [Json.items] at h
      members := fun _ h => by simp [Json.members] at h }
  | succ fuel ih => exact ⟨ih.value_succ, ih.items_succ, ih.members_succ⟩

/-! ## Bodies -/

theorem writable_read (h : read (some digitLimit) room s = .ok v) : v.writable = true := by
  obtain ⟨⟨w, rest⟩, hw, h⟩ := bind_eq_ok_iff.mp h
  dsimp only at h
  split at h
  · cases h
    exact (readsWritable _).value hw
  · cases h

/-- The reader gives up only where brackets use up its room. -/
theorem not_holds_of_read (h : read limit room s = .error .deep) : ¬room.Holds (openings s) := by
  have hbounded := ((readsBounded limit (2 * (skipSpace s).length + 1)).value room (skipSpace s)).mono
    (skipSpace_suffix s)
  rcases bind_eq_error_iff.mp h with hvalue | ⟨⟨w, rest⟩, -, h⟩
  · rwa [hvalue] at hbounded
  · dsimp only at h
    split at h <;> cases h

theorem skipSpace_replicate (n : Nat) : skipSpace (List.replicate n '[') = List.replicate n '[' := by
  cases n <;> rfl

/-- Brackets that nothing closes, up to the first that there is no room for. -/
theorem value_replicate (limit : Option Nat) (most fuel : Nat) (h : 2 * most < fuel) (s : List Char) :
    Json.value limit (some most) fuel (List.replicate (most + 1) '[' ++ s) = .error .deep := by
  induction most generalizing fuel with
  | zero =>
    obtain ⟨fuel, rfl⟩ := Nat.exists_eq_add_of_lt h
    simp [Json.value, Room.inner?]
  | succ most ih =>
    obtain ⟨fuel, rfl⟩ : ∃ k, fuel = k + 2 := ⟨fuel - 2, by omega⟩
    have hinner := ih fuel (by omega)
    have hspace : skipSpace (List.replicate (most + 1) '[' ++ s) = List.replicate (most + 1) '[' ++ s := by
      rw [List.replicate_succ]
      rfl
    have hitems : Json.items limit (some most) (fuel + 1) (List.replicate (most + 1) '[' ++ s) = .error .deep := by
      rw [Json.items, hinner]
      rfl
    rw [List.replicate_succ, List.cons_append]
    unfold Json.value
    simp only [Room.inner?, hspace]
    exact congrArg (Except.map fun p => (Value.array p.1, p.2)) hitems

theorem read_replicate (limit : Option Nat) {most n : Nat} (h : most < n) :
    read limit (some most) (List.replicate n '[') = .error .deep := by
  obtain ⟨k, rfl⟩ := Nat.exists_eq_add_of_lt h
  have hsplit : List.replicate (most + k + 1) '[' = List.replicate (most + 1) '[' ++ List.replicate k '[' := by
    rw [List.replicate_append_replicate]
    congr 1
    omega
  have hvalue := value_replicate limit most (2 * (most + k + 1) + 1) (by omega) (List.replicate k '[')
  unfold read
  simp only [skipSpace_replicate, List.length_replicate]
  rw [hsplit, hvalue]
  rfl

/-- With room for any number of brackets, those that nothing closes hold no value. -/
theorem value_unclosed (limit : Option Nat) (n fuel : Nat) :
    Json.value limit none fuel (List.replicate n '[') = .error .malformed := by
  induction n generalizing fuel with
  | zero =>
    have hscalar : scalar? limit [] = none := rfl
    cases fuel <;> simp [Json.value, hscalar, found]
  | succ n ih =>
    cases fuel with
    | zero => simp [Json.value]
    | succ fuel =>
      have hitems : Json.items limit none fuel (List.replicate n '[') = .error .malformed := by
        cases fuel with
        | zero => simp [Json.items]
        | succ fuel =>
          rw [Json.items, ih]
          rfl
      rw [List.replicate_succ]
      unfold Json.value
      simp only [Room.inner?, skipSpace_replicate]
      cases n <;> exact congrArg (Except.map fun p => (Value.array p.1, p.2)) hitems

theorem read?_unclosed (limit : Option Nat) (n : Nat) : read? limit (List.replicate n '[') = none := by
  rw [read?, read, skipSpace_replicate]
  simp only [value_unclosed]
  rfl

theorem decode?_replicate (n : Nat) : Text.decode? (List.replicate n 0x5B) = some (List.replicate n '[') := by
  induction n with
  | zero => rw [List.replicate_zero, Text.decode?]; rfl
  | succ n ih =>
    have hfirst : Text.decodeFirst 0x5B (List.replicate n 0x5B) = .char '[' 1 := rfl
    rw [List.replicate_succ, Text.decode?, hfirst]
    simp [ih, List.replicate_succ]

theorem decodeAny?_replicate {n : Nat} (h : 4 ≤ n) :
    Text.decodeAny? (List.replicate n 0x5B) = some (List.replicate n '[') := by
  obtain ⟨k, rfl⟩ := Nat.exists_eq_add_of_le' h
  exact decode?_replicate (k + 4)

variable [Stack] {bytes : List UInt8}

theorem writable_readBytes (h : readBytes bytes = .ok v) : v.writable = true := by
  obtain ⟨s, -, h⟩ := bind_eq_ok_iff.mp h
  exact writable_read h

theorem not_holds_of_readBytes (h : readBytes bytes = .error .deep) :
    ∃ s, Text.decodeAny? bytes = some s ∧ ¬Stack.jsonRoom.Holds (openings s) := by
  rcases bind_eq_error_iff.mp h with hfound | ⟨s, hfound, h⟩
  · cases hs : Text.decodeAny? bytes <;> rw [hs] at hfound <;> cases hfound
  · exact ⟨s, found_eq_ok hfound, not_holds_of_read h⟩

/-- Brackets that nothing closes are given up as soon as there are more than there is room for. -/
theorem readBytes_replicate {most n : Nat} (hroom : Stack.jsonRoom = some most) (h : most < n) (h4 : 4 ≤ n) :
    readBytes (List.replicate n 0x5B) = .error .deep := by
  rw [readBytes, decodeAny?_replicate h4, hroom]
  exact read_replicate _ h

end GridQuery.Json

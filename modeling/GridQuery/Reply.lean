import GridQuery.Error

/-! # Replies: the answer of a call and the state it leaves behind -/
namespace GridQuery

theorem bind_eq_ok_iff {ε α β : Type} {x : Except ε α} {f : α → Except ε β} {b : β} :
    (x >>= f) = .ok b ↔ ∃ a, x = .ok a ∧ f a = .ok b := by
  cases x with
  | error e => simp [bind, Except.bind]
  | ok a => simp [bind, Except.bind]

theorem map_eq_ok_iff {ε α β : Type} {x : Except ε α} {f : α → β} {b : β} :
    x.map f = .ok b ↔ ∃ a, x = .ok a ∧ f a = b := by
  cases x with
  | error e => simp [Except.map]
  | ok a => simp [Except.map]

theorem bind_eq_error_iff {ε α β : Type} {x : Except ε α} {f : α → Except ε β} {e : ε} :
    x.bind f = .error e ↔ x = .error e ∨ ∃ a, x = .ok a ∧ f a = .error e := by
  cases x with
  | error e' => simp [Except.bind]
  | ok a => simp [Except.bind]

theorem map_eq_error_iff {ε α β : Type} {x : Except ε α} {f : α → β} {e : ε} :
    x.map f = .error e ↔ x = .error e := by
  cases x with
  | error e' => simp [Except.map]
  | ok a => simp [Except.map]

theorem exists_of_isOk {ε α : Type} {x : Except ε α} (h : x.isOk = true) : ∃ a, x = .ok a := by
  cases x with
  | error e => cases h
  | ok a => exact ⟨a, rfl⟩

/-- A call that fails may still change the state. -/
structure Reply (σ α : Type) where
  answer : Except Error α
  state : σ

namespace Reply

variable {σ τ α β : Type}

/-- Goes on from the state that is left, unless there was an error. -/
def andThen (r : Reply σ α) (next : σ → α → Reply σ β) : Reply σ β :=
  match r.answer with
  | .ok a => next r.state a
  | .error e => ⟨.error e, r.state⟩

@[simp] theorem andThen_ok (s : σ) (a : α) (next : σ → α → Reply σ β) :
    andThen ⟨.ok a, s⟩ next = next s a := rfl

@[simp] theorem andThen_error (s : σ) (e : Error) (next : σ → α → Reply σ β) :
    andThen ⟨.error e, s⟩ next = ⟨.error e, s⟩ := rfl

/-- The same answer, with the state as a part of a larger one. -/
def within (embed : σ → τ) (r : Reply σ α) : Reply τ α := ⟨r.answer, embed r.state⟩

@[simp] theorem answer_within (embed : σ → τ) (r : Reply σ α) : (r.within embed).answer = r.answer := rfl

@[simp] theorem state_within (embed : σ → τ) (r : Reply σ α) :
    (r.within embed).state = embed r.state := rfl

/-- The same state, with another form of the answer. -/
def map (f : α → β) (r : Reply σ α) : Reply σ β := ⟨r.answer.map f, r.state⟩

@[simp] theorem state_map (f : α → β) (r : Reply σ α) : (r.map f).state = r.state := rfl

@[simp] theorem answer_map (f : α → β) (r : Reply σ α) : (r.map f).answer = r.answer.map f := rfl

/-- What holds of the state that is left, after a success and after an error. -/
def Ensures (r : Reply σ α) (success failure : σ → Prop) : Prop :=
  match r.answer with
  | .ok _ => success r.state
  | .error _ => failure r.state

theorem Ensures.mono {r : Reply σ α} {P Q E F : σ → Prop} (h : r.Ensures P E)
    (hp : ∀ s, P s → Q s) (he : ∀ s, E s → F s) : r.Ensures Q F := by
  obtain ⟨answer, s⟩ := r
  cases answer with
  | ok a => exact hp s h
  | error e => exact he s h

theorem Ensures.andThen {r : Reply σ α} {next : σ → α → Reply σ β} {P Q E : σ → Prop}
    (h : r.Ensures P E) (hn : ∀ s a, P s → (next s a).Ensures Q E) : (r.andThen next).Ensures Q E := by
  obtain ⟨answer, s⟩ := r
  cases answer with
  | ok a => exact hn s a h
  | error e => exact h

theorem ensures_within {embed : σ → τ} {r : Reply σ α} {P E : τ → Prop} :
    (r.within embed).Ensures P E ↔ r.Ensures (fun s => P (embed s)) (fun s => E (embed s)) := Iff.rfl

theorem ensures_of_forall {r : Reply σ α} {P E : σ → Prop} (hp : ∀ s, P s) (he : ∀ s, E s) :
    r.Ensures P E := by
  obtain ⟨answer, s⟩ := r
  cases answer with
  | ok a => exact hp s
  | error e => exact he s

theorem ensures_within_of_forall {embed : σ → τ} {r : Reply σ α} {P E : τ → Prop} (hp : ∀ s, P (embed s))
    (he : ∀ s, E (embed s)) : (r.within embed).Ensures P E :=
  ensures_within.mpr (ensures_of_forall hp he)

theorem Ensures.of_ok {r : Reply σ α} {P E : σ → Prop} {a : α} (h : r.Ensures P E)
    (ha : r.answer = .ok a) : P r.state := by
  simpa only [Ensures, ha] using h

theorem Ensures.state {r : Reply σ α} {P : σ → Prop} (h : r.Ensures P P) : P r.state := by
  obtain ⟨answer, s⟩ := r
  cases answer with
  | ok a => exact h
  | error e => exact h

end Reply
end GridQuery

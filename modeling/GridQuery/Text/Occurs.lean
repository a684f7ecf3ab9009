/-! # Occurrences of one text in another -/
namespace GridQuery.Text

/-- Whether the first text stands somewhere in the second. -/
def occursIn (p : List Char) : List Char → Bool
  | [] => p.isEmpty
  | c :: r => p.isPrefixOf (c :: r) || occursIn p r

theorem occursIn_iff (p s : List Char) : occursIn p s = true ↔ ∃ a b, s = a ++ p ++ b := by
  induction s with
  | nil =>
    constructor
    · intro h
      exact ⟨[], [], by simpa [occursIn] using h⟩
    · rintro ⟨a, b, h⟩
      have : p = [] := by
        cases p with
        | nil => rfl
        | cons x p => simp at h
      simp [occursIn, this]
  | cons c r ih =>
    simp only [occursIn, Bool.or_eq_true, List.isPrefixOf_iff_prefix, ih]
    constructor
    · rintro (⟨b, h⟩ | ⟨a, b, h⟩)
      · exact ⟨[], b, by simpa using h.symm⟩
      · exact ⟨c :: a, b, by simp [h]⟩
    · rintro ⟨a, b, h⟩
      cases a with
      | nil => exact Or.inl ⟨b, by simpa using h.symm⟩
      | cons x a =>
        simp only [List.cons_append, List.cons.injEq] at h
        exact Or.inr ⟨a, b, h.2⟩

end GridQuery.Text

import Mathlib.Data.List.Infix
import GridQuery.Proofs.LiteralPatterns

/-! # Texts that end with another

The pattern for endings is anchored at the end of the text, and the end of a text is also found in front of a
line feed that ends it. So the condition selects the texts that end with the operand and, besides, those that end
with the operand and a line feed. -/
namespace GridQuery.TextEndings
open Pattern LiteralPatterns

/-- A text that ends with itself when one more character is put behind it repeats this character. -/
theorem suffix_append_self_iff {v : List Char} {d : Char} : v <:+ v ++ [d] ↔ ∀ c ∈ v, c = d := by
  induction v using List.reverseRecOn generalizing d with
  | nil => simp
  | append_singleton v c ih =>
    have hlast : v ++ [c] <:+ v ++ [c] ++ [d] ↔ c = d ∧ v <:+ v ++ [c] := by
      simp only [List.suffix_concat_iff, List.append_eq_nil_iff, List.cons_ne_nil, and_false, false_or]
      constructor
      · rintro ⟨t, heq, ht⟩
        obtain ⟨rfl, rfl⟩ := List.append_singleton_inj.mp heq
        exact ⟨rfl, by simpa [List.suffix_concat_iff] using ht⟩
      · rintro ⟨rfl, ht⟩
        exact ⟨v, rfl, by simpa [List.suffix_concat_iff] using ht⟩
    rw [hlast, ih]
    simp only [List.mem_append, List.mem_singleton]
    constructor
    · rintro ⟨rfl, h⟩ x (hx | rfl)
      · exact h x hx
      · rfl
    · intro h
      obtain rfl := h c (Or.inr rfl)
      exact ⟨rfl, fun x hx => h x (Or.inl hx)⟩

/-- What ends with a text and a line feed does not end with the text, unless that is made of line feeds. -/
theorem suffix_iff_of_line_suffix {v t : List Char} (h : v ++ ['\n'] <:+ t) : v <:+ t ↔ ∀ c ∈ v, c = '\n' := by
  rw [← suffix_append_self_iff]
  constructor
  · intro hv
    exact List.suffix_of_suffix_length_le hv h (by simp)
  · exact fun hv => hv.trans h

/-- An operand with a text is compiled to a condition that selects what ends with the text, and also what ends with
the text and a line feed. This is more than the endings with the text, unless the text is made of line feeds. -/
theorem endings_selected [Stack] (field : String) {value : Value} {v : List Char} (hv : operandText value = .ok v) :
    ∃ condition, compileFragment field (.text "endswith") value = .ok condition ∧
      ∀ t, (Selects condition field t ↔ v <:+ t ∨ v ++ ['\n'] <:+ t) ∧
        ((Selects condition field t ↔ v <:+ t) ↔ ¬(v ++ ['\n'] <:+ t ∧ ∃ c ∈ v, c ≠ '\n')) := by
  refine ⟨_, compileFragment_pattern .endsWith field hv, fun t => ?_⟩
  have hselects : Selects (conditionOn field .endsWith
      (Criterion.wrapped .endsWith (String.ofList (Text.escape v)))) field t ↔ v <:+ t ∨ v ++ ['\n'] <:+ t :=
    (selects_regex (read?_wrapped .endsWith v)).trans (foundIn_around_endsWith v t)
  refine ⟨hselects, ?_⟩
  rw [hselects, or_iff_left_iff_imp]
  constructor
  · rintro himp ⟨hline, c, hc, hne⟩
    exact hne ((suffix_iff_of_line_suffix hline).mp (himp hline) c hc)
  · intro hnot hline
    refine (suffix_iff_of_line_suffix hline).mpr fun c hc => ?_
    by_contra hne
    exact hnot ⟨hline, c, hc, hne⟩

/-- The number 2.25. -/
def quarter : Value := .double (.finite false 5066549580791808 (-51) (by decide))

/-- An operand with a sign in it, in texts of one line and of two. -/
theorem endings_selected_versions :
    operandText quarter = .ok ['2', '.', '2', '5'] ∧
    ∃ condition, compileFragment "version" (.text "endswith") quarter =
        .ok condition ∧
      Selects condition "version" ['v', '2', '.', '2', '5'] ∧
      Selects condition "version" ['1', '\n', '2', '.', '2', '5', '\n'] ∧
      ¬Selects condition "version" ['v', '2', '0', '2', '5'] := by
  have hplain : quarter.plainText = ['2', '.', '2', '5'] := by decide +kernel
  have hv : operandText quarter = .ok ['2', '.', '2', '5'] := congrArg Except.ok hplain
  obtain ⟨condition, hcompile, hselects⟩ := endings_selected "version" hv
  refine ⟨hv, condition, hcompile, (hselects _).1.mpr (by decide), (hselects _).1.mpr (by decide), ?_⟩
  intro h
  have hends := (hselects _).1.mp h
  revert hends
  decide

/-- A text of one line with its line feed is selected, and does not end with the operand. -/
theorem line_selected :
    compileFragment "Name" (.text "endswith") (.text "Pro") =
      .ok (.single "Name" (.single "$regex" (.text ".*Pro$"))) ∧
    Selects (.single "Name" (.single "$regex" (.text ".*Pro$"))) "Name" ['P', 'r', 'o', '\n'] ∧
    ¬['P', 'r', 'o'] <:+ ['P', 'r', 'o', '\n'] := by
  refine ⟨by rfl, ?_, by decide⟩
  have hread : read? ".*Pro$".toList = some (around .endsWith ['P', 'r', 'o']) :=
    read?_wrapped .endsWith ['P', 'r', 'o']
  exact (selects_regex hread).mpr ((foundIn_around_endsWith _ _).mpr (Or.inr (by decide)))

end GridQuery.TextEndings

import GridQuery.Proofs.FilterBatches
import GridQuery.Proofs.NumberOperands

/-! # What becomes of a field, a token and a value

They are compiled to a fragment, or the caller is told that there is no such operator or that the value is no number,
unless a value would have to be written that cannot be: an integer in it is too long, or it is nested deeper than
there is room for. -/
namespace GridQuery.FragmentOutcomes
open FilterBatches Numeral NumberOperands QueryVocabulary

/-! ## Operators and their values -/

variable {o o' : Operator} {v : Value}

theorem token_injective (h : o.token = o'.token) : o = o' := by
  have hfound := Operator.ofToken?_token o
  rw [h, Operator.ofToken?_token] at hfound
  exact (Option.some.inj hfound).symm

/-- An integer that is too long to be written is beyond the floating point numbers, too. -/
theorem ofInt?_of_long {n : ℤ} (h : 10 ^ digitLimit ≤ n.natAbs) : Number.ofInt? n = none := by
  have hrange : 10 ^ 19 ≤ n.natAbs := (Nat.pow_le_pow_right (by decide) (by decide)).trans h
  have hoverflow : Double.overflowBound ≤ n.natAbs :=
    calc Double.overflowBound
      _ ≤ 2 ^ 1024 := Nat.sub_le _ _
      _ ≤ 10 ^ 1024 := pow_le_pow_left₀ (by decide) (by decide) _
      _ ≤ 10 ^ digitLimit := pow_le_pow_right₀ (by decide) (by decide)
      _ ≤ n.natAbs := h
  have hfar : ¬(Number.least ≤ n ∧ n ≤ Number.greatest) := by
    unfold Number.least Number.greatest
    omega
  rw [Number.ofInt?, if_neg hfar]
  exact if_neg fun hfinite => absurd (Double.isFinite_ofInt_iff.mp hfinite) (not_lt.mpr hoverflow)

/-- A value that cannot be written is a long integer, or has parts. -/
theorem ofValue?_of_obstacle {room : Room} {obstacle : Value.Obstacle} (h : v.obstacle? room = some obstacle) :
    Number.ofValue? v = none := by
  cases v with
  | int n =>
    rw [Value.obstacle?] at h
    split at h
    · cases h
    · rename_i hn
      rw [Value.isWritable_iff, not_lt] at hn
      exact ofInt?_of_long hn
  | array items => exact ofValue?_compound (.array items)
  | tuple items => exact ofValue?_compound (.tuple items)
  | document fields => exact ofValue?_compound (.document fields)
  | _ => cases h

theorem hasOperand_of_ne_compare (ho : ∀ c, o ≠ .compare c) (v : Value) : HasOperand o v := by
  cases o with
  | compare c => exact absurd rfl (ho c)
  | _ => trivial

/-- A null within so many lists. -/
def nested : ℕ → Value
  | 0 => .null
  | n + 1 => .array [nested n]

theorem obstacle?_nested_succ (n : ℕ) {room inner : Room} (h : room.inner? = some inner) :
    (nested (n + 1)).obstacle? room = (nested n).obstacle? inner := by
  simp [nested, Value.obstacle?, Value.itemsObstacle?, h]

theorem obstacle?_nested (most : ℕ) : (nested (most + 1)).obstacle? (some most) = some .deep := by
  induction most with
  | zero => rfl
  | succ n ih => rw [obstacle?_nested_succ (n + 1) rfl, ih]

theorem obstacle?_nested_none (n : ℕ) : (nested n).obstacle? none = none := by
  induction n with
  | zero => rfl
  | succ n ih => rw [obstacle?_nested_succ n rfl, ih]

section
variable [Stack]

/-- Operators that write their value as text, if only to find out that it is no number. The others ignore the value,
or only ask whether it is true. -/
def Writes : Operator → Prop
  | .isEmpty | .isNotEmpty | .is => False
  | _ => True

/-- What keeps an operator from its value. Comparisons also quote a value that is no number. -/
inductive Blocked : Operator → Value → Prop
  | long {o : Operator} {v : Value} (ho : Writes o) (h : v.HasLong) : Blocked o v
  | deep {o : Operator} {v : Value} (ho : Writes o) (h : v.Exceeds Stack.textRoom) : Blocked o v
  | quoted {c : Comparison} {v : Value} (h : v.Exceeds Stack.messageRoom) : Blocked (.compare c) v

/-- The token's operator has to write the value, and cannot. -/
def Stuck (token : String) (v : Value) : Prop := ∃ o : Operator, o.token = token ∧ Blocked o v

/-- A fragment for the operator of the token, if the value is an operand for it, or one of the two errors that the
caller is told about. -/
inductive Reported (field token : String) (v : Value) : Except Error Value → Prop
  | fragment {c : Criterion} (h : c.operator.token = token) (hv : HasOperand c.operator v) :
      Reported field token v (.ok (fragment field c))
  | unknownOperator (h : ∀ o : Operator, o.token ≠ token) :
      Reported field token v (.error (.unknownOperator (.text token) field))
  | invalidValue {c : Comparison} (h : (Operator.compare c).token = token) (hv : Number.ofValue? v = none) :
      Reported field token v (.error (.invalidValue field token v .numeric))

/-- An error that the caller is not told about: a value with an integer that is too long, or a stack that is used
up. -/
inductive Untold (v : Value) : Except Error Value → Prop
  | long (h : v.HasLong) : Untold v (.error .unacceptable)
  | deep (h : v.Exceeds Stack.textRoom ∨ v.Exceeds Stack.messageRoom) : Untold v (.error .tooDeep)

variable {field token : String} {answer : Except Error Value}

theorem Reported.not_untold (h : Reported field token v answer) : ¬Untold v answer := by
  cases h <;> rintro ⟨⟩

theorem Untold.eq_unacceptable (h : Untold v answer) (hparts : v.parts = []) : answer = .error .unacceptable := by
  cases h with
  | long => rfl
  | deep h => exact (h.elim (Value.not_exceeds_of_parts hparts _) (Value.not_exceeds_of_parts hparts _)).elim

theorem Untold.eq_tooDeep (h : Untold v answer) (hshort : ¬v.HasLong) : answer = .error .tooDeep := by
  cases h with
  | long h => exact absurd h hshort
  | deep => rfl

/-! ## Values that cannot be written -/

theorem untold_ofObstacle {room : Room} {obstacle : Value.Obstacle} (h : v.obstacle? room = some obstacle)
    (hroom : v.Exceeds room → v.Exceeds Stack.textRoom ∨ v.Exceeds Stack.messageRoom) :
    Untold v (.error (.ofObstacle obstacle)) := by
  have hblocks := Value.blocks_of_obstacle? h
  cases obstacle with
  | overlong => exact .long hblocks
  | deep => exact .deep (hroom hblocks)

/-! ## Comparisons -/

/-- A value that is no number is quoted, unless writing or quoting it fails. -/
theorem noNumber_cases (field operator : String) (v : Value) :
    (v.obstacle? Stack.textRoom ≠ some .deep ∧ v.obstacle? Stack.messageRoom = none ∧
      Criterion.noNumber field operator v = .invalidValue field operator v .numeric) ∨
    ((v.HasLong ∨ v.Exceeds Stack.textRoom ∨ v.Exceeds Stack.messageRoom) ∧ Number.ofValue? v = none ∧
      Untold v (.error (Criterion.noNumber field operator v))) := by
  unfold Criterion.noNumber
  split
  · rename_i hdeep
    exact Or.inr ⟨Or.inr (Or.inl (Value.blocks_of_obstacle? hdeep)), ofValue?_of_obstacle hdeep,
      .deep (Or.inl (Value.blocks_of_obstacle? hdeep))⟩
  · rename_i htext
    unfold Error.ofValue
    cases hmessage : v.obstacle? Stack.messageRoom with
    | none => exact Or.inl ⟨htext, rfl, rfl⟩
    | some obstacle =>
      refine Or.inr ⟨?_, ofValue?_of_obstacle hmessage, untold_ofObstacle hmessage Or.inr⟩
      have hblocks := Value.blocks_of_obstacle? hmessage
      cases obstacle with
      | overlong => exact Or.inl hblocks
      | deep => exact Or.inr (Or.inr hblocks)

/-- Where the value can be both written and quoted, nothing in it is too long or too deep. -/
theorem not_blocked_of_quoted (htext : v.obstacle? Stack.textRoom ≠ some .deep)
    (hmessage : v.obstacle? Stack.messageRoom = none) :
    ¬(v.HasLong ∨ v.Exceeds Stack.textRoom ∨ v.Exceeds Stack.messageRoom) := by
  obtain ⟨hshort, hquoted⟩ := Value.obstacle?_eq_none_iff.mp hmessage
  rintro (hlong | hdeep | hdeep)
  · exact hshort hlong
  · cases ho : v.obstacle? Stack.textRoom with
    | none => exact (Value.obstacle?_eq_none_iff.mp ho).2 hdeep
    | some obstacle =>
      cases obstacle with
      | overlong => exact hshort (Value.blocks_of_obstacle? ho)
      | deep => exact htext ho
  · exact hquoted hdeep

theorem blocked_compare_iff {c : Comparison} : Blocked (.compare c) v ↔
    v.HasLong ∨ v.Exceeds Stack.textRoom ∨ v.Exceeds Stack.messageRoom := by
  constructor
  · rintro (⟨-, h⟩ | ⟨-, h⟩ | h)
    · exact Or.inl h
    · exact Or.inr (Or.inl h)
    · exact Or.inr (Or.inr h)
  · rintro (h | h | h)
    · exact .long trivial h
    · exact .deep trivial h
    · exact .quoted h

/-! ## Outcomes -/

theorem compileFragment_token (field : String) (o : Operator) (v : Value) :
    compileFragment field (.text o.token) v = (Criterion.read o field v).map (fragment field) := by
  rw [compileFragment_eq, lookupOperator_token]
  rfl

/-- What an operator makes of a value, and what of one that it is kept from. -/
def Settles (field : String) (o : Operator) (v : Value) (answer : Except Error Value) : Prop :=
  ¬Blocked o v ∧ Reported field o.token v answer ∨ Blocked o v ∧ Untold v answer

theorem settles_compare (field : String) (c : Comparison) (v : Value) : Settles field (.compare c) v
    ((Criterion.read (.compare c) field v).map (fragment field)) := by
  rw [Settles, blocked_compare_iff, Criterion.read]
  cases hx : Number.ofValue? v with
  | some x =>
    refine Or.inl ⟨?_, .fragment (c := .compare c x) rfl ⟨x, hx⟩⟩
    rcases noNumber_cases field (Operator.compare c).token v with ⟨htext, hmessage, -⟩ | ⟨-, hnone, -⟩
    · exact not_blocked_of_quoted htext hmessage
    · rw [hx] at hnone
      cases hnone
  | none =>
    rcases noNumber_cases field (Operator.compare c).token v with ⟨htext, hmessage, herror⟩ | ⟨hblocked, -, huntold⟩
    · refine Or.inl ⟨not_blocked_of_quoted htext hmessage, ?_⟩
      rw [herror]
      exact .invalidValue rfl hx
    · exact Or.inr ⟨hblocked, huntold⟩

theorem operandText_cases (v : Value) :
    (v.obstacle? Stack.textRoom = none ∧ ∃ s, operandText v = .ok s) ∨
    ∃ obstacle, v.obstacle? Stack.textRoom = some obstacle ∧ operandText v = .error (.ofObstacle obstacle) := by
  cases ho : v.obstacle? Stack.textRoom with
  | none => exact Or.inl ⟨rfl, exists_operandText ho⟩
  | some obstacle =>
    refine Or.inr ⟨obstacle, rfl, ?_⟩
    cases v with
    | null => cases ho
    | _ => simp [operandText, ho]

/-- Operators that make a criterion of the text of their value. -/
theorem settles_text {build : List Char → Criterion} (hbuild : ∀ s, (build s).operator = o)
    (hwrites : Writes o) (ho : ∀ c, o ≠ .compare c) (field : String) (v : Value) :
    Settles field o v (((operandText v).map build).map (fragment field)) := by
  have hblocked : Blocked o v ↔ v.HasLong ∨ v.Exceeds Stack.textRoom := by
    constructor
    · rintro (⟨-, h⟩ | ⟨-, h⟩ | h)
      · exact Or.inl h
      · exact Or.inr h
      · exact absurd rfl (ho _)
    · exact fun h => h.elim (.long hwrites) (.deep hwrites)
  rw [Settles, hblocked]
  rcases operandText_cases v with ⟨hnone, s, hs⟩ | ⟨obstacle, hobstacle, herror⟩
  · rw [Value.obstacle?_eq_none_iff, ← not_or] at hnone
    refine Or.inl ⟨hnone, ?_⟩
    rw [hs]
    exact .fragment (congrArg Operator.token (hbuild s)) ((hbuild s).symm ▸ hasOperand_of_ne_compare ho v)
  · refine Or.inr ⟨?_, ?_⟩
    · have hblocks := Value.blocks_of_obstacle? hobstacle
      cases obstacle with
      | overlong => exact Or.inl hblocks
      | deep => exact Or.inr hblocks
    · rw [herror]
      exact untold_ofObstacle hobstacle Or.inl

/-- Operators that do not look at the text of their value. -/
theorem settles_plain {c : Criterion} (hwrites : ¬Writes c.operator) (field : String) (v : Value) :
    Settles field c.operator v (.ok (fragment field c)) := by
  have ho : ∀ k, c.operator ≠ .compare k := by
    intro k hk
    exact hwrites (hk ▸ trivial)
  refine Or.inl ⟨?_, .fragment rfl (hasOperand_of_ne_compare ho v)⟩
  generalize c.operator = o at hwrites ho
  rintro (⟨h, -⟩ | ⟨h, -⟩ | -)
  · exact hwrites h
  · exact hwrites h
  · exact ho _ rfl

theorem settles (field : String) (o : Operator) (v : Value) :
    Settles field o v (compileFragment field (.text o.token) v) := by
  rw [compileFragment_token]
  cases o with
  | compare c => exact settles_compare field c v
  | pattern t =>
    have hbuild (s : List Char) : (Criterion.pattern t (String.ofList (Text.escape s))).operator = .pattern t := rfl
    exact settles_text hbuild trivial (by rintro c ⟨⟩) field v
  | equals =>
    have hbuild (s : List Char) : (Criterion.equals (String.ofList s)).operator = .equals := rfl
    exact settles_text hbuild trivial (by rintro c ⟨⟩) field v
  | notEquals =>
    have hbuild (s : List Char) : (Criterion.notEquals (String.ofList s)).operator = .notEquals := rfl
    exact settles_text hbuild trivial (by rintro c ⟨⟩) field v
  | isEmpty => exact settles_plain (c := .isEmpty) id field v
  | isNotEmpty => exact settles_plain (c := .isNotEmpty) id field v
  | is => exact settles_plain (c := .is (Criterion.isTrue v)) id field v

/-- The outcome is a fragment or an error that the caller is told about, or else the token's operator has to write
the value and cannot: then the caller is told nothing, and the error is that of a value with a long integer or that
of a stack that is used up. -/
theorem outcome_reported (field token : String) (v : Value) :
    (Reported field token v (compileFragment field (.text token) v) ↔ ¬Stuck token v) ∧
    (Untold v (compileFragment field (.text token) v) ↔ Stuck token v) := by
  have hsettled : ¬Stuck token v ∧ Reported field token v (compileFragment field (.text token) v) ∨
      Stuck token v ∧ Untold v (compileFragment field (.text token) v) := by
    by_cases hknown : ∃ o : Operator, o.token = token
    · obtain ⟨o, rfl⟩ := hknown
      have hstuck : Stuck o.token v ↔ Blocked o v := by
        refine ⟨?_, fun h => ⟨o, rfl, h⟩⟩
        rintro ⟨o', ho', h⟩
        rwa [← token_injective ho']
      rw [hstuck]
      exact settles field o v
    · have hunknown : ∀ o : Operator, o.token ≠ token := fun o ho => hknown ⟨o, ho⟩
      refine Or.inl ⟨fun h => ?_, ?_⟩
      · obtain ⟨o, ho, -⟩ := h
        exact hunknown o ho
      · rw [compileFragment_eq, lookupOperator_eq_error_iff.mpr ⟨hunknown, rfl⟩]
        exact .unknownOperator hunknown
  rcases hsettled with ⟨hfree, hreported⟩ | ⟨hstuck, huntold⟩
  · exact ⟨iff_of_true hreported hfree, iff_of_false hreported.not_untold hfree⟩
  · exact ⟨iff_of_false (fun h => h.not_untold huntold) (not_not.mpr hstuck), iff_of_true huntold hstuck⟩

/-- A list with one level more than there is room for is neither read nor reported. -/
theorem compileFragment_nested (field : String) (c : Comparison) {most : ℕ} (h : Stack.textRoom = some most) :
    compileFragment field (.text (Operator.compare c).token) (nested (most + 1)) = .error .tooDeep := by
  have hdeep := Value.blocks_of_obstacle? (obstacle?_nested most)
  rw [← h] at hdeep
  have hshort := (Value.obstacle?_eq_none_iff.mp (obstacle?_nested_none (most + 1))).1
  rcases settles field (.compare c) (nested (most + 1)) with ⟨hfree, -⟩ | ⟨-, huntold⟩
  · exact absurd (.deep trivial hdeep) hfree
  · exact huntold.eq_tooDeep hshort

end

/-- An integer of 4301 digits is neither compared nor reported. -/
theorem outcome_of_long_integer :
    compileFragment "Price" (.text ">") (.int (10 ^ 4300)) = .error .unacceptable ∧
    ¬Reported "Price" ">" (.int (10 ^ 4300)) (compileFragment "Price" (.text ">") (.int (10 ^ 4300))) := by
  have hlong : (Value.int (10 ^ 4300)).HasLong := by
    have hten : (10 : ℤ).natAbs = 10 := rfl
    refine ⟨0, _, .whole, ?_⟩
    rw [Int.natAbs_pow, hten]
  rcases settles "Price" (.compare .gt) (.int (10 ^ 4300)) with ⟨hfree, -⟩ | ⟨-, huntold⟩
  · exact absurd (.long trivial hlong) hfree
  · exact ⟨huntold.eq_unacceptable rfl, fun h => h.not_untold huntold⟩

end GridQuery.FragmentOutcomes

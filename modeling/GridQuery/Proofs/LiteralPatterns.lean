import GridQuery.Reply
import GridQuery.Query.Criterion

/-! # Patterns that take a text literally

A pattern is read character by character, as a pattern language reads it, and then searched for in texts. The
pattern made for an operator reads as the signs of the operator around the characters of its operand, each of
which stands for itself; so it is found where the operand is found, and nowhere else. -/
namespace GridQuery

/-! ## Reading patterns -/

namespace Pattern

/-- What one character of a text may be. -/
inductive Letter
  | literal (c : Char)
  /-- Any character but the end of a line. -/
  | any

/-- The signs of a pattern. -/
inductive Token
  | letter (l : Letter)
  /-- The letter in front may stand any number of times. -/
  | star
  | start
  | finish

/-- Characters that begin other constructs, or end them, if there is no backslash in front. -/
def otherSigns : List Char := ['(', ')', '[', ']', '{', '}', '?', '+', '|', '\\']

/-- What a character without a backslash in front stands for. -/
def token? (c : Char) : Option Token :=
  if c = '.' then some (.letter .any)
  else if c = '*' then some .star
  else if c = '^' then some .start
  else if c = '$' then some .finish
  else if otherSigns.contains c then none
  else some (.letter (.literal c))

/-- The signs that a pattern is written with. A backslash in front of a character that is neither a letter nor
a digit denotes that character. -/
def tokens? : List Char → Option (List Token)
  | [] => some []
  | c :: r =>
    if c = '\\' then
      match r with
      | [] => none
      | d :: r => if d.isAlphanum then none else (tokens? r).map (.letter (.literal d) :: ·)
    else (token? c).bind fun t => (tokens? r).map (t :: ·)

theorem tokens?_backslash {d : Char} (h : d.isAlphanum = false) (r : List Char) :
    tokens? ('\\' :: d :: r) = (tokens? r).map (.letter (.literal d) :: ·) := by
  simp [tokens?, h]

theorem tokens?_cons {c : Char} (h : c ≠ '\\') (r : List Char) :
    tokens? (c :: r) = (token? c).bind fun t => (tokens? r).map (t :: ·) := by
  cases r <;> simp [tokens?, h]

/-- Letters, taken once or any number of times, and places in a text. -/
inductive Piece
  | once (l : Letter)
  | many (l : Letter)
  | start
  | finish

def pieces? : List Token → Option (List Piece)
  | [] => some []
  | .letter l :: .star :: r => (pieces? r).map (.many l :: ·)
  | .letter l :: r => (pieces? r).map (.once l :: ·)
  | .start :: r => (pieces? r).map (.start :: ·)
  | .finish :: r => (pieces? r).map (.finish :: ·)
  | .star :: _ => none

def read? (s : List Char) : Option (List Piece) := (tokens? s).bind pieces?

/-! ## Searching for patterns -/

def Letter.Admits : Letter → Char → Prop
  | literal c, d => d = c
  | any, d => d ≠ '\n'

/-- Whether pieces match from a place on, which is given by the text before it and the text after it. The end of a
text is also the place in front of a line feed that ends it. -/
def MatchesAt : List Piece → List Char → List Char → Prop
  | [], _, _ => True
  | .once l :: ps, before, after => ∃ c rest, after = c :: rest ∧ l.Admits c ∧ MatchesAt ps (before ++ [c]) rest
  | .many l :: ps, before, after => ∃ run rest, after = run ++ rest ∧ (∀ c ∈ run, l.Admits c) ∧
      MatchesAt ps (before ++ run) rest
  | .start :: ps, before, after => before = [] ∧ MatchesAt ps before after
  | .finish :: ps, before, after => (after = [] ∨ after = ['\n']) ∧ MatchesAt ps before after

/-- Whether pieces match anywhere in a text. -/
def FoundIn (ps : List Piece) (t : List Char) : Prop :=
  ∃ before after, t = before ++ after ∧ MatchesAt ps before after

/-! ## Literal texts -/

/-- The characters of a text, each standing for itself. -/
def literals (v : List Char) : List Piece := v.map fun c => .once (.literal c)

theorem tokens?_escape_append (v rest : List Char) : tokens? (Text.escape v ++ rest) =
    (tokens? rest).map (v.map (fun c => .letter (.literal c)) ++ ·) := by
  induction v with
  | nil => simp
  | cons c v ih =>
    have hcons : (tokens? (Text.escape v ++ rest)).map (.letter (.literal c) :: ·) =
        (tokens? rest).map ((c :: v).map (fun c => .letter (.literal c)) ++ ·) := by
      rw [ih, Option.map_map]
      rfl
    rw [Text.escape_cons, List.append_assoc, Text.escapeChar, ← hcons]
    split
    · rename_i hmeta
      have hsigns : Text.metacharacters.all (!·.isAlphanum) = true := by decide
      have hsign := List.all_eq_true.mp hsigns c (by simpa using hmeta)
      exact tokens?_backslash (by simpa using hsign) _
    · rename_i hmeta
      have hplain : ∀ d ∈ Text.metacharacters, c ≠ d := by
        rintro d hd rfl
        exact hmeta (by simpa using hd)
      simp only [Text.metacharacters, List.forall_mem_cons] at hplain
      have htoken : token? c = some (.letter (.literal c)) := by
        simp [token?, otherSigns, hplain]
      rw [List.singleton_append, tokens?_cons (by simp [hplain]), htoken, Option.bind_some]

/-- Letters before a sign that does not repeat them are pieces of their own. -/
theorem pieces?_literals_append (v : List Char) {ts : List Token} (h : ts.head? ≠ some .star) :
    pieces? (v.map (fun c => .letter (.literal c)) ++ ts) = (pieces? ts).map (literals v ++ ·) := by
  induction v with
  | nil => simp [literals]
  | cons c v ih =>
    have hnext : ∀ r, v.map (fun c => Token.letter (.literal c)) ++ ts ≠ .star :: r := by
      intro r hr
      cases v with
      | nil =>
        rw [List.map_nil, List.nil_append] at hr
        exact h (by rw [hr]; rfl)
      | cons d v => cases hr
    rw [List.map_cons, List.cons_append, pieces?, ih, Option.map_map]
    · rfl
    · exact fun r => hnext r

theorem read?_escape_append (v : List Char) {s : List Char} {ts : List Token} (hs : tokens? s = some ts)
    (h : ts.head? ≠ some .star) : read? (Text.escape v ++ s) = (read? s).map (literals v ++ ·) := by
  rw [read?, read?, tokens?_escape_append, hs]
  exact pieces?_literals_append v h

theorem read?_room (s : List Char) : read? ('.' :: '*' :: s) = (read? s).map (.many .any :: ·) := by
  have htokens : tokens? ('.' :: '*' :: s) = (tokens? s).map (.letter .any :: .star :: ·) := by
    simp [tokens?_cons, token?, Function.comp_def]
  rw [read?, read?, htokens]
  cases tokens? s <;> rfl

theorem read?_start (s : List Char) : read? ('^' :: s) = (read? s).map (.start :: ·) := by
  have htokens : tokens? ('^' :: s) = (tokens? s).map (.start :: ·) := by simp [tokens?_cons, token?]
  rw [read?, read?, htokens]
  cases tokens? s <;> rfl

/-- The pieces of a pattern for an operator and an operand. -/
def around : TextTest → List Char → List Piece
  | .contains, v | .notContains, v => .many .any :: literals v ++ [.many .any]
  | .startsWith, v => .start :: literals v ++ [.many .any]
  | .endsWith, v => .many .any :: literals v ++ [.finish]

theorem read?_wrapped (test : TextTest) (v : List Char) :
    read? (Criterion.wrapped test (String.ofList (Text.escape v))).toList = some (around test v) := by
  have hroom : read? (Text.escape v ++ ['.', '*']) = some (literals v ++ [.many .any]) := by
    rw [read?_escape_append v rfl (by simp)]
    rfl
  have hfinish : read? (Text.escape v ++ ['$']) = some (literals v ++ [.finish]) := by
    rw [read?_escape_append v rfl (by simp)]
    rfl
  cases test with
  | contains | notContains => simp [Criterion.wrapped, read?_room, hroom, around]
  | startsWith => simp [Criterion.wrapped, read?_start, hroom, around]
  | endsWith => simp [Criterion.wrapped, read?_room, hfinish, around]

/-! ## Finding texts -/

theorem matchesAt_literals_append (v : List Char) (ps : List Piece) (before after : List Char) :
    MatchesAt (literals v ++ ps) before after ↔ ∃ rest, after = v ++ rest ∧ MatchesAt ps (before ++ v) rest := by
  induction v generalizing before after with
  | nil => simp [literals]
  | cons c v ih =>
    rw [literals, List.map_cons, List.cons_append, MatchesAt]
    constructor
    · rintro ⟨d, rest, rfl, hd, hmatch⟩
      obtain ⟨rest', rfl, hps⟩ := (ih _ _).mp hmatch
      cases hd
      exact ⟨rest', rfl, by simpa using hps⟩
    · rintro ⟨rest, rfl, hps⟩
      exact ⟨c, v ++ rest, rfl, rfl, (ih _ _).mpr ⟨rest, rfl, by simpa using hps⟩⟩

theorem matchesAt_run (before after : List Char) : MatchesAt [.many .any] before after :=
  ⟨[], after, rfl, by simp, trivial⟩

theorem foundIn_around_contains (v t : List Char) : FoundIn (around .contains v) t ↔ v <:+: t := by
  constructor
  · rintro ⟨before, after, rfl, run, rest, rfl, -, hmatch⟩
    obtain ⟨rest', rfl, -⟩ := (matchesAt_literals_append v _ _ _).mp hmatch
    exact ⟨before ++ run, rest', by simp⟩
  · rintro ⟨a, b, rfl⟩
    refine ⟨a, v ++ b, by simp, [], v ++ b, rfl, by simp, ?_⟩
    exact (matchesAt_literals_append v _ _ _).mpr ⟨b, rfl, matchesAt_run _ _⟩

theorem foundIn_around_startsWith (v t : List Char) : FoundIn (around .startsWith v) t ↔ v <+: t := by
  constructor
  · rintro ⟨before, after, rfl, rfl, hmatch⟩
    obtain ⟨rest, rfl, -⟩ := (matchesAt_literals_append v _ _ _).mp hmatch
    exact ⟨rest, rfl⟩
  · rintro ⟨b, rfl⟩
    refine ⟨[], v ++ b, rfl, rfl, ?_⟩
    exact (matchesAt_literals_append v _ _ _).mpr ⟨b, rfl, matchesAt_run _ _⟩

/-- The end that a pattern asks for is also found in front of a line feed that ends the text. -/
theorem foundIn_around_endsWith (v t : List Char) :
    FoundIn (around .endsWith v) t ↔ v <:+ t ∨ v ++ ['\n'] <:+ t := by
  constructor
  · rintro ⟨before, after, rfl, run, rest, rfl, -, hmatch⟩
    obtain ⟨rest', rfl, hend, -⟩ := (matchesAt_literals_append v _ _ _).mp hmatch
    rcases hend with rfl | rfl
    · exact Or.inl ⟨before ++ run, by simp⟩
    · exact Or.inr ⟨before ++ run, by simp⟩
  · intro h
    obtain ⟨a, rest, rfl, hend⟩ : ∃ a rest, t = a ++ (v ++ rest) ∧ (rest = [] ∨ rest = ['\n']) := by
      rcases h with ⟨a, rfl⟩ | ⟨a, rfl⟩
      · exact ⟨a, [], by simp, Or.inl rfl⟩
      · exact ⟨a, ['\n'], rfl, Or.inr rfl⟩
    refine ⟨a, v ++ rest, rfl, [], v ++ rest, rfl, by simp, ?_⟩
    exact (matchesAt_literals_append v _ _ _).mpr ⟨rest, rfl, hend, trivial⟩

end Pattern

namespace LiteralPatterns
open Pattern

/-- The condition on a field that a pattern is put into. -/
def conditionOn (field : String) (test : TextTest) (pattern : String) : Value :=
  match test with
  | .notContains => .single field (.single "$not" (.single "$regex" (.text pattern)))
  | _ => .single field (.single "$regex" (.text pattern))

/-- Whether a condition on a field selects a document that has the text there. -/
def Selects (condition : Value) (field : String) (t : List Char) : Prop :=
  ∃ pattern ps, read? pattern.toList = some ps ∧
    (condition = .single field (.single "$regex" (.text pattern)) ∧ FoundIn ps t ∨
      condition = .single field (.single "$not" (.single "$regex" (.text pattern))) ∧ ¬FoundIn ps t)

section Selection
variable {field pattern : String} {t : List Char} {ps : List Piece} (hread : read? pattern.toList = some ps)
include hread

theorem selects_regex : Selects (.single field (.single "$regex" (.text pattern))) field t ↔ FoundIn ps t := by
  constructor
  · rintro ⟨pattern', ps', hread', ⟨hcondition, h⟩ | ⟨hcondition, -⟩⟩
    · simp only [Value.single, Value.document.injEq, List.cons.injEq, Prod.mk.injEq, Value.text.injEq, and_true,
        true_and] at hcondition
      rw [← hcondition, hread, Option.some.injEq] at hread'
      rwa [hread']
    · simp [Value.single] at hcondition
  · exact fun h => ⟨pattern, ps, hread, Or.inl ⟨rfl, h⟩⟩

theorem selects_not_regex :
    Selects (.single field (.single "$not" (.single "$regex" (.text pattern)))) field t ↔ ¬FoundIn ps t := by
  constructor
  · rintro ⟨pattern', ps', hread', ⟨hcondition, -⟩ | ⟨hcondition, h⟩⟩
    · simp [Value.single] at hcondition
    · simp only [Value.single, Value.document.injEq, List.cons.injEq, Prod.mk.injEq, Value.text.injEq, and_true,
        true_and] at hcondition
      rw [← hcondition, hread, Option.some.injEq] at hread'
      rwa [hread']
  · exact fun h => ⟨pattern, ps, hread, Or.inr ⟨rfl, h⟩⟩

end Selection

/-- The condition that an operand with the text is compiled to. -/
theorem compileFragment_pattern [Stack] (test : TextTest) (field : String) {value : Value} {v : List Char}
    (hv : operandText value = .ok v) : compileFragment field (.text (Operator.pattern test).token) value =
      .ok (conditionOn field test (Criterion.wrapped test (String.ofList (Text.escape v)))) := by
  have hread : Criterion.read (.pattern test) field value = .ok (.pattern test (String.ofList (Text.escape v))) := by
    rw [Criterion.read, hv]
    rfl
  have hcondition (c : String) :
      fragment field (.pattern test c) = conditionOn field test (Criterion.wrapped test c) := by
    cases test <;> rfl
  rw [compileFragment, lookupOperator, Operator.ofToken?_token, ← hcondition]
  change (Criterion.read (.pattern test) field value).bind (fun c => .ok (fragment field c)) = _
  rw [hread]
  rfl

/-- An operand with a text is compiled to a pattern that reads as the signs of the operator around the characters of
the text. The condition selects the texts in which the operand stands, those in which it does not stand, or those
that begin with it. -/
theorem patterns_literal [Stack] (test : TextTest) (field : String) {value : Value} {v : List Char}
    (hv : operandText value = .ok v) :
    ∃ pattern,
      compileFragment field (.text (Operator.pattern test).token) value = .ok (conditionOn field test pattern) ∧
      read? pattern.toList = some (around test v) ∧
      ∀ t, (test = .contains → (Selects (conditionOn field test pattern) field t ↔ v <:+: t)) ∧
        (test = .notContains → (Selects (conditionOn field test pattern) field t ↔ ¬v <:+: t)) ∧
        (test = .startsWith → (Selects (conditionOn field test pattern) field t ↔ v <+: t)) := by
  have hread := read?_wrapped test v
  refine ⟨_, compileFragment_pattern test field hv, hread, fun t => ⟨?_, ?_, ?_⟩⟩
  · rintro rfl
    exact (selects_regex hread).trans (foundIn_around_contains v t)
  · rintro rfl
    exact (selects_not_regex hread).trans (not_congr (foundIn_around_contains v t))
  · rintro rfl
    exact (selects_regex hread).trans (foundIn_around_startsWith v t)

/-- An operand of signs and a line feed. -/
theorem patterns_literal_signs :
    operandText (.text ".*\n[") = .ok ['.', '*', '\n', '['] ∧
    ∃ pattern, compileFragment "Name" (.text "startswith") (.text ".*\n[") =
        .ok (.single "Name" (.single "$regex" (.text pattern))) ∧
      Selects (.single "Name" (.single "$regex" (.text pattern))) "Name" ['.', '*', '\n', '[', ']'] ∧
      ¬Selects (.single "Name" (.single "$regex" (.text pattern))) "Name" ['a', 'b', '\n', '['] := by
  have hv : operandText (.text ".*\n[") = .ok ['.', '*', '\n', '['] := by rfl
  obtain ⟨pattern, hcompile, -, hselects⟩ := patterns_literal .startsWith "Name" hv
  refine ⟨hv, pattern, hcompile, ((hselects _).2.2 rfl).mpr (by decide), ?_⟩
  intro h
  have hprefix := ((hselects _).2.2 rfl).mp h
  revert hprefix
  decide

end LiteralPatterns
end GridQuery

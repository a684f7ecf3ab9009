import GridQuery.Proofs.DatedWrites

/-! # Dates in documents, read once

Reading a document touches the fields that are declared as dates, and only these. It fails iff one of them has a
value that no date can be read from. A document that was read is left as it is when it is read again. -/
namespace GridQuery

namespace DateField
open Time

/-! ## Values of date fields -/

/-- The values that a date field takes: null, moments, ISO 8601 texts, and numbers of milliseconds of instants that
are in the calendar. -/
inductive TakesDate : Value → Prop
  | null : TakesDate .null
  | date (m : Moment) : TakesDate (.date m)
  | text {s : String} {m : Moment} (h : IsoReader.moment? (expandZulu (Text.trim s.toList)) = some m) :
      TakesDate (.text s)
  | int {n : ℤ} (hlow : firstInstant ≤ 1000 * n) (hhigh : 1000 * n < endInstant) : TakesDate (.int n)
  | double {d : Double} {q : ℚ} (hq : d.toRat? = some q) (hlow : (firstInstant : ℚ) ≤ 1000 * q)
      (hhigh : 1000 * q < endInstant) : TakesDate (.double d)

/-- What a value of a date field becomes. Null and moments stay; what is read from a text or a number has an
offset. -/
inductive Becomes : Value → Value → Prop
  | null : Becomes .null .null
  | date (m : Moment) : Becomes (.date m) (.date m)
  | text {s : String} {m : Moment} (h : m.offset.isSome) : Becomes (.text s) (.date m)
  | int {n : ℤ} {m : Moment} (h : m.offset.isSome) : Becomes (.int n) (.date m)
  | double {d : Double} {m : Moment} (h : m.offset.isSome) : Becomes (.double d) (.date m)

variable {v w : Value}

theorem isReadable_iff : IsReadable v ↔ TakesDate v := by
  cases v with
  | null => exact iff_of_true ⟨_, .null⟩ .null
  | date m => exact iff_of_true ⟨_, .date m⟩ (.date m)
  | text s =>
    constructor
    · rintro ⟨_, _ | _ | h⟩
      exact .text h
    · rintro (_ | _ | h)
      exact ⟨_, .text h⟩
  | int n =>
    rw [isReadable_iff_moment? (by rintro ⟨⟩), ← Option.isSome_iff_exists, moment?,
      EpochMillis.isSome_ofMillis?_iff]
    constructor
    · rintro ⟨hlow, hhigh⟩
      exact .int hlow hhigh
    · rintro (_ | _ | _ | ⟨hlow, hhigh⟩)
      exact ⟨hlow, hhigh⟩
  | double d =>
    rw [isReadable_iff_moment? (by rintro ⟨⟩), ← Option.isSome_iff_exists, moment?,
      EpochMillis.isSome_ofMillisDouble?_iff]
    constructor
    · rintro ⟨q, hq, hlow, hhigh⟩
      exact .double hq hlow hhigh
    · rintro (_ | _ | _ | _ | ⟨hq, hlow, hhigh⟩)
      exact ⟨_, hq, hlow, hhigh⟩
  | _ => exact iff_of_false (by rintro ⟨_, ⟨⟩⟩) (by rintro ⟨⟩)

theorem Stands.becomes (h : Stands v w) : Becomes v w := by
  cases h with
  | null => exact .null
  | date m => exact .date m
  | text h => exact .text rfl
  | int hlow hhigh h => exact .int h.isSome_offset
  | double hq hlow hhigh h => exact .double h.isSome_offset

/-- A value of a date field stays once it was read. -/
theorem Becomes.read (h : Becomes v w) (field : String) : read field w = .ok w := by
  cases h <;> rfl

/-! ## Documents -/

/-- What becomes of an entry: the value of a date field is read, any other is left as it is. -/
def EntryBecomes (properties : Document) (entry coerced : String × Value) : Prop :=
  coerced.1 = entry.1 ∧ (Declared properties entry.1 → Becomes entry.2 coerced.2) ∧
    (¬Declared properties entry.1 → coerced.2 = entry.2)

theorem Written.becomes {properties d written : Document} (h : Written properties d written) :
    List.Forall₂ (EntryBecomes properties) d written :=
  h.imp fun _ _ hentry => ⟨hentry.1, fun hd => (hentry.2.1 hd).becomes, hentry.2.2⟩

variable {properties d coerced : Document}

theorem keys_of_entryBecomes (h : List.Forall₂ (EntryBecomes properties) d coerced) :
    Table.keys coerced = Table.keys d := by
  induction h with
  | nil => rfl
  | cons hentry _ ih => exact congrArg₂ List.cons hentry.1 ih

/-- The date fields of a document that was read are read as they are. -/
theorem readFields_of_entryBecomes {dates : List String} (hdates : ∀ name, name ∈ dates ↔ Declared properties name)
    (h : List.Forall₂ (EntryBecomes properties) d coerced) : readFields dates coerced = .ok coerced := by
  induction h with
  | nil => rfl
  | @cons entry written _ rest hentry _ ih =>
    obtain ⟨hkey, hdeclared, -⟩ := hentry
    have hfirst : (if dates.contains written.1 then read written.1 written.2 else .ok written.2) = .ok written.2 := by
      split
      · rename_i hc
        rw [hkey, List.contains_iff_mem, hdates] at hc
        exact (hdeclared hc).read written.1
      · rfl
    rw [readFields_cons, hfirst, ih]
    rfl

theorem coerce_of_entryBecomes (hp : ∀ p ∈ properties, ∃ declaration, p.2.IsOptional declaration)
    (h : List.Forall₂ (EntryBecomes properties) d coerced) : coerce (.document properties) coerced = .ok coerced := by
  obtain ⟨dates, hnames, hdates⟩ := namesIn_of_isOptional hp
  rw [coerce, names, hnames]
  exact readFields_of_entryBecomes hdates h

end DateField

namespace DateCoercion
open DateField

def one : Double := .finite false 4503599627370496 (-52) (by decide)

/-- A phone with a number that is no date and a number that is one. -/
def priced : Document := [("price", .double one), ("since", .double one)]

end DateCoercion
end GridQuery

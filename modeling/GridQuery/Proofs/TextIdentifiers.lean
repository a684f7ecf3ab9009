import Mathlib.Data.List.Forall2
import GridQuery.Proofs.AddressedDocuments
import GridQuery.Proofs.NumeralGrammar

/-! # Identifiers that stay texts

A text in a path stays a text iff it is neither a numeral nor, with twenty-four characters, the hexadecimal text
of bytes. Numerals are more than integer literals: blanks around the digits, underscores between them and digits of
other scripts turn a text into an integer as well. The text of bytes may have blanks between the bytes, if the
library of the store lets them stand there. -/
namespace GridQuery.TextIdentifiers
open Text Numeral AddressedDocuments

/-! ## Hexadecimal digits -/

def hexDigits : List Char := [
  '0', '1', '2', '3', '4', '5', '6', '7', '8', '9', 'a', 'b', 'c', 'd', 'e', 'f', 'A', 'B', 'C', 'D', 'E', 'F']

/-- Twenty-four hexadecimal digits, in either case. -/
def IsHexadecimal (s : List Char) : Prop := s.length = 24 ∧ ∀ c ∈ s, c ∈ hexDigits

/-- Blank, tab, line feed, vertical tab, form feed and carriage return. -/
def hexBlanks : List Char := [' ', '\t', '\n', '\x0b', '\x0c', '\r']

/-- The character is the hexadecimal digit of the value, in either case. -/
def Denotes (c : Char) (d : Fin 16) : Prop :=
  "0123456789abcdef".toList[d.val]? = some c ∨ "0123456789ABCDEF".toList[d.val]? = some c

instance (c : Char) (d : Fin 16) : Decidable (Denotes c d) := by unfold Denotes; infer_instance

/-- Pairs of hexadecimal digits with any blanks around the pairs. -/
inductive SpacedPairs : List Char → List (Fin 16) → Prop
  | nil : SpacedPairs [] []
  | blank {c : Char} {s : List Char} {ds : List (Fin 16)} (hc : c ∈ hexBlanks) (h : SpacedPairs s ds) :
      SpacedPairs (c :: s) ds
  | pair {c d : Char} {high low : Fin 16} {s : List Char} {ds : List (Fin 16)} (hc : Denotes c high)
      (hd : Denotes d low) (h : SpacedPairs s ds) : SpacedPairs (c :: d :: s) (high :: low :: ds)

/-- A text of twenty-four characters that the library takes for bytes with these digits. -/
def SpellsBytes [Library] (s : List Char) (ds : List (Fin 16)) : Prop :=
  s.length = 24 ∧ if Library.blanksInIdentifiers then SpacedPairs s ds else List.Forall₂ Denotes s ds

theorem denotes_of_toLower {c : Char} {d : Fin 16} (h : ObjectId.hexDigit d = c.toLower) : Denotes c d := by
  rcases toLower_cases c with hsame | ⟨hletter, hc⟩
  · have hall : ∀ d : Fin 16, Denotes (ObjectId.hexDigit d) d := by decide
    rw [← hsame, ← h]
    exact hall d
  · have hall : ∀ d : Fin 16, 97 ≤ (ObjectId.hexDigit d).toNat →
        Denotes (Char.ofNat ((ObjectId.hexDigit d).toNat - 32)) d := by decide
    rw [← h] at hc hletter
    rw [hc]
    exact hall d hletter

theorem hexValue?_eq_some_iff {c : Char} {d : Fin 16} : ObjectId.hexValue? c = some d ↔ Denotes c d := by
  constructor
  · intro h
    have hlower := List.find?_some h
    exact denotes_of_toLower (by simpa using hlower)
  · have hlower : ∀ d : Fin 16,
        "0123456789abcdef".toList[d.val]?.bind ObjectId.hexValue? = some d := by decide
    have hupper : ∀ d : Fin 16,
        "0123456789ABCDEF".toList[d.val]?.bind ObjectId.hexValue? = some d := by decide
    rintro (h | h)
    · have hd := hlower d
      rwa [h] at hd
    · have hd := hupper d
      rwa [h] at hd

theorem hexValues?_eq_some_iff {s : List Char} {ds : List (Fin 16)} :
    ObjectId.hexValues? s = some ds ↔ List.Forall₂ Denotes s ds := by
  induction s generalizing ds with
  | nil => simp [ObjectId.hexValues?, eq_comm]
  | cons c s ih =>
    simp only [ObjectId.hexValues?, Option.bind_eq_bind, Option.bind_eq_some_iff, hexValue?_eq_some_iff, ih,
      Option.some.injEq, List.forall₂_cons_left_iff]
    constructor
    · rintro ⟨d, hd, rest, hrest, rfl⟩
      exact ⟨d, rest, hd, hrest, rfl⟩
    · rintro ⟨d, rest, hd, hrest, rfl⟩
      exact ⟨d, hd, rest, hrest, rfl⟩

theorem isBlank_iff {c : Char} : ObjectId.isBlank c = true ↔ c ∈ hexBlanks := by
  have hrange : ('\t' ≤ c ∧ c ≤ '\r') ↔ c = '\t' ∨ c = '\n' ∨ c = '\x0b' ∨ c = '\x0c' ∨ c = '\r' := by
    simp only [Char.le_def, UInt32.le_iff_toNat_le, ← Char.toNat_inj]
    change 9 ≤ c.toNat ∧ c.toNat ≤ 13 ↔
      c.toNat = 9 ∨ c.toNat = 10 ∨ c.toNat = 11 ∨ c.toNat = 12 ∨ c.toNat = 13
    omega
  simp [ObjectId.isBlank, hexBlanks, hrange]

theorem not_denotes_of_blank : ∀ c ∈ hexBlanks, ∀ d : Fin 16, ¬Denotes c d := forall_mem_of_all (by decide)

theorem spacedPairs_blank {c : Char} {s : List Char} {ds : List (Fin 16)} (hc : c ∈ hexBlanks) :
    SpacedPairs (c :: s) ds ↔ SpacedPairs s ds := by
  refine ⟨?_, .blank hc⟩
  rintro (_ | ⟨-, h⟩ | ⟨hdigit, -, -⟩)
  · exact h
  · exact absurd hdigit (not_denotes_of_blank c hc _)

theorem hexPairs?_eq_some_iff (s : List Char) {ds : List (Fin 16)} :
    ObjectId.hexPairs? s = some ds ↔ SpacedPairs s ds := by
  fun_induction ObjectId.hexPairs? s generalizing ds with
  | case1 =>
    constructor
    · rintro ⟨⟩
      exact .nil
    · rintro ⟨⟩
      rfl
  | case2 c r hblank ih => rw [ih, spacedPairs_blank (isBlank_iff.mp hblank)]
  | case3 c hblank =>
    refine iff_of_false (by simp) ?_
    rintro (_ | ⟨hc, -⟩)
    exact hblank (isBlank_iff.mpr hc)
  | case4 c hblank d r ih =>
    simp only [Option.bind_eq_bind, Option.bind_eq_some_iff, hexValue?_eq_some_iff, ih, Option.some.injEq]
    constructor
    · rintro ⟨high, hhigh, low, hlow, rest, hrest, rfl⟩
      exact .pair hhigh hlow hrest
    · rintro (_ | ⟨hc, -⟩ | ⟨hhigh, hlow, hrest⟩)
      · exact absurd (isBlank_iff.mpr hc) hblank
      · exact ⟨_, hhigh, _, hlow, _, hrest, rfl⟩

theorem SpacedPairs.length_le {s : List Char} {ds : List (Fin 16)} (h : SpacedPairs s ds) :
    ds.length ≤ s.length := by
  induction h with
  | nil => exact le_refl _
  | blank hc h ih => exact ih.trans (Nat.le_succ _)
  | pair hc hd h ih => simpa using ih

section
variable [Library] {s : List Char} {ds : List (Fin 16)}

theorem SpellsBytes.length_le (h : SpellsBytes s ds) : ds.length ≤ 24 := by
  obtain ⟨hlength, hdigits⟩ := h
  rw [← hlength]
  split at hdigits
  · exact hdigits.length_le
  · exact hdigits.length_eq.ge

theorem values?_eq_some_iff : ObjectId.values? s = some ds ↔
    if Library.blanksInIdentifiers then SpacedPairs s ds else List.Forall₂ Denotes s ds := by
  unfold ObjectId.values?
  split
  · exact hexPairs?_eq_some_iff s
  · exact hexValues?_eq_some_iff

theorem ofText?_eq_some_iff {o : ObjectId} : ObjectId.ofText? s = some o ↔ SpellsBytes s o.digits := by
  rw [ObjectId.ofText?, Option.bind_eq_some_iff]
  constructor
  · rintro ⟨ds, hds, h⟩
    split at h
    · rename_i hlength
      cases h
      exact ⟨hlength.1, values?_eq_some_iff.mp hds⟩
    · cases h
  · rintro ⟨hlength, hdigits⟩
    exact ⟨o.digits, values?_eq_some_iff.mpr hdigits, dif_pos ⟨hlength, o.length_le⟩⟩

theorem ofText?_eq_none_iff : ObjectId.ofText? s = none ↔ ¬∃ ds, SpellsBytes s ds := by
  rw [Option.eq_none_iff_forall_ne_some]
  constructor
  · rintro hnone ⟨ds, h⟩
    exact hnone ⟨ds, h.length_le⟩ (ofText?_eq_some_iff.mpr h)
  · rintro hnot o ho
    exact hnot ⟨o.digits, ofText?_eq_some_iff.mp ho⟩

/-! ## What values identify -/

/-- The identifier that a value is taken for: a numeral for its integer, another text that spells bytes for these,
and everything else for itself. -/
inductive Identifies : Value → Value → Prop
  | numeral {s : String} {n : Int} (h : IsNumeral s.toList n) : Identifies (.text s) (.int n)
  | bytes {s : String} {o : ObjectId} (hn : ¬∃ n, IsNumeral s.toList n) (h : SpellsBytes s.toList o.digits) :
      Identifies (.text s) (.objectId o)
  | text {s : String} (hn : ¬∃ n, IsNumeral s.toList n) (h : ¬∃ ds, SpellsBytes s.toList ds) :
      Identifies (.text s) (.text s)
  | other {v : Value} (h : ∀ s, v ≠ .text s) : Identifies v v

theorem Identifies.eq_asIdentifier {v id : Value} (h : Identifies v id) : v.asIdentifier = id := by
  cases h with
  | numeral h => rw [Value.asIdentifier, integer?_eq_some_iff.mpr h]
  | bytes hn h => rw [Value.asIdentifier, integer?_eq_none_iff.mpr hn, ofText?_eq_some_iff.mpr h]
  | text hn h => rw [Value.asIdentifier, integer?_eq_none_iff.mpr hn, ofText?_eq_none_iff.mpr h]
  | other h =>
    cases v with
    | text s => exact absurd rfl (h s)
    | _ => rfl

theorem identifies_asIdentifier (v : Value) : Identifies v v.asIdentifier := by
  by_cases htext : ∃ s, v = .text s
  · obtain ⟨s, rfl⟩ := htext
    rw [Value.asIdentifier]
    cases hn : integer? s.toList with
    | some n => exact .numeral (integer?_eq_some_iff.mp hn)
    | none =>
      have hno := integer?_eq_none_iff.mp hn
      cases ho : ObjectId.ofText? s.toList with
      | some o => exact .bytes hno (ofText?_eq_some_iff.mp ho)
      | none => exact .text hno (ofText?_eq_none_iff.mp ho)
  · have hother : Identifies v v := .other fun s hs => htext ⟨s, hs⟩
    rwa [hother.eq_asIdentifier]

/-! ## Texts that are kept -/

theorem asIdentifier_eq_text_iff (s : String) : Value.asIdentifier (.text s) = .text s ↔
    (¬∃ n, IsNumeral s.toList n) ∧ ¬∃ ds, SpellsBytes s.toList ds := by
  refine ⟨fun hkept => ?_, fun ⟨hn, hbytes⟩ => (Identifies.text hn hbytes).eq_asIdentifier⟩
  have hidentifies := identifies_asIdentifier (.text s)
  rw [hkept] at hidentifies
  cases hidentifies with
  | text hn h => exact ⟨hn, h⟩
  | other h => exact absurd rfl (h s)

end

/-- An integer literal: ASCII digits behind a sign, if there is one. -/
inductive IsLiteral : List Char → Prop
  | mk {sign digits : List Char} {negative : Bool} (hsign : IsSign sign negative) (hne : digits ≠ [])
      (hdigits : ∀ c ∈ digits, c.isDigit = true) : IsLiteral (sign ++ digits)

theorem IsLiteral.forall_mem {s : List Char} (h : IsLiteral s) :
    ∀ c ∈ s, c.isDigit = true ∨ c = '+' ∨ c = '-' := by
  obtain @⟨sign, digits, negative, hsign, -, hdigits⟩ := h
  refine List.forall_mem_append.mpr ⟨?_, fun c hc => Or.inl (hdigits c hc)⟩
  cases hsign <;> simp

/-- Characters that have no part in a numeral unless they are ASCII digits or signs. -/
def IsPlain (c : Char) : Prop :=
  isNumeralBlank c = false ∧ c ≠ '_' ∧ (c.isDigit = true ∨ digitValue? c = none)

instance (c : Char) : Decidable (IsPlain c) := by unfold IsPlain; infer_instance

theorem isDigit_of_grouped {s : List Char} {ds : List Nat} (h : Grouped s ds) (hplain : ∀ c ∈ s, IsPlain c) :
    ∀ c ∈ s, c.isDigit = true := by
  have hdigit {c : Char} {d : Nat} (hc : IsPlain c) (hd : digitValue? c = some d) : c.isDigit = true := by
    rcases hc.2.2 with h | h
    · exact h
    · rw [hd] at h
      cases h
  induction h with
  | last h => simpa using hdigit (hplain _ List.mem_cons_self) h
  | digit h rest ih =>
    obtain ⟨hc, hs⟩ := List.forall_mem_cons.mp hplain
    exact List.forall_mem_cons.mpr ⟨hdigit hc h, ih hs⟩
  | underscore h rest ih => exact absurd rfl (hplain '_' (by simp)).2.1

/-- A numeral of plain characters is an integer literal. -/
theorem isLiteral_of_plain {s : List Char} {n : Int} (h : IsNumeral s n) (hplain : ∀ c ∈ s, IsPlain c) :
    IsLiteral s := by
  obtain @⟨before, sign, body, after, negative, ds, hbefore, hsign, hbody, hlimit, hafter⟩ := h
  have hnone {blanks : List Char} (hblank : ∀ c ∈ blanks, isNumeralBlank c = true)
      (hsub : ∀ c ∈ blanks, IsPlain c) : blanks = [] := by
    rw [List.eq_nil_iff_forall_not_mem]
    intro c hc
    have := (hsub c hc).1
    rw [hblank c hc] at this
    cases this
  simp only [List.forall_mem_append] at hplain
  obtain ⟨⟨hb, -, hd⟩, ha⟩ := hplain
  rw [hnone hbefore hb, hnone hafter ha, List.nil_append, List.append_nil]
  refine .mk hsign ?_ (isDigit_of_grouped hbody hd)
  obtain ⟨c, r, d, rfl, -⟩ := hbody.exists_cons
  simp

theorem not_isPlain_of_blank : ∀ c ∈ hexBlanks, ¬IsPlain c := forall_mem_of_all (by decide)

theorem Denotes.mem {c : Char} {d : Fin 16} (h : Denotes c d) : c ∈ hexDigits := by
  have hlower : ∀ c ∈ "0123456789abcdef".toList, c ∈ hexDigits := forall_mem_of_all (by decide)
  have hupper : ∀ c ∈ "0123456789ABCDEF".toList, c ∈ hexDigits := forall_mem_of_all (by decide)
  rcases h with h | h
  · exact hlower c (List.mem_of_getElem? h)
  · exact hupper c (List.mem_of_getElem? h)

theorem SpacedPairs.forall_mem {s : List Char} {ds : List (Fin 16)} (h : SpacedPairs s ds)
    (hplain : ∀ c ∈ s, IsPlain c) : ∀ c ∈ s, c ∈ hexDigits := by
  induction h with
  | nil => simp
  | blank hc => exact absurd (hplain _ List.mem_cons_self) (not_isPlain_of_blank _ hc)
  | pair hc hd _ ih =>
    simp only [List.forall_mem_cons] at hplain ⊢
    exact ⟨hc.mem, hd.mem, ih hplain.2.2⟩

theorem forall_mem_of_denotes {s : List Char} {ds : List (Fin 16)} (h : List.Forall₂ Denotes s ds) :
    ∀ c ∈ s, c ∈ hexDigits := by
  induction h with
  | nil => simp
  | cons hc _ ih => exact List.forall_mem_cons.mpr ⟨hc.mem, ih⟩

/-- The text of bytes has no blanks if its characters are plain. -/
theorem SpellsBytes.isHexadecimal [Library] {s : List Char} {ds : List (Fin 16)} (h : SpellsBytes s ds)
    (hplain : ∀ c ∈ s, IsPlain c) : IsHexadecimal s := by
  obtain ⟨hlength, hdigits⟩ := h
  refine ⟨hlength, ?_⟩
  split at hdigits
  · exact hdigits.forall_mem hplain
  · exact forall_mem_of_denotes hdigits

theorem text_kept_of_plain [Library] {s : String} (hliteral : ¬IsLiteral s.toList)
    (hhex : ¬IsHexadecimal s.toList) (hplain : ∀ c ∈ s.toList, IsPlain c) :
    Value.asIdentifier (.text s) = .text s := by
  refine (asIdentifier_eq_text_iff s).mpr ⟨?_, ?_⟩
  · rintro ⟨n, hn⟩
    exact hliteral (isLiteral_of_plain hn hplain)
  · rintro ⟨ds, hds⟩
    exact hhex (hds.isHexadecimal hplain)

/-- A text is kept as an identifier iff it is neither a numeral nor, with twenty-four characters, the hexadecimal
text of bytes, and then documents are deleted and updated by that text. Texts that are neither integer literals nor
made of twenty-four hexadecimal digits are kept if they have neither blanks nor underscores nor digits of other
scripts. -/
theorem texts_kept [Library] [Stack] (s : String) :
    (Value.asIdentifier (.text s) = .text s ↔
      (¬∃ n, IsNumeral s.toList n) ∧ ¬∃ ds, SpellsBytes s.toList ds) ∧
    (¬IsLiteral s.toList → ¬IsHexadecimal s.toList → (∀ c ∈ s.toList, IsPlain c) →
      Value.asIdentifier (.text s) = .text s) ∧
    (Value.asIdentifier (.text s) = .text s → ∀ database collection store,
      (Crud.delete database collection (.text s) store).2.calls =
        store.calls ++ [.delete (Store.collectionName database collection) (.single "_id" (.text s))] ∧
      ∀ v d prepared, Crud.prepareDocument "update" database collection v store = (.ok d, prepared) →
        (Crud.update database collection (.text s) v store).2.calls = prepared.calls ++
          [.update (Store.collectionName database collection) (.single "_id" (.text s))
            (.single "$set" (.document d))]) := by
  refine ⟨asIdentifier_eq_text_iff s, text_kept_of_plain, fun hkept database collection store => ?_⟩
  have hfilter : Crud.byId (.text s) = .single "_id" (.text s) := by rw [Crud.byId, hkept]
  refine ⟨?_, fun v d prepared hd => ?_⟩
  · rw [calls_delete_by, hfilter]
  · rw [calls_update_by database collection (.text s) hd, hfilter]

/-- A hexadecimal numeral is no integer literal. -/
theorem texts_kept_hexadecimal : ¬IsLiteral "0x1F".toList ∧ ¬IsHexadecimal "0x1F".toList ∧
    (∀ c ∈ "0x1F".toList, IsPlain c) ∧ Value.asIdentifier (.text "0x1F") = .text "0x1F" ∧
    (Crud.delete "shop" "products" (.text "0x1F") Store.empty).2.calls =
      [.delete "shop.products" (.single "_id" (.text "0x1F"))] := by
  have hliteral : ¬IsLiteral "0x1F".toList := fun h => absurd (h.forall_mem 'x' (by decide)) (by decide)
  have hhex : ¬IsHexadecimal "0x1F".toList := fun h => absurd h.1 (by decide)
  have hplain : ∀ c ∈ "0x1F".toList, IsPlain c := forall_mem_of_all (by decide)
  obtain ⟨-, hkept, hcalls⟩ := texts_kept "0x1F"
  have hkept := hkept hliteral hhex hplain
  exact ⟨hliteral, hhex, hplain, hkept, (hcalls hkept "shop" "products" Store.empty).1⟩

/-- A blank in front of digits makes no integer literal, and still another document is deleted. -/
theorem padded_text_not_kept : ¬IsLiteral " 12".toList ∧ ¬IsHexadecimal " 12".toList ∧
    Value.asIdentifier (.text " 12") = .int 12 ∧
    (Crud.delete "shop" "products" (.text " 12") Store.empty).2.calls =
      [.delete "shop.products" (.single "_id" (.int 12))] := by
  have hread : Value.asIdentifier (.text " 12") = .int 12 := rfl
  have hliteral : ¬IsLiteral " 12".toList := fun h => absurd (h.forall_mem ' ' (by decide)) (by decide)
  refine ⟨hliteral, fun h => absurd h.1 (by decide), hread, ?_⟩
  rw [calls_delete_by, Crud.byId, hread]
  rfl

end GridQuery.TextIdentifiers

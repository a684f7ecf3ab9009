import GridQuery.Json.Plain
import GridQuery.Proofs.DecimalNumerals
import GridQuery.Proofs.StoreCalls

/-! # Identifiers that address their document

An identifier that was read in a response, put into a path, is read back as the identifier that it was
written for, and writes by it go to its document. A numeral comes first: twelve bytes whose hexadecimal
digits are decimal ones throughout are read as an integer, and all others as themselves. -/
namespace GridQuery

/-- An identifier of twelve bytes. -/
def ObjectId.IsWhole (o : ObjectId) : Prop := o.digits.length = 24

instance (o : ObjectId) : Decidable o.IsWhole := by unfold ObjectId.IsWhole; infer_instance

/-- Whether some hexadecimal digit is a letter. -/
def ObjectId.HasLetter (o : ObjectId) : Prop := ∃ d ∈ o.digits, 10 ≤ d.val

instance (o : ObjectId) : Decidable o.HasLetter := by unfold ObjectId.HasLetter; infer_instance

namespace AddressedDocuments
open Text Numeral

/-! ## Spellings of hexadecimal digits -/

/-- A way to write hexadecimal digits that can be read back. -/
structure Spelling (spell : Fin 16 → Char) : Prop where
  value : ∀ d, ObjectId.hexValue? (spell d) = some d
  bare : ∀ d, IsBare (spell d)
  solid : ∀ d, ObjectId.isBlank (spell d) = false
  decimal : ∀ d, digitValue? (spell d) = if d.val < 10 then some d.val else none

theorem lower_spelling : Spelling ObjectId.hexDigit where
  value := by decide
  bare := by decide
  solid := by decide
  decimal := by decide

theorem upper_spelling : Spelling fun d => (ObjectId.hexDigit d).toUpper where
  value := by decide
  bare := by decide
  solid := by decide
  decimal := by decide

variable {spell : Fin 16 → Char}

theorem Spelling.hexValues? (h : Spelling spell) (ds : List (Fin 16)) :
    ObjectId.hexValues? (ds.map spell) = some ds := by
  induction ds with
  | nil => rfl
  | cons d r ih => simp [ObjectId.hexValues?, h.value, ih]

theorem Spelling.hexPairs? (h : Spelling spell) (ds : List (Fin 16)) (heven : ds.length % 2 = 0) :
    ObjectId.hexPairs? (ds.map spell) = some ds := by
  match ds with
  | [] => rfl
  | [d] => cases heven
  | high :: low :: r =>
    have hr : r.length % 2 = 0 := by
      simp only [List.length_cons] at heven
      omega
    simp [ObjectId.hexPairs?, h.solid, h.value, h.hexPairs? r hr]

theorem Spelling.values? [Library] (h : Spelling spell) {o : ObjectId} (hwhole : o.IsWhole) :
    ObjectId.values? (o.digits.map spell) = some o.digits := by
  unfold ObjectId.values?
  split
  · exact h.hexPairs? o.digits (by rw [hwhole])
  · exact h.hexValues? o.digits

/-- The digits of twelve bytes are read back, and no others: a text of another length gives no identifier. -/
theorem Spelling.ofText?_eq_some_iff [Library] (h : Spelling spell) (o : ObjectId) :
    ObjectId.ofText? (o.digits.map spell) = some o ↔ o.IsWhole := by
  constructor
  · intro hread
    obtain ⟨ds, -, hds⟩ := Option.bind_eq_some_iff.mp hread
    split at hds
    · rename_i hlength
      rw [List.length_map] at hlength
      exact hlength.1
    · cases hds
  · intro hwhole
    have hlength : (o.digits.map spell).length = 24 ∧ o.digits.length ≤ 24 :=
      ⟨(List.length_map spell).trans hwhole, o.length_le⟩
    rw [ObjectId.ofText?, h.values? hwhole]
    exact dif_pos hlength

theorem Spelling.mapM_of_letter (h : Spelling spell) {ds : List (Fin 16)} (hl : ∃ d ∈ ds, 10 ≤ d.val) :
    (ds.map spell).mapM digitValue? = none := by
  induction ds with
  | nil =>
    obtain ⟨d, hd, -⟩ := hl
    cases hd
  | cons d r ih =>
    by_cases hd : d.val < 10
    · have hr : ∃ e ∈ r, 10 ≤ e.val := by
        obtain ⟨e, he, hten⟩ := hl
        rcases List.mem_cons.mp he with rfl | he
        · omega
        · exact ⟨e, he, hten⟩
      simp [List.mapM_cons, h.decimal, hd, ih hr]
    · simp [List.mapM_cons, h.decimal, hd]

theorem Spelling.mapM_of_digits (h : Spelling spell) {ds : List (Fin 16)} (hd : ∀ d ∈ ds, d.val < 10) :
    (ds.map spell).mapM digitValue? = some (ds.map Fin.val) := by
  induction ds with
  | nil => rfl
  | cons d r ih =>
    have hr := ih fun e he => hd e (List.mem_cons_of_mem _ he)
    simp [List.mapM_cons, h.decimal, hd d List.mem_cons_self, hr]

/-- Bytes in hexadecimal are a numeral iff there is no letter among their digits. -/
theorem Spelling.integer? (h : Spelling spell) {o : ObjectId} (hwhole : o.IsWhole) :
    Numeral.integer? (o.digits.map spell) =
      if o.HasLetter then none else some ((ofDigits (o.digits.map Fin.val) : Nat) : Int) := by
  have hne : o.digits.map spell ≠ [] := by
    intro hnil
    rw [ObjectId.IsWhole, List.map_eq_nil_iff.mp hnil] at hwhole
    cases hwhole
  have hbare : ∀ c ∈ o.digits.map spell, IsBare c := by
    intro c hc
    obtain ⟨d, -, rfl⟩ := List.mem_map.mp hc
    exact h.bare d
  rw [integer?_of_bare hne hbare]
  by_cases hl : o.HasLetter
  · rw [if_pos hl, h.mapM_of_letter hl]
    rfl
  · have hd : ∀ d ∈ o.digits, d.val < 10 := fun d hd => Nat.lt_of_not_le fun hten => hl ⟨d, hd, hten⟩
    have hlimit : (o.digits.map Fin.val).length ≤ digitLimit := by
      rw [List.length_map, hwhole]
      decide
    rw [if_neg hl, h.mapM_of_digits hd, Option.bind_some, ofDigits?, if_pos hlimit]
    rfl

/-- What bytes in hexadecimal are read as. -/
theorem Spelling.asIdentifier [Library] (h : Spelling spell) {o : ObjectId} (hwhole : o.IsWhole) :
    Value.asIdentifier (.text (String.ofList (o.digits.map spell))) =
      if o.HasLetter then .objectId o else .int (ofDigits (o.digits.map Fin.val)) := by
  rw [Value.asIdentifier, String.toList_ofList, h.integer? hwhole]
  by_cases hl : o.HasLetter
  · rw [if_pos hl, if_pos hl, (h.ofText?_eq_some_iff o).mpr hwhole]
  · rw [if_neg hl, if_neg hl]

theorem Spelling.asIdentifier_eq_iff [Library] (h : Spelling spell) (o : ObjectId) :
    Value.asIdentifier (.text (String.ofList (o.digits.map spell))) = .objectId o ↔ o.IsWhole ∧ o.HasLetter := by
  by_cases hwhole : o.IsWhole
  · rw [h.asIdentifier hwhole, and_iff_right hwhole]
    by_cases hl : o.HasLetter
    · simp [hl]
    · simp [hl]
  · refine iff_of_false (fun hread => hwhole ((h.ofText?_eq_some_iff o).mp ?_)) fun hboth => hwhole hboth.1
    rw [Value.asIdentifier, String.toList_ofList] at hread
    split at hread
    · cases hread
    · split at hread
      · rename_i ho
        rw [ho, Value.objectId.inj hread]
      · cases hread

theorem asIdentifier_integerText [Library] {n : Int} (h : n.natAbs < 10 ^ digitLimit) :
    Value.asIdentifier (.text (String.ofList (integerText n))) = .int n := by
  rw [Value.asIdentifier, String.toList_ofList, integer?_integerText h]

/-! ## Writes -/

/-- The text by which a client asks for a document, from the identifier as a response shows it. -/
def pathText? (id : Value) : Option String :=
  match Json.plain? id with
  | some (.text s) => some s
  | some (.int n) => some (String.ofList (integerText n))
  | _ => none

/-- Identifiers that no other identifier is taken for: integers within the digit limit, and twelve bytes with a
letter among their digits. -/
inductive Addressable : Value → Prop
  | int {n : Int} (short : n.natAbs < 10 ^ digitLimit) : Addressable (.int n)
  | objectId {o : ObjectId} (whole : o.IsWhole) (letter : o.HasLetter) : Addressable (.objectId o)

section
variable [Library]

theorem Addressable.asIdentifier {id : Value} (h : Addressable id) :
    ∃ s, pathText? id = some s ∧ Value.asIdentifier (.text s) = id := by
  cases h with
  | @int n short =>
    have hw : Value.isWritable n = true := Value.isWritable_iff.mpr short
    exact ⟨_, by simp [pathText?, Json.plain?, hw], asIdentifier_integerText short⟩
  | @objectId o whole letter =>
    exact ⟨String.ofList o.text, rfl, (lower_spelling.asIdentifier_eq_iff o).mpr ⟨whole, letter⟩⟩

variable (database collection : String)

theorem calls_delete_by (id : Value) (s : Store) :
    (Crud.delete database collection id s).2.calls =
      s.calls ++ [.delete (Store.collectionName database collection) (Crud.byId id)] := by
  rw [Crud.delete, state_run_map, Store.calls_delete]

/-- Once the document of an update is prepared, one call is made, with the identifier in its filter. -/
theorem calls_update_by [Stack] (id : Value) {v : Value} {s t : Store} {d : Document}
    (h : Crud.prepareDocument "update" database collection v s = (.ok d, t)) :
    (Crud.update database collection id v s).2.calls = t.calls ++
      [.update (Store.collectionName database collection) (Crud.byId id) (.single "$set" (.document d))] := by
  rw [Crud.update, run_bind_ok h, state_run_map, Store.calls_update]

/-! ## Identifiers in paths -/

/-- The digits of an identifier in lower and in upper case. -/
def lowerText (o : ObjectId) : String := String.ofList o.text
def upperText (o : ObjectId) : String := String.ofList (o.text.map Char.toUpper)

theorem asIdentifier_lowerText (o : ObjectId) :
    Value.asIdentifier (.text (lowerText o)) = .objectId o ↔ o.IsWhole ∧ o.HasLetter :=
  lower_spelling.asIdentifier_eq_iff o

theorem asIdentifier_upperText (o : ObjectId) :
    Value.asIdentifier (.text (upperText o)) = .objectId o ↔ o.IsWhole ∧ o.HasLetter := by
  rw [upperText, ObjectId.text, List.map_map]
  exact upper_spelling.asIdentifier_eq_iff o

/-- Twelve bytes are read back from their hexadecimal digits, in either case, iff there is a letter among these;
integers are read back from their decimal digits; and by the text that a response shows of such an
identifier, its document is deleted and updated. -/
theorem identifiers_read_back [Stack] :
    (∀ o : ObjectId, (Value.asIdentifier (.text (lowerText o)) = .objectId o ↔ o.IsWhole ∧ o.HasLetter) ∧
      (Value.asIdentifier (.text (upperText o)) = .objectId o ↔ o.IsWhole ∧ o.HasLetter)) ∧
    (∀ n : Int, n.natAbs < 10 ^ digitLimit →
      Value.asIdentifier (.text (String.ofList (integerText n))) = .int n) ∧
    ∀ id, Addressable id → ∃ s, pathText? id = some s ∧ ∀ database collection store,
      (Crud.delete database collection (.text s) store).2.calls =
        store.calls ++ [.delete (Store.collectionName database collection) (.single "_id" id)] ∧
      ∀ v d prepared, Crud.prepareDocument "update" database collection v store = (.ok d, prepared) →
        (Crud.update database collection (.text s) v store).2.calls = prepared.calls ++
          [.update (Store.collectionName database collection) (.single "_id" id)
            (.single "$set" (.document d))] := by
  refine ⟨fun o => ⟨asIdentifier_lowerText o, asIdentifier_upperText o⟩,
    fun n => asIdentifier_integerText, ?_⟩
  intro id hid
  obtain ⟨s, hs, hread⟩ := hid.asIdentifier
  have hfilter : Crud.byId (.text s) = .single "_id" id := by rw [Crud.byId, hread]
  refine ⟨s, hs, fun database collection store => ⟨?_, fun v d prepared hd => ?_⟩⟩
  · rw [calls_delete_by, hfilter]
  · rw [calls_update_by database collection (.text s) hd, hfilter]

end

/-- An identifier with letters, and one with the digits from 1 to 9 only. -/
def lettered : ObjectId :=
  ⟨[5, 15, 4, 3, 10, 1, 14, 2, 11, 3, 12, 4, 13, 5, 14, 6, 15, 7, 10, 8, 11, 9, 12, 0], by decide⟩

def unlettered : ObjectId :=
  ⟨[1, 2, 3, 4, 5, 6, 7, 8, 9, 0, 1, 2, 3, 4, 5, 6, 7, 8, 9, 0, 1, 2, 3, 4], by decide⟩

theorem identifiers_read_back_lettered : ∃ s, pathText? (.objectId lettered) = some s ∧
    Value.asIdentifier (.text (upperText lettered)) = .objectId lettered ∧
    (Crud.delete "shop" "products" (.text s) Store.empty).2.calls =
      [.delete "shop.products" (.single "_id" (.objectId lettered))] := by
  obtain ⟨hbytes, -, hwrites⟩ := identifiers_read_back
  have hwhole : lettered.IsWhole := by decide
  have hl : lettered.HasLetter := by decide
  obtain ⟨s, hs, hcalls⟩ := hwrites _ (.objectId hwhole hl)
  exact ⟨s, hs, (hbytes lettered).2.mpr ⟨hwhole, hl⟩, (hcalls "shop" "products" Store.empty).1⟩

/-- Bytes without a letter in their text are taken for an integer, and another document is deleted. -/
theorem unlettered_not_read_back : pathText? (.objectId unlettered) = some "123456789012345678901234" ∧
    Value.asIdentifier (.text "123456789012345678901234") ≠ .objectId unlettered ∧
    (Crud.delete "shop" "products" (.text "123456789012345678901234") Store.empty).2.calls =
      [.delete "shop.products" (.single "_id" (.int 123456789012345678901234))] := by
  have htext : "123456789012345678901234" = String.ofList (unlettered.digits.map ObjectId.hexDigit) := by
    decide
  have hread : Value.asIdentifier (.text "123456789012345678901234") = .int 123456789012345678901234 := by
    rw [htext, lower_spelling.asIdentifier (by decide), if_neg (by decide)]
    rfl
  refine ⟨?_, ?_, ?_⟩
  · rw [htext]
    rfl
  · rw [hread]
    simp
  · rw [calls_delete_by, Crud.byId, hread]
    rfl

end AddressedDocuments
end GridQuery

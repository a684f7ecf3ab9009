import GridQuery.Proofs.CompiledQuery

/-! # Sort specifications written and read back

The fields of a specification are words: they have neither blanks nor commas, and each is named once. A
specification of this kind is read back from its text, clause by clause. -/
namespace GridQuery

/-! ## Words and pieces -/

namespace Text

/-- A word has characters, and none of them is blank. -/
theorem mem_words {s w : List Char} (h : w ∈ words s) : w ≠ [] ∧ ∀ c ∈ w, isBlank c = false ∧ c ∈ s := by
  fun_induction words s with
  | case1 => cases h
  | case2 c r hc ih =>
    obtain ⟨hne, hw⟩ := ih h
    exact ⟨hne, fun e he => ⟨(hw e he).1, List.mem_cons_of_mem c (hw e he).2⟩⟩
  | case3 c r hc ih =>
    rcases List.mem_cons.mp h with rfl | h
    · refine ⟨List.cons_ne_nil c _, fun e he => ?_⟩
      rcases List.mem_cons.mp he with rfl | he
      · exact ⟨by simpa using hc, List.mem_cons_self⟩
      · have hblank := List.all_eq_true.mp List.all_takeWhile e he
        exact ⟨by simpa using hblank, List.mem_cons_of_mem c ((List.takeWhile_sublist _).subset he)⟩
    · obtain ⟨hne, hw⟩ := ih h
      refine ⟨hne, fun e he => ⟨(hw e he).1, ?_⟩⟩
      exact List.mem_cons_of_mem c ((List.dropWhile_sublist _).subset (hw e he).2)

theorem not_mem_of_mem_splitAt {sep : Char} {s piece : List Char} (h : piece ∈ splitAt sep s) : sep ∉ piece := by
  induction s generalizing piece with
  | nil =>
    rw [List.mem_singleton.mp h]
    exact List.not_mem_nil
  | cons c r ih =>
    rw [splitAt] at h
    split at h
    · rcases List.mem_cons.mp h with rfl | h
      · exact List.not_mem_nil
      · exact ih h
    · rename_i hc
      split at h
      · rename_i hr
        exact absurd hr (splitAt_ne_nil sep r)
      · rename_i first pieces hr
        rw [hr] at ih
        rcases List.mem_cons.mp h with rfl | h
        · rw [List.mem_cons, not_or]
          exact ⟨Ne.symm hc, ih List.mem_cons_self⟩
        · exact ih (List.mem_cons_of_mem first h)

theorem words_blank_cons {c : Char} (hc : isBlank c = true) (s : List Char) : words (c :: s) = words s := by
  rw [words, if_pos hc]

/-- A word in front of a text is read up to the next blank. -/
theorem words_append {w : List Char} (hne : w ≠ []) (h : ∀ c ∈ w, isBlank c = false) (s : List Char) :
    words (w ++ s) = (w ++ s.takeWhile (!isBlank ·)) :: words (s.dropWhile (!isBlank ·)) := by
  obtain ⟨c, r, rfl⟩ := List.exists_cons_of_ne_nil hne
  have hc : isBlank c = false := h c List.mem_cons_self
  have hr : ∀ e ∈ r, (!isBlank e) = true := fun e he => by simp [h e (List.mem_cons_of_mem c he)]
  rw [List.cons_append, words, if_neg (by simp [hc]), List.takeWhile_append_of_pos hr,
    List.dropWhile_append_of_pos hr]
  rfl

theorem words_of_word {w : List Char} (hne : w ≠ []) (h : ∀ c ∈ w, isBlank c = false) : words w = [w] := by
  have hread := words_append hne h []
  rw [List.append_nil] at hread
  rw [hread]
  simp [words]

theorem words_append_blank {w : List Char} (hne : w ≠ []) (h : ∀ c ∈ w, isBlank c = false) {c : Char}
    (hc : isBlank c = true) (s : List Char) : words (w ++ c :: s) = w :: words s := by
  rw [words_append hne h]
  simp [hc, words_blank_cons hc]

end Text

namespace Table

variable {α : Type}

theorem nodup_keys_put {t : Table α} (h : (keys t).Nodup) (key : String) (a : α) :
    (keys (put t key a)).Nodup := by
  rw [keys_put]
  split
  · exact h
  · rename_i hkey
    rw [List.nodup_append]
    refine ⟨h, by simp, ?_⟩
    rintro k hk _ hkey' rfl
    rw [List.mem_singleton] at hkey'
    subst hkey'
    exact hkey hk

theorem put_of_not_mem {t : Table α} {key : String} (h : key ∉ keys t) (a : α) :
    put t key a = t ++ [(key, a)] := by
  induction t with
  | nil => rfl
  | cons e r ih =>
    obtain ⟨k, b⟩ := e
    rw [keys, List.map_cons, List.mem_cons, not_or] at h
    have hk : k ≠ key := Ne.symm h.1
    rw [put, if_neg hk, ih h.2]
    rfl

end Table

namespace SortSpec
open Text

/-! ## Specifications that can be written -/

/-- A text that a clause can name as its field. -/
def IsField (s : String) : Prop := s.toList ≠ [] ∧ ∀ c ∈ s.toList, isBlank c = false ∧ c ≠ ','

structure Writable (spec : SortSpec) : Prop where
  fields : ∀ key ∈ Table.keys spec, IsField key
  nodup : (Table.keys spec).Nodup

variable {spec : SortSpec}

theorem writable_nil : Writable [] where
  fields _ hkey := absurd hkey List.not_mem_nil
  nodup := List.nodup_nil

theorem Writable.put (h : Writable spec) {key : String} (hkey : IsField key) (d : Direction) :
    Writable (Table.put spec key d) where
  fields k hk := by
    rw [Table.keys_put] at hk
    split at hk
    · exact h.fields k hk
    · rcases List.mem_append.mp hk with hk | hk
      · exact h.fields k hk
      · rw [List.mem_singleton.mp hk]
        exact hkey
  nodup := Table.nodup_keys_put h.nodup key d

theorem Writable.putAll (h : Writable spec) {other : SortSpec} (ho : ∀ key ∈ Table.keys other, IsField key) :
    Writable (Table.putAll spec other) := by
  induction other generalizing spec with
  | nil => exact h
  | cons e r ih =>
    have he : IsField e.1 := ho e.1 List.mem_cons_self
    exact ih (h.put he e.2) fun key hkey => ho key (List.mem_cons_of_mem e.1 hkey)

/-- A word of a clause without commas is a field. -/
theorem isField_of_mem_words {clause w : List Char} (hc : ',' ∉ clause) (hw : w ∈ words clause) :
    IsField (String.ofList w) := by
  obtain ⟨hne, hchars⟩ := mem_words hw
  rw [IsField, String.toList_ofList]
  refine ⟨hne, fun c hcw => ⟨(hchars c hcw).1, ?_⟩⟩
  rintro rfl
  exact hc (hchars ',' hcw).2

theorem Writable.addClause (h : Writable spec) {clause : List Char} (hc : ',' ∉ clause) {spec' : SortSpec}
    (hadd : addClause spec clause = .ok spec') : Writable spec' := by
  unfold SortSpec.addClause at hadd
  split at hadd
  case h_1 hw =>
    cases hadd
    exact h
  case h_2 field hw =>
    cases hadd
    have hfield : IsField (String.ofList field) := isField_of_mem_words hc (by simp [hw])
    exact h.put hfield .descending
  case h_3 field word hw =>
    cases hadd
    have hfield : IsField (String.ofList field) := isField_of_mem_words hc (by simp [hw])
    exact h.put hfield (directionOf word)
  case h_4 => cases hadd

theorem Writable.addClauses (h : Writable spec) {clauses : List (List Char)}
    (hc : ∀ clause ∈ clauses, ',' ∉ clause) {spec' : SortSpec} (hadd : addClauses spec clauses = .ok spec') :
    Writable spec' := by
  induction clauses generalizing spec with
  | nil =>
    cases hadd
    exact h
  | cons clause r ih =>
    obtain ⟨mid, hmid, hrest⟩ := bind_eq_ok_iff.mp hadd
    have hfirst := h.addClause (hc clause List.mem_cons_self) hmid
    exact ih hfirst (fun c hcr => hc c (List.mem_cons_of_mem clause hcr)) hrest

/-- What is read can be written. -/
theorem writable_of_read {v : Value} (h : ofValue v = .ok spec) : Writable spec := by
  cases v with
  | text s =>
    rw [CompiledQuery.ofValue_text] at h
    exact writable_nil.addClauses (fun clause => not_mem_of_mem_splitAt) h
  | _ =>
    rw [CompiledQuery.ofValue_eq_nil h fun s hs => by cases hs]
    exact writable_nil

/-! ## Reading what was written -/

def directionWord : Direction → List Char
  | .ascending => ['a', 's', 'c']
  | .descending => ['d', 'e', 's', 'c']

theorem toList_clauseText (e : String × Direction) :
    (clauseText e).toList = e.1.toList ++ ' ' :: directionWord e.2 := by
  obtain ⟨field, d⟩ := e
  cases d <;> simp [clauseText, directionWord]

theorem words_clauseText {e : String × Direction} (he : IsField e.1) :
    words (clauseText e).toList = [e.1.toList, directionWord e.2] := by
  have hdirection : ∀ c ∈ directionWord e.2, isBlank c = false := by
    have hall : (directionWord e.2).all (fun c => !isBlank c) = true := by cases e.2 <;> rfl
    intro c hc
    simpa using List.all_eq_true.mp hall c hc
  have hne : directionWord e.2 ≠ [] := by cases e.2 <;> exact List.cons_ne_nil _ _
  rw [toList_clauseText, words_append_blank he.1 (fun c hc => (he.2 c hc).1) (by decide),
    words_of_word hne hdirection]

theorem comma_not_mem_clauseText {e : String × Direction} (he : IsField e.1) : ',' ∉ (clauseText e).toList := by
  have hdirection : ',' ∉ ' ' :: directionWord e.2 := by cases e.2 <;> decide
  rw [toList_clauseText, List.mem_append, not_or]
  exact ⟨fun hc => (he.2 ',' hc).2 rfl, hdirection⟩

/-- A clause with the words of one that was written adds its entry. -/
theorem addClause_clauseText {e : String × Direction} (he : IsField e.1) (hkey : e.1 ∉ Table.keys spec)
    {clause : List Char} (hwords : words clause = words (clauseText e).toList) :
    addClause spec clause = .ok (spec ++ [e]) := by
  have hdirection : directionOf (directionWord e.2) = e.2 := by cases e.2 <;> rfl
  rw [addClause, hwords, words_clauseText he]
  dsimp only
  rw [String.ofList_toList, hdirection, Table.put_of_not_mem hkey]

/-- The clauses behind a comma have a blank in front. -/
def laterClauses (spec : SortSpec) : List (List Char) := spec.map fun e => ' ' :: (clauseText e).toList

theorem splitAt_text {e : String × Direction} {r : SortSpec} (h : ∀ key ∈ Table.keys (e :: r), IsField key) :
    splitAt ',' (text (e :: r)).toList = (clauseText e).toList :: laterClauses r := by
  have he : ',' ∉ (clauseText e).toList := comma_not_mem_clauseText (h e.1 List.mem_cons_self)
  induction r generalizing e with
  | nil =>
    have htext : text [e] = clauseText e := String.intercalate_singleton
    rw [htext, splitAt_of_not_mem he]
    rfl
  | cons f r ih =>
    have hrest : ∀ key ∈ Table.keys (f :: r), IsField key :=
      fun key hkey => h key (List.mem_cons_of_mem e.1 hkey)
    have hf : ',' ∉ (clauseText f).toList := comma_not_mem_clauseText (hrest f.1 List.mem_cons_self)
    have htext : (text (e :: f :: r)).toList =
        (clauseText e).toList ++ ',' :: ' ' :: (text (f :: r)).toList := by
      simp [text, String.intercalate_cons_cons]
    have hblank : splitAt ',' (' ' :: (text (f :: r)).toList) =
        (' ' :: (clauseText f).toList) :: laterClauses r := by
      rw [splitAt, if_neg (by decide), ih hrest hf]
    rw [htext, splitAt_append he, hblank]
    rfl

theorem addClauses_laterClauses {r : SortSpec} (h : Writable (spec ++ r)) :
    addClauses spec (laterClauses r) = .ok (spec ++ r) := by
  induction r generalizing spec with
  | nil =>
    rw [List.append_nil]
    rfl
  | cons e r ih =>
    have hkeys : Table.keys (spec ++ e :: r) = Table.keys spec ++ e.1 :: Table.keys r := by simp [Table.keys]
    have he : IsField e.1 := h.fields e.1 (by simp [hkeys])
    have hkey : e.1 ∉ Table.keys spec := by
      have hnodup := h.nodup
      rw [hkeys, List.nodup_append] at hnodup
      intro hmem
      exact hnodup.2.2 e.1 hmem e.1 List.mem_cons_self rfl
    have hclause : addClause spec (' ' :: (clauseText e).toList) = .ok (spec ++ [e]) :=
      addClause_clauseText he hkey (words_blank_cons (by decide) _)
    have happend : spec ++ e :: r = spec ++ [e] ++ r := by simp
    rw [happend] at h ⊢
    exact bind_eq_ok_iff.mpr ⟨_, hclause, ih h⟩

/-- A specification that can be written is what its text is read as. -/
theorem ofValue_text_self (h : Writable spec) : ofValue (.text spec.text) = .ok spec := by
  cases spec with
  | nil => rfl
  | cons e r =>
    have he : IsField e.1 := h.fields e.1 List.mem_cons_self
    have hclause : addClause [] (clauseText e).toList = .ok [e] := addClause_clauseText he List.not_mem_nil rfl
    have hlater : addClauses [e] (laterClauses r) = .ok (e :: r) := by
      apply addClauses_laterClauses
      exact h
    rw [CompiledQuery.ofValue_text, CompiledQuery.clauses, splitAt_text h.fields]
    exact bind_eq_ok_iff.mpr ⟨_, hclause, hlater⟩

end SortSpec
end GridQuery

import Mathlib.Data.List.Basic
import Mathlib.Data.List.Induction
import GridQuery.Proofs.FilterBatches
import GridQuery.Proofs.SortTexts

/-! # Sort specifications put together

A sort handler is given its specification in texts: the first as its input, the others by merges. A text with a
clause that is too long is refused and changes nothing. The clauses of all others count as the clauses of one
text: each field stands where it is named first and has the direction that it is given last. -/
namespace GridQuery

/-! ## Tables -/

namespace Table

variable {α : Type}

/-- Entries under distinct keys: the keys of given entries by their first occurrences, each with its last entry. -/
structure Summarizes (t entries : Table α) : Prop where
  nodup : (keys t).Nodup
  mem_keys : ∀ key, key ∈ keys t ↔ key ∈ keys entries
  ordered : (keys t).Pairwise fun key key' => (keys entries).idxOf key < (keys entries).idxOf key'
  last : ∀ e ∈ t, ∃ before after, entries = before ++ e :: after ∧ e.1 ∉ keys after

theorem keys_append (t u : Table α) : keys (t ++ u) = keys t ++ keys u := List.map_append

theorem putAll_append (t u v : Table α) : putAll t (u ++ v) = putAll (putAll t u) v := List.foldl_append

theorem mem_put {t : Table α} {key : String} {a : α} {e : String × α} (ht : (keys t).Nodup)
    (he : e ∈ put t key a) : e = (key, a) ∨ e ∈ t ∧ e.1 ≠ key := by
  induction t with
  | nil => exact Or.inl (List.mem_singleton.mp he)
  | cons f r ih =>
    obtain ⟨k, b⟩ := f
    obtain ⟨hk, hr⟩ := List.nodup_cons.mp ht
    by_cases h : k = key
    · subst h
      rw [put, if_pos rfl] at he
      rcases List.mem_cons.mp he with rfl | her
      · exact Or.inl rfl
      · have hkey : e.1 ∈ keys r := List.mem_map_of_mem her
        refine Or.inr ⟨List.mem_cons_of_mem _ her, ?_⟩
        rintro rfl
        exact hk hkey
    · rw [put, if_neg h] at he
      rcases List.mem_cons.mp he with rfl | her
      · exact Or.inr ⟨List.mem_cons_self, h⟩
      · exact (ih hr her).imp_right fun hold => ⟨List.mem_cons_of_mem _ hold.1, hold.2⟩

/-- One more entry is put where its key is, or at the end. -/
theorem Summarizes.put {t entries : Table α} (h : Summarizes t entries) (e : String × α) :
    Summarizes (put t e.1 e.2) (entries ++ [e]) where
  nodup := nodup_keys_put h.nodup e.1 e.2
  mem_keys key := by
    rw [keys_put, keys_append, List.mem_append, ← h.mem_keys]
    split
    · rename_i hmem
      simp only [keys, List.map_cons, List.map_nil, List.mem_singleton, iff_self_or]
      rintro rfl
      exact hmem
    · exact List.mem_append
  ordered := by
    have hold : (keys t).Pairwise fun key key' =>
        (keys (entries ++ [e])).idxOf key < (keys (entries ++ [e])).idxOf key' := by
      refine h.ordered.imp_of_mem fun hkey hkey' hlt => ?_
      rw [keys_append, List.idxOf_append_of_mem ((h.mem_keys _).mp hkey),
        List.idxOf_append_of_mem ((h.mem_keys _).mp hkey')]
      exact hlt
    rw [keys_put]
    split
    · exact hold
    · rename_i hnew
      refine List.pairwise_append.mpr ⟨hold, List.pairwise_singleton _ _, fun key hkey key' hkey' => ?_⟩
      rw [List.mem_singleton.mp hkey', keys_append, List.idxOf_append_of_mem ((h.mem_keys _).mp hkey),
        List.idxOf_append_of_notMem fun hmem => hnew ((h.mem_keys _).mpr hmem)]
      exact Nat.lt_add_right _ (List.idxOf_lt_length_of_mem ((h.mem_keys _).mp hkey))
  last f hf := by
    rcases mem_put h.nodup hf with rfl | ⟨hf, hne⟩
    · exact ⟨entries, [], rfl, List.not_mem_nil⟩
    · obtain ⟨before, after, rfl, hafter⟩ := h.last f hf
      refine ⟨before, after ++ [e], by simp, ?_⟩
      rw [keys_append, List.mem_append, not_or]
      exact ⟨hafter, fun hmem => hne (List.mem_singleton.mp hmem)⟩

/-- Entries that are put one after the other are summarized. -/
theorem summarizes_putAll (entries : Table α) : Summarizes (putAll [] entries) entries := by
  induction entries using List.reverseRecOn with
  | nil => exact ⟨List.nodup_nil, fun _ => Iff.rfl, List.Pairwise.nil, by rintro e ⟨⟩⟩
  | append_singleton entries e ih =>
    rw [putAll_append]
    exact ih.put e

theorem put_put (t : Table α) (key : String) (a b : α) : put (put t key a) key b = put t key b := by
  induction t with
  | nil => simp [put]
  | cons e r ih => by_cases h : e.1 = key <;> simp [put, h, ih]

/-- A key that is there already may take its entry before or after others. -/
theorem put_comm {t : Table α} {key key' : String} (hmem : key ∈ keys t) (hne : key ≠ key') (a b : α) :
    put (put t key' b) key a = put (put t key a) key' b := by
  induction t with
  | nil => cases hmem
  | cons e r ih =>
    by_cases h : e.1 = key
    · simp [put, h, hne]
    · have hr : key ∈ keys r := (List.mem_cons.mp hmem).resolve_left (Ne.symm h)
      by_cases h' : e.1 = key' <;> simp [put, h, h', hne.symm, ih hr]

theorem put_putAll {t u : Table α} {key : String} (hmem : key ∈ keys t) (hu : key ∉ keys u) (a : α) :
    put (putAll t u) key a = putAll (put t key a) u := by
  induction u generalizing t with
  | nil => rfl
  | cons e u ih =>
    obtain ⟨hne, hu⟩ := not_or.mp (mt List.mem_cons.mpr hu)
    have hstill : key ∈ keys (put t e.1 e.2) := by
      rw [keys_put]
      split
      · exact hmem
      · exact List.mem_append_left _ hmem
    rw [putAll_cons, putAll_cons, ih hstill hu, put_comm hmem hne]

theorem putAll_put {u : Table α} (hu : (keys u).Nodup) (t : Table α) (key : String) (a : α) :
    putAll t (put u key a) = put (putAll t u) key a := by
  induction u generalizing t with
  | nil => rfl
  | cons e u ih =>
    obtain ⟨k, b⟩ := e
    obtain ⟨hk, hrest⟩ := List.nodup_cons.mp hu
    by_cases h : k = key
    · subst h
      have hmem : k ∈ keys (put t k b) := by
        rw [← get?_isSome_iff, get?_put, if_pos rfl]
        rfl
      rw [put, if_pos rfl, putAll_cons, putAll_cons, put_putAll hmem hk, put_put]
    · rw [put, if_neg h, putAll_cons, putAll_cons, ih hrest]

theorem putAll_putAll {u : Table α} (hu : (keys u).Nodup) (t v : Table α) :
    putAll t (putAll u v) = putAll (putAll t u) v := by
  induction v generalizing u with
  | nil => rfl
  | cons e v ih => rw [putAll_cons, putAll_cons, ih (nodup_keys_put hu e.1 e.2), putAll_put hu]

end Table

/-! ## Clauses -/

namespace Text

/-- The pieces of two texts with a separator between them. -/
theorem splitAt_append_cons (sep : Char) (s t : List Char) :
    splitAt sep (s ++ sep :: t) = splitAt sep s ++ splitAt sep t := by
  induction s with
  | nil => simp [splitAt]
  | cons c r ih =>
    rw [List.cons_append, splitAt, splitAt, ih]
    split
    · rfl
    · cases hr : splitAt sep r with
      | nil => exact absurd hr (splitAt_ne_nil sep r)
      | cons piece pieces => rfl

end Text

namespace SortMerges
open Text CompiledQuery FilterBatches SortSpec

/-- The text of several texts has the clauses of all of them. -/
theorem clauses_intercalate (s : String) (texts : List String) :
    clauses (",".intercalate (s :: texts)) = (s :: texts).flatMap clauses := by
  induction texts generalizing s with
  | nil => simp
  | cons t texts ih =>
    have htext : (",".intercalate (s :: t :: texts)).toList =
        s.toList ++ ',' :: (",".intercalate (t :: texts)).toList := by
      simp [String.intercalate_cons_cons]
    rw [clauses, htext, splitAt_append_cons, List.flatMap_cons, ← ih t]
    rfl

/-- A clause says the same behind others as on its own. -/
theorem addClause_eq (spec : SortSpec) (clause : List Char) :
    addClause spec clause = (addClause [] clause).map (Table.putAll spec) := by
  unfold addClause
  split <;> rfl

theorem nodup_of_addClauses {cs : List (List Char)} {spec : SortSpec} (h : addClauses [] cs = .ok spec) :
    (Table.keys spec).Nodup := by
  have hkeys : Table.keys spec.toDocument = Table.keys spec := by
    rw [toDocument, Table.keys, Table.keys, List.map_map]
    rfl
  rw [← hkeys, toDocument_addClauses h]
  exact (Table.summarizes_putAll _).nodup

theorem addClauses_eq (spec : SortSpec) (cs : List (List Char)) :
    addClauses spec cs = (addClauses [] cs).map (Table.putAll spec) := by
  induction cs generalizing spec with
  | nil => rfl
  | cons c cs ih =>
    rw [addClauses, addClauses, addClause_eq]
    cases hc : addClause [] c with
    | error e => rfl
    | ok mid =>
      have hsingle : addClauses [] [c] = .ok mid := by
        rw [addClauses, hc]
        rfl
      have hmid := nodup_of_addClauses hsingle
      change addClauses (Table.putAll spec mid) cs = (addClauses mid cs).map (Table.putAll spec)
      rw [ih mid, ih (Table.putAll spec mid)]
      cases addClauses [] cs with
      | error e => rfl
      | ok more => exact congrArg Except.ok (Table.putAll_putAll hmid spec more).symm

theorem addClauses_append (spec : SortSpec) (cs cs' : List (List Char)) :
    addClauses spec (cs ++ cs') = (addClauses spec cs).bind fun mid => addClauses mid cs' := by
  induction cs generalizing spec with
  | nil => rfl
  | cons c cs ih =>
    rw [List.cons_append, addClauses, addClauses]
    cases addClause spec c with
    | error e => rfl
    | ok mid => exact ih mid

/-! ## Calls -/

/-- No clause of the text has more than a field and a direction. -/
def IsShort (s : String) : Prop := ∀ clause ∈ clauses s, (words clause).length ≤ 2

instance : DecidablePred IsShort := fun s =>
  inferInstanceAs (Decidable (∀ clause ∈ clauses s, (words clause).length ≤ 2))

/-- What is answered to a text: it is refused for its form iff one of its clauses has more than two words. -/
structure Verdict (s : String) (answer : Except Error Unit) : Prop where
  refused : (∃ fault, answer = .error (.query fault)) ↔ ∃ clause ∈ clauses s, 2 < (words clause).length
  accepted : answer = .ok () ↔ IsShort s

theorem addClause_eq_error {spec : SortSpec} {clause : List Char} {e : Error} (h : addClause spec clause = .error e) :
    e = .query (.longClause (String.ofList (trim clause))) := by
  unfold addClause at h
  split at h
  case h_4 =>
    cases h
    rfl
  all_goals cases h

theorem addClauses_eq_error {spec : SortSpec} {cs : List (List Char)} {e : Error}
    (h : addClauses spec cs = .error e) : ∃ fault, e = .query fault := by
  induction cs generalizing spec with
  | nil => cases h
  | cons c cs ih =>
    rcases bind_eq_error_iff.mp h with hc | ⟨mid, -, hcs⟩
    · exact ⟨_, addClause_eq_error hc⟩
    · exact ih hcs

theorem isShort_iff {s : String} : IsShort s ↔ ∃ spec, ofValue (.text s) = .ok spec := by
  rw [ofValue_text, QueryVocabulary.isOk_addClauses_iff]
  rfl

theorem verdict_of_read (s : String) : Verdict s ((ofValue (.text s)).map fun _ => ()) := by
  have hlong : (∃ clause ∈ clauses s, 2 < (words clause).length) ↔ ¬IsShort s := by simp [IsShort]
  have hshort := isShort_iff (s := s)
  cases hread : ofValue (.text s) with
  | ok spec =>
    have h : IsShort s := hshort.mpr ⟨spec, hread⟩
    refine ⟨?_, iff_of_true rfl h⟩
    rw [hlong]
    exact iff_of_false (by rintro ⟨fault, ⟨⟩⟩) (not_not_intro h)
  | error e =>
    have h : ¬IsShort s := by
      rw [hshort, hread]
      rintro ⟨spec, ⟨⟩⟩
    obtain ⟨fault, rfl⟩ : ∃ fault, e = .query fault := by
      rw [ofValue_text] at hread
      exact addClauses_eq_error hread
    refine ⟨?_, iff_of_false (by rintro ⟨⟩) h⟩
    rw [hlong]
    exact iff_of_true ⟨fault, rfl⟩ h

/-- The specification of the only member of a family. -/
def specOf : Family → Option SortSpec
  | [⟨_, .sort k⟩] => k.spec
  | _ => none

/-- A sort handler on its own whose specification is that of the clauses. -/
def HasClauses (f : Family) (cs : List (List Char)) : Prop :=
  ∃ (k : SortHandler) (spec : SortSpec), f = Family.single (.sort k) ∧ k.spec = some spec ∧
    addClauses [] cs = .ok spec

variable {f : Family} {cs : List (List Char)}

theorem input_sort (k : SortHandler) (v : Value) : (Family.single (.sort k)).input 0 v .null =
    (k.input v).within fun k => Family.single (.sort k) := rfl

theorem merge_sort (k : SortHandler) (v : Value) : (Family.single (.sort k)).merge 0 v =
    match k.merged v with
    | .error e => ⟨.error e, Family.single (.sort k)⟩
    | .ok spec => ⟨.ok (), Family.single (.sort { k with spec := some spec })⟩ := by
  cases hm : k.merged v <;> simp [Family.merge, Family.single, Handler.merged, hm, Except.map, Family.share,
    Handler.withContent]

/-- The clauses that a text adds: all, or none if one of them is too long. -/
def addedClauses (s : String) : List (List Char) := if IsShort s then clauses s else []

/-- A text that is merged is refused and changes nothing, or all its clauses are added. -/
theorem HasClauses.merge (h : HasClauses f cs) (s : String) : Verdict s (f.merge 0 (.text s)).answer ∧
    ((f.merge 0 (.text s)).answer ≠ .ok () → (f.merge 0 (.text s)).state = f) ∧
    HasClauses (f.merge 0 (.text s)).state (cs ++ addedClauses s) := by
  obtain ⟨k, spec, rfl, hk, hcs⟩ := h
  have hverdict := verdict_of_read s
  have hmerged : k.merged (.text s) = (ofValue (.text s)).map (Table.putAll spec) := by
    rw [SortHandler.merged, hk]
  rw [merge_sort, hmerged]
  cases hread : ofValue (.text s) with
  | ok more =>
    rw [hread] at hverdict
    refine ⟨hverdict, fun hne => absurd rfl hne, { k with spec := some (Table.putAll spec more) }, _, rfl, rfl, ?_⟩
    have hshort : IsShort s := isShort_iff.mpr ⟨more, hread⟩
    rw [ofValue_text] at hread
    rw [addedClauses, if_pos hshort, addClauses_append, hcs]
    change addClauses spec (clauses s) = _
    rw [addClauses_eq, hread]
    rfl
  | error e =>
    rw [hread] at hverdict
    refine ⟨hverdict, fun _ => rfl, k, spec, rfl, hk, ?_⟩
    have hlong : ¬IsShort s := by
      rw [isShort_iff, hread]
      rintro ⟨more, ⟨⟩⟩
    rw [addedClauses, if_neg hlong, List.append_nil]
    exact hcs

theorem HasClauses.mergeEach (h : HasClauses f cs) (texts : List String) :
    HasClauses (mergeEach f (texts.map .text)) (cs ++ texts.flatMap addedClauses) := by
  induction texts generalizing f cs with
  | nil => simpa [FilterBatches.mergeEach] using h
  | cons s texts ih =>
    obtain ⟨-, -, hmerged⟩ := h.merge s
    rw [List.flatMap_cons, ← List.append_assoc]
    exact ih hmerged

theorem flatMap_addedClauses (texts : List String) :
    texts.flatMap addedClauses = (texts.filter (IsShort ·)).flatMap clauses := by
  induction texts with
  | nil => rfl
  | cons s texts ih => by_cases h : IsShort s <;> simp [addedClauses, h, ih]

/-- A first input that is accepted is read as its clauses. -/
theorem hasClauses_input {s : String} (h : IsShort s) :
    let once := (Family.single (.sort .init)).input 0 (.text s) .null
    once.answer = .ok () ∧ HasClauses once.state (clauses s) := by
  obtain ⟨spec, hread⟩ := isShort_iff.mp h
  have hinput : SortHandler.init.input (.text s) = ⟨.ok (), ⟨true, .text s⟩, some spec⟩ := by
    simp [SortHandler.input, SortHandler.init, hread]
  intro once
  have honce : once = ⟨.ok (), Family.single (.sort ⟨⟨true, .text s⟩, some spec⟩)⟩ := by
    rw [show once = _ from input_sort _ _, hinput]
    rfl
  rw [ofValue_text] at hread
  exact ⟨by rw [honce], by rw [honce]; exact ⟨_, spec, rfl, rfl, hread⟩⟩

/-- Handlers with the clauses of one text have one specification. -/
theorem exists_specOf {g : Family} (hf : HasClauses f cs) (hg : HasClauses g cs) :
    ∃ spec, specOf f = some spec ∧ specOf g = some spec ∧ addClauses [] cs = .ok spec := by
  obtain ⟨k, spec, rfl, hk, hread⟩ := hf
  obtain ⟨k', spec', rfl, hk', hread'⟩ := hg
  obtain rfl : spec = spec' := Except.ok.inj (hread.symm.trans hread')
  exact ⟨spec, hk, hk', hread⟩

/-- A text is refused for its form iff one of its clauses has more than two words, as the input and in each merge,
and in a merge the specification stays as it was. The specification after any merges is that of one input, all
texts that were accepted with commas between them: its fields are those of all clauses in the order in which they
are named first, each with the direction of its last clause. -/
theorem specs_compose (first : String) :
    let start := (Family.single (.sort .init)).input 0 (.text first) .null
    Verdict first start.answer ∧
    (start.answer = .ok () → ∀ later : List String,
      let sorted := mergeEach start.state (later.map .text)
      let accepted := first :: later.filter (IsShort ·)
      let once := (Family.single (.sort .init)).input 0 (.text (",".intercalate accepted)) .null
      (once.answer = .ok () ∧ ∃ spec, specOf sorted = some spec ∧ specOf once.state = some spec ∧
        Table.Summarizes spec.toDocument ((accepted.flatMap clauses).filterMap clausePair?)) ∧
      ∀ s, Verdict s (sorted.merge 0 (.text s)).answer ∧
        ((sorted.merge 0 (.text s)).answer ≠ .ok () → (sorted.merge 0 (.text s)).state = sorted)) := by
  intro start
  have hanswer : start.answer = (ofValue (.text first)).map fun _ => () := SortHandler.answer_input rfl _
  have hverdict : Verdict first start.answer := hanswer ▸ verdict_of_read first
  refine ⟨hverdict, fun hok later => ?_⟩
  have hfirst : IsShort first := hverdict.accepted.mp hok
  obtain ⟨hdone, hstart⟩ := hasClauses_input hfirst
  have haccepted : ∀ s ∈ first :: later.filter (IsShort ·), IsShort s := by
    refine List.forall_mem_cons.mpr ⟨hfirst, fun s hs => ?_⟩
    simpa using (List.mem_filter.mp hs).2
  have hclauses := clauses_intercalate first (later.filter (IsShort ·))
  have hshort : IsShort (",".intercalate (first :: later.filter (IsShort ·))) := by
    intro clause hclause
    rw [hclauses] at hclause
    obtain ⟨s, hs, hclause⟩ := List.mem_flatMap.mp hclause
    exact haccepted s hs clause hclause
  have hsorted := hstart.mergeEach later
  rw [flatMap_addedClauses, ← List.flatMap_cons, ← hclauses] at hsorted
  obtain ⟨hone, hholds⟩ := hasClauses_input hshort
  obtain ⟨spec, hspec, honce, hread⟩ := exists_specOf hsorted hholds
  refine ⟨⟨hone, spec, hspec, honce, ?_⟩, fun s => ?_⟩
  · rw [toDocument_addClauses hread, hclauses]
    exact Table.summarizes_putAll _
  · obtain ⟨hmerged, hunchanged, -⟩ := hsorted.merge s
    exact ⟨hmerged, hunchanged⟩

/-- A text that names fields again, and one that is refused. -/
theorem specs_compose_again :
    let start := (Family.single (.sort .init)).input 0 (.text "Price asc, Name,") .null
    let later := ["Name asc down", " Shop ASC,Price", "Name asc,, "]
    start.answer = .ok () ∧
    (∃ fault, (start.state.merge 0 (.text "Name asc down")).answer = .error (.query fault)) ∧
    specOf (mergeEach start.state (later.map .text)) =
      some [("Price", .descending), ("Name", .ascending), ("Shop", .descending)] := by
  intro start later
  obtain ⟨hfirst, hmerges⟩ := specs_compose "Price asc, Name,"
  have hok : start.answer = .ok () := hfirst.accepted.mpr (by decide +kernel)
  obtain ⟨-, hverdicts⟩ := hmerges hok []
  obtain ⟨⟨-, spec, hsorted, honce, -⟩, -⟩ := hmerges hok later
  have hread : specOf ((Family.single (.sort .init)).input 0
      (.text (",".intercalate ("Price asc, Name," :: later.filter (IsShort ·)))) .null).state =
      some [("Price", .descending), ("Name", .ascending), ("Shop", .descending)] := by
    decide +kernel
  refine ⟨hok, (hverdicts "Name asc down").1.refused.mpr (by decide +kernel), ?_⟩
  rw [hsorted, ← honce, hread]

end SortMerges
end GridQuery

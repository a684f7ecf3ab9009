import GridQuery.Proofs.SharedCells

/-! # Shared contents

What the input of a filter or of a sort was read as is shared by the copies that are taken of it from then on, and
by no other member of the family: members with content carry the same mark iff their content was read by the same
input. -/
namespace GridQuery
namespace Family

variable {kind : HandlerKind} {f : Family} {i j : Nat} {r s : Relative}

/-! ## Contents along a history -/

/-- The content of a member was read by the input that was the call with the given number, by the member itself or
by one that it descends from. -/
inductive ReadBy (h : Handler) : List HandlerCall → Nat → Nat → Prop
  | read {history : List HandlerCall} {i : Nat} {v w : Value}
      (hanswer : ((grown h history).input i v w).answer = .ok ()) :
      ReadBy h (.input i v w :: history) i history.length
  | inherited {history : List HandlerCall} {i j k : Nat} (hcopy : ((grown h history).copy i).answer = .ok j)
      (hi : ReadBy h history i k) : ReadBy h (.copy i :: history) j k
  | earlier {history : List HandlerCall} {c : HandlerCall} {i k : Nat} (hi : ReadBy h history i k) :
      ReadBy h (c :: history) i k

variable {h : Handler} {history : List HandlerCall} {c : HandlerCall} {k l : Nat} {v w : Value}

theorem readBy_copy_iff : ReadBy h (.copy j :: history) i k ↔
    ReadBy h history i k ∨ ((grown h history).copy j).answer = .ok i ∧ ReadBy h history j k := by
  constructor
  · intro hi
    cases hi with
    | inherited hcopy hj => exact Or.inr ⟨hcopy, hj⟩
    | earlier hi => exact Or.inl hi
  · intro hi
    rcases hi with hi | ⟨hcopy, hj⟩
    · exact .earlier hi
    · exact .inherited hcopy hj

theorem readBy_input_iff : ReadBy h (.input j v w :: history) i k ↔ ReadBy h history i k ∨
    i = j ∧ k = history.length ∧ ((grown h history).input j v w).answer = .ok () := by
  constructor
  · intro hi
    cases hi with
    | read hanswer => exact Or.inr ⟨rfl, rfl, hanswer⟩
    | earlier hi => exact Or.inl hi
  · intro hi
    rcases hi with hi | ⟨rfl, rfl, hanswer⟩
    · exact .earlier hi
    · exact .read hanswer

theorem readBy_merge_iff : ReadBy h (.merge j v :: history) i k ↔ ReadBy h history i k := by
  constructor
  · intro hi
    cases hi with
    | earlier hi => exact hi
  · exact .earlier

theorem readBy_of_none (hc : (grown h history)[c.member]? = none) :
    ReadBy h (c :: history) i k ↔ ReadBy h history i k := by
  cases c with
  | copy j =>
    rw [readBy_copy_iff, copy_of_none (i := j) hc]
    simp
  | input j v w =>
    rw [readBy_input_iff, input_of_none (i := j) hc]
    simp
  | merge j v => exact readBy_merge_iff

theorem ReadBy.lt (hi : ReadBy h history i k) : k < history.length := by
  induction hi with
  | read hanswer => exact Nat.lt_succ_self _
  | inherited hcopy hi ih => exact Nat.lt_succ_of_lt ih
  | earlier hi ih => exact Nat.lt_succ_of_lt ih

theorem ReadBy.lt_length (hi : ReadBy h history i k) : i < (grown h history).length := by
  induction hi with
  | @read history i v w hanswer =>
    apply Nat.lt_of_lt_of_le _ (length_le_call _ _)
    by_contra hnot
    rw [input_of_none (List.getElem?_eq_none (Nat.le_of_not_lt hnot))] at hanswer
    cases hanswer
  | earlier hi ih => exact Nat.lt_of_lt_of_le ih (length_le_call _ _)
  | @inherited history i j k hcopy hi ih =>
    have hmember : (grown h history)[i]? = some (grown h history)[i] := List.getElem?_eq_getElem ih
    rw [copy_of_member hmember] at hcopy
    cases hcopy
    simp [grown, call, copy_of_member hmember]

/-- Content came from an input that was read, and marks are equal iff it was the same input. -/
structure Shares (kind : HandlerKind) (h : Handler) (history : List HandlerCall) : Prop where
  marked : Marked kind (grown h history)
  isSome_iff {i : Nat} {r : Relative} (hi : (grown h history)[i]? = some r) :
    r.handler.content?.isSome = true ↔ ∃ k, ReadBy h history i k
  mark_eq_iff {i j k l : Nat} {r s : Relative} (hi : (grown h history)[i]? = some r)
    (hj : (grown h history)[j]? = some s) (hk : ReadBy h history i k) (hl : ReadBy h history j l) :
    r.mark = s.mark ↔ k = l

theorem shares_nil {settings : Document} (hh : Handler.init kind settings = .ok h) : Shares kind h [] := by
  refine ⟨marked_single hh, ?_, ?_⟩
  · intro i r hi
    obtain ⟨rfl, rfl⟩ := member_single hi
    rw [(Handler.init_eq_ok hh).2.2]
    constructor
    · intro hsome
      cases hsome
    · rintro ⟨k, hk⟩
      cases hk
  · intro i j k l r s _ _ hk
    cases hk

/-- Marks go on telling inputs apart if all content is from before the call, under the same mark. -/
theorem Shares.mark_eq_iff_of_prior (hs : Shares kind h history)
    (hprior : ∀ i r k, (grown h (c :: history))[i]? = some r → ReadBy h (c :: history) i k →
      ∃ i₀ r₀, (grown h history)[i₀]? = some r₀ ∧ ReadBy h history i₀ k ∧ r₀.mark = r.mark)
    (hi : (grown h (c :: history))[i]? = some r) (hj : (grown h (c :: history))[j]? = some s)
    (hk : ReadBy h (c :: history) i k) (hl : ReadBy h (c :: history) j l) : r.mark = s.mark ↔ k = l := by
  obtain ⟨i₀, r₀, hi₀, hk₀, hr⟩ := hprior i r k hi hk
  obtain ⟨j₀, s₀, hj₀, hl₀, hs₀⟩ := hprior j s l hj hl
  rw [← hr, ← hs₀]
  exact hs.mark_eq_iff hi₀ hj₀ hk₀ hl₀

/-- A call that changes no member and reads nothing keeps all. -/
theorem Shares.of_unchanged (hs : Shares kind h history) (hstate : grown h (c :: history) = grown h history)
    (hread : ∀ i k, ReadBy h (c :: history) i k ↔ ReadBy h history i k) : Shares kind h (c :: history) := by
  refine ⟨by rw [hstate]; exact hs.marked, ?_, ?_⟩
  · intro i r hi
    rw [hstate] at hi
    simp only [hread, hs.isSome_iff hi]
  · intro i j k l r s hi hj hk hl
    rw [hstate] at hi hj
    exact hs.mark_eq_iff hi hj ((hread i k).mp hk) ((hread j l).mp hl)

theorem Shares.copy (hs : Shares kind h history) (hj : (grown h history)[j]? = some s) :
    Shares kind h (.copy j :: history) := by
  have hstate : grown h (.copy j :: history) =
      grown h history ++ [⟨(grown h history).markOfCopy s, s.handler⟩] := by
    rw [grown, call, Reply.state_map, copy_of_member hj]
  have hold {i k : Nat} (hi : i < (grown h history).length) :
      ReadBy h (.copy j :: history) i k ↔ ReadBy h history i k := by
    rw [readBy_copy_iff, copy_of_member hj]
    simp [Nat.ne_of_gt hi]
  have hnew {k : Nat} : ReadBy h (.copy j :: history) (grown h history).length k ↔ ReadBy h history j k := by
    rw [readBy_copy_iff, copy_of_member hj]
    have hnot : ¬ReadBy h history (grown h history).length k := fun hk => Nat.lt_irrefl _ hk.lt_length
    simp [hnot]
  refine ⟨hs.marked.copy hj, ?_, hs.mark_eq_iff_of_prior ?_⟩
  · intro i r hi
    rw [hstate] at hi
    rcases member_append_one hi with hi | ⟨rfl, rfl⟩
    · simp only [hold (lt_length_of_member hi), hs.isSome_iff hi]
    · simp only [hnew, hs.isSome_iff hj]
  · intro i r k hi hk
    rw [hstate] at hi
    rcases member_append_one hi with hi | ⟨rfl, rfl⟩
    · exact ⟨i, r, hi, (hold (lt_length_of_member hi)).mp hk, rfl⟩
    · have hk := hnew.mp hk
      refine ⟨j, s, hj, hk, ?_⟩
      simp only [markOfCopy, (hs.isSome_iff hj).mpr ⟨k, hk⟩, if_true]

theorem Shares.unread {g : Handler} {e : Error} (hs : Shares kind h history)
    (hmarked : Marked kind (grown h (.input j v w :: history))) (hj : (grown h history)[j]? = some s)
    (hreply : (grown h history).input j v w = ⟨.error e, (grown h history).set j { s with handler := g }⟩)
    (hc : g.content? = s.handler.content?) : Shares kind h (.input j v w :: history) := by
  have hstate : grown h (.input j v w :: history) = (grown h history).set j { s with handler := g } := by
    rw [grown, call, hreply]
  have hread (i k : Nat) : ReadBy h (.input j v w :: history) i k ↔ ReadBy h history i k := by
    rw [readBy_input_iff, hreply]
    simp
  refine ⟨hmarked, ?_, hs.mark_eq_iff_of_prior ?_⟩
  · intro i r hi
    rw [hstate] at hi
    simp only [hread]
    rcases member_set hj hi with ⟨_, hi⟩ | ⟨rfl, rfl⟩
    · exact hs.isSome_iff hi
    · rw [hc]
      exact hs.isSome_iff hj
  · intro i r k hi hk
    rw [hstate] at hi
    rcases member_set hj hi with ⟨_, hi⟩ | ⟨rfl, rfl⟩
    · exact ⟨i, r, hi, (hread i k).mp hk, rfl⟩
    · exact ⟨i, s, hj, (hread i k).mp hk, rfl⟩

theorem Shares.read {g : Handler} (hs : Shares kind h history)
    (hmarked : Marked kind (grown h (.input j v w :: history))) (hj : (grown h history)[j]? = some s)
    (hreply : (grown h history).input j v w = ⟨.ok (), (grown h history).set j { s with handler := g }⟩)
    (hfresh : s.handler.intake.received = false) (hc : g.content?.isSome = true) :
    Shares kind h (.input j v w :: history) := by
  have hstate : grown h (.input j v w :: history) = (grown h history).set j { s with handler := g } := by
    rw [grown, call, hreply]
  have hread (i k : Nat) : ReadBy h (.input j v w :: history) i k ↔
      ReadBy h history i k ∨ i = j ∧ k = history.length := by
    rw [readBy_input_iff, hreply]
    simp
  have hnone := (hs.marked.placed hj).content_of_fresh hfresh
  -- The content is new, and nobody else carries the mark it is under.
  have hnew {k : Nat} (hk : ReadBy h (.input j v w :: history) j k) : k = history.length := by
    rcases (hread j k).mp hk with hold | ⟨_, hk⟩
    · have hsome := (hs.isSome_iff hj).mpr ⟨k, hold⟩
      rw [hnone] at hsome
      cases hsome
    · exact hk
  have hold {i k : Nat} (hne : i ≠ j) (hk : ReadBy h (.input j v w :: history) i k) : ReadBy h history i k :=
    ((hread i k).mp hk).resolve_right fun hnew => hne hnew.1
  have hapart {i k : Nat} {r : Relative} (hne : i ≠ j) (hi : (grown h history)[i]? = some r)
      (hk : ReadBy h (.input j v w :: history) i k) : r.mark ≠ s.mark ∧ k ≠ history.length :=
    ⟨fun hm => hne (hs.marked.alone hj hnone hi hm), Nat.ne_of_lt (hold hne hk).lt⟩
  refine ⟨hmarked, ?_, ?_⟩
  · intro i r hi
    rw [hstate] at hi
    rcases member_set hj hi with ⟨hne, hi⟩ | ⟨rfl, rfl⟩
    · simp only [hread, hne, false_and, or_false, hs.isSome_iff hi]
    · exact iff_of_true hc ⟨history.length, (hread i _).mpr (Or.inr ⟨rfl, rfl⟩)⟩
  · intro i i' k l r r' hi hi' hk hl
    rw [hstate] at hi hi'
    rcases member_set hj hi with ⟨hne, hi⟩ | ⟨rfl, rfl⟩ <;>
      rcases member_set hj hi' with ⟨hne', hi'⟩ | ⟨heq, rfl⟩
    · exact hs.mark_eq_iff hi hi' (hold hne hk) (hold hne' hl)
    · obtain ⟨hm, hlt⟩ := hapart hne hi hk
      rw [heq] at hl
      rw [hnew hl]
      exact iff_of_false hm hlt
    · obtain ⟨hm, hlt⟩ := hapart hne' hi' hl
      rw [hnew hk]
      exact iff_of_false hm.symm hlt.symm
    · subst heq
      exact iff_of_true rfl ((hnew hk).trans (hnew hl).symm)

theorem Shares.input (hs : Shares kind h history) (hkind : kind.IsMergeable)
    (hj : (grown h history)[j]? = some s) (v w : Value) : Shares kind h (.input j v w :: history) := by
  have hmarked := hs.marked.input hkind hj v w
  have hreads := s.handler.reads_input ((hs.marked.placed hj).kind_eq ▸ hkind) v w
  have hreply := input_of_member hj v w
  generalize s.handler.input v w = out at hreads hreply
  cases hreads with
  | unread _ _ hc => exact hs.unread hmarked hj hreply hc
  | read _ _ hfresh hc => exact hs.read hmarked hj hreply hfresh hc

theorem Shares.merge (hs : Shares kind h history) (hj : (grown h history)[j]? = some s) (v : Value) :
    Shares kind h (.merge j v :: history) := by
  cases hm : s.handler.merged v with
  | error e =>
    apply hs.of_unchanged _ fun i k => readBy_merge_iff
    rw [grown, call, merge_of_member hj, hm]
  | ok c =>
    obtain ⟨hsome, hc⟩ := Handler.merged_eq_ok hm
    have hstate : grown h (.merge j v :: history) = (grown h history).share s.mark c := by
      rw [grown, call, merge_of_member hj, hm]
    refine ⟨hs.marked.merge hj v, ?_, hs.mark_eq_iff_of_prior ?_⟩
    · intro i r hi
      rw [hstate] at hi
      simp only [readBy_merge_iff]
      rcases member_share hi with ⟨_, hi⟩ | ⟨old, hold, heq, rfl⟩
      · exact hs.isSome_iff hi
      · rw [← hs.isSome_iff hold, hs.marked.content_eq hold hj heq, hsome,
          hc _ ((hs.marked.placed hold).kind_eq.trans (hs.marked.placed hj).kind_eq.symm)]
        simp
    · intro i r k hi hk
      rw [hstate] at hi
      rcases member_share hi with ⟨_, hi⟩ | ⟨old, hold, heq, rfl⟩
      · exact ⟨i, r, hi, readBy_merge_iff.mp hk, rfl⟩
      · exact ⟨i, old, hold, readBy_merge_iff.mp hk, heq⟩

theorem shares_of_init {settings : Document} (hh : Handler.init kind settings = .ok h)
    (hkind : kind.IsMergeable) (history : List HandlerCall) : Shares kind h history := by
  induction history with
  | nil => exact shares_nil hh
  | cons c history ih =>
    cases hc : (grown h history)[c.member]? with
    | none => exact ih.of_unchanged (grown_of_none hc) fun i k => readBy_of_none hc
    | some s =>
      cases c with
      | copy j => exact ih.copy hc
      | input j v w => exact ih.input hkind hc v w
      | merge j v => exact ih.merge hc v

/-! ## Stages -/

/-- The stages that a member compiles to, if there is one with that number. -/
def stagesAt (f : Family) (i : Nat) : Option (Except Error (List Stage)) := f[i]?.map fun r => r.handler.stages

theorem stagesAt_of_member (hi : f[i]? = some r) : f.stagesAt i = some r.handler.stages := by
  rw [stagesAt, hi]
  rfl

theorem stagesAt_of_none (hi : f[i]? = none) : f.stagesAt i = none := by
  rw [stagesAt, hi]
  rfl

/-- A copy compiles as its original, and no other member is touched. -/
theorem stagesAt_copy (hanswer : (f.copy i).answer = .ok j) : (f.copy i).state.stagesAt j = f.stagesAt i ∧
    ∀ l, l ≠ j → (f.copy i).state.stagesAt l = f.stagesAt l := by
  cases hi : f[i]? with
  | none =>
    rw [copy_of_none hi] at hanswer
    cases hanswer
  | some r =>
    rw [copy_of_member hi] at hanswer ⊢
    cases hanswer
    constructor
    · simp only [stagesAt, hi, getElem?_append_one, if_true, Option.map_some]
    · intro l hne
      simp only [stagesAt, getElem?_append_one, hne, if_false]

theorem stagesAt_input_of_ne (hne : j ≠ i) (v w : Value) : (f.input i v w).state.stagesAt j = f.stagesAt j := by
  cases hi : f[i]? with
  | none => rw [input_of_none hi]
  | some r =>
    rw [input_of_member hi, Reply.state_within, stagesAt, getElem?_set_member hi, if_neg hne]
    rfl

/-- An input that fails leaves the stages of all members. -/
theorem Marked.stagesAt_input (hf : Marked kind f) (hkind : kind.IsMergeable) {e : Error}
    (hanswer : (f.input i v w).answer = .error e) (j : Nat) :
    (f.input i v w).state.stagesAt j = f.stagesAt j := by
  by_cases hne : j = i
  · subst hne
    cases hj : f[j]? with
    | none => rw [input_of_none hj]
    | some s =>
      have hs : s.handler.kind.IsMergeable := (hf.placed hj).kind_eq ▸ hkind
      have hreads := s.handler.reads_input hs v w
      rw [input_of_member hj] at hanswer ⊢
      generalize s.handler.input v w = out at hreads hanswer
      cases hreads with
      | read _ _ _ _ => cases hanswer
      | unread hsame _ hc =>
        rw [stagesAt_of_member hj, Reply.state_within, stagesAt, getElem?_set_member hj, if_pos rfl]
        exact congrArg some (Handler.stages_congr hs hsame hc)
  · exact stagesAt_input_of_ne hne v w

theorem merge_of_error {e : Error} (hanswer : (f.merge i v).answer = .error e) : (f.merge i v).state = f := by
  cases hi : f[i]? with
  | none => rw [merge_of_none hi]
  | some r =>
    rw [merge_of_member hi] at hanswer ⊢
    cases hm : r.handler.merged v with
    | error _ => rfl
    | ok c =>
      rw [hm] at hanswer
      cases hanswer

theorem merge_eq_ok (hanswer : (f.merge i v).answer = .ok ()) :
    ∃ r c, f[i]? = some r ∧ r.handler.merged v = .ok c ∧ (f.merge i v).state = f.share r.mark c := by
  cases hi : f[i]? with
  | none =>
    rw [merge_of_none hi] at hanswer
    cases hanswer
  | some r =>
    rw [merge_of_member hi] at hanswer ⊢
    cases hm : r.handler.merged v with
    | error _ =>
      rw [hm] at hanswer
      cases hanswer
    | ok c => exact ⟨r, c, rfl, hm, rfl⟩

/-- All members with the mark that content is shared under compile to its stages. -/
theorem Marked.stagesAt_share (hf : Marked kind f) (hkind : kind.IsMergeable) {c : Handler.Content}
    (hi : f[i]? = some r) (hm : r.handler.merged v = .ok c) (hj : f[j]? = some s) :
    (f.share r.mark c).stagesAt j =
      if s.mark = r.mark then some (r.handler.withContent c).stages else f.stagesAt j := by
  have hr := (hf.placed hi).kind_eq
  have hsame : s.handler.kind = r.handler.kind := (hf.placed hj).kind_eq.trans hr.symm
  have hc := (Handler.merged_eq_ok hm).2
  rw [stagesAt, getElem?_share, hj]
  split
  · rename_i heq
    simp only [Option.map_some, if_pos heq]
    apply congrArg some
    apply Handler.stages_congr
    · rw [Handler.kind_withContent, hr]
      exact hkind
    · rw [Handler.kind_withContent, Handler.kind_withContent, hsame]
    · rw [hc _ hsame, hc _ rfl]
  · rename_i hne
    rw [stagesAt_of_member hj, Option.map_some, if_neg hne]
    rfl

/-- A member carries the mark of one with content iff its content was read by the same input. -/
theorem Shares.mark_eq_iff_readBy (hs : Shares kind h history) (hi : (grown h history)[i]? = some r)
    (hj : (grown h history)[j]? = some s) (hk : ReadBy h history i k) :
    s.mark = r.mark ↔ ReadBy h history j k := by
  constructor
  · intro hm
    have hsome : s.handler.content?.isSome = true := by
      rw [hs.marked.content_eq hj hi hm]
      exact (hs.isSome_iff hi).mpr ⟨k, hk⟩
    obtain ⟨l, hl⟩ := (hs.isSome_iff hj).mp hsome
    rwa [← (hs.mark_eq_iff hj hi hl hk).mp hm]
  · intro hj'
    exact (hs.mark_eq_iff hj hi hj' hk).mpr rfl

theorem ReadBy.exists_member (hi : ReadBy h history i k) : ∃ r, (grown h history)[i]? = some r :=
  ⟨_, List.getElem?_eq_getElem hi.lt_length⟩

theorem Shares.stagesAt_eq (hs : Shares kind h history) (hkind : kind.IsMergeable) (hi : ReadBy h history i k)
    (hj : ReadBy h history j k) : (grown h history).stagesAt i = (grown h history).stagesAt j := by
  obtain ⟨r, hr⟩ := hi.exists_member
  obtain ⟨s, hs'⟩ := hj.exists_member
  have hsame := (hs.marked.placed hs').kind_eq
  rw [stagesAt_of_member hr, stagesAt_of_member hs']
  apply congrArg some
  apply Handler.stages_congr (hsame ▸ hkind) ((hs.marked.placed hr).kind_eq.trans hsame.symm)
  exact hs.marked.content_eq hr hs' ((hs.mark_eq_iff hr hs' hi hj).mpr rfl)

/-- A merge into content changes the stages of those whose content was read by the same input. -/
theorem Shares.stagesAt_share (hs : Shares kind h history) (hkind : kind.IsMergeable) {c : Handler.Content}
    (hi : (grown h history)[i]? = some r) (hm : r.handler.merged v = .ok c) (hk : ReadBy h history i k) :
    (∀ j, ReadBy h history j k →
      ((grown h history).share r.mark c).stagesAt j = some (r.handler.withContent c).stages) ∧
    ∀ j, ¬ReadBy h history j k →
      ((grown h history).share r.mark c).stagesAt j = (grown h history).stagesAt j := by
  constructor
  · intro j hj
    obtain ⟨s, hs'⟩ := hj.exists_member
    rw [hs.marked.stagesAt_share hkind hi hm hs', if_pos ((hs.mark_eq_iff_readBy hi hs' hk).mpr hj)]
  · intro j hj
    cases hs' : (grown h history)[j]? with
    | none =>
      rw [stagesAt_of_none hs', stagesAt, getElem?_share, hs']
      rfl
    | some s =>
      rw [hs.marked.stagesAt_share hkind hi hm hs', if_neg]
      exact fun heq => hj ((hs.mark_eq_iff_readBy hi hs' hk).mp heq)

end Family

namespace SharedContents
open Family

variable {kind : HandlerKind} {settings : Document} {h : Handler}

/-- After a history, members whose content was read by the same input compile to the same stages. One more merge
gives all of these the stages of the merged content and leaves those of every other member; a merge that fails
leaves the whole family, and so does a further input. Any other input changes the stages of the member that takes
it, if it is read. All this is what handlers do that refer to their content in cells. -/
structure Sharing (kind : HandlerKind) (h : Handler) (history : List HandlerCall) : Prop where
  compiles {i : Nat} (hi : i < (grown h history).length) :
    ∃ stages, (grown h history).stagesAt i = some (.ok stages)
  unique {i k l : Nat} (hk : ReadBy h history i k) (hl : ReadBy h history i l) : k = l
  same {i j k : Nat} (hi : ReadBy h history i k) (hj : ReadBy h history j k) :
    (grown h history).stagesAt i = (grown h history).stagesAt j
  merged {i : Nat} {v : Value} (hanswer : ((grown h history).merge i v).answer = .ok ()) :
    ∃ k r c, ReadBy h history i k ∧ (grown h history)[i]? = some r ∧ r.handler.merged v = .ok c ∧
      (∀ j, ReadBy h history j k →
        ((grown h history).merge i v).state.stagesAt j = some (r.handler.withContent c).stages) ∧
      ∀ j, ¬ReadBy h history j k →
        ((grown h history).merge i v).state.stagesAt j = (grown h history).stagesAt j
  merge_failed {i : Nat} {v : Value} {e : Error} (hanswer : ((grown h history).merge i v).answer = .error e) :
    ((grown h history).merge i v).state = grown h history
  refused {i : Nat} (hb : InputBefore (fun _ => True) h history i) (v w : Value) :
    (grown h history).input i v w = ⟨.error (.inputReused kind.handlerName), grown h history⟩
  input_frame {i j : Nat} (hne : j ≠ i) (v w : Value) :
    ((grown h history).input i v w).state.stagesAt j = (grown h history).stagesAt j
  input_failed {i : Nat} {v w : Value} {e : Error}
    (hanswer : ((grown h history).input i v w).answer = .error e) (j : Nat) :
    ((grown h history).input i v w).state.stagesAt j = (grown h history).stagesAt j
  copied {i j : Nat} (hanswer : ((grown h history).copy i).answer = .ok j) :
    ((grown h history).copy i).state.stagesAt j = (grown h history).stagesAt i ∧
      ∀ l, l ≠ j → ((grown h history).copy i).state.stagesAt l = (grown h history).stagesAt l
  answered (c : HandlerCall) : ((grown h history).call c).answer = ((Cells.grown h history).call c).answer
  seen : (grown h history).map Relative.handler =
    (Cells.grown h history).holders.map (Cells.grown h history).seen

theorem contents_shared (hh : Handler.init kind settings = .ok h) (hkind : kind.IsMergeable)
    (history : List HandlerCall) : Sharing kind h history := by
  have hs := shares_of_init hh hkind history
  constructor
  case compiles =>
    intro i hi
    obtain ⟨r, hr⟩ : ∃ r, (grown h history)[i]? = some r := ⟨_, List.getElem?_eq_getElem hi⟩
    obtain ⟨stages, hstages⟩ := Handler.exists_stages ((hs.marked.placed hr).kind_eq ▸ hkind)
    exact ⟨stages, by rw [stagesAt_of_member hr, hstages]⟩
  case unique =>
    intro i k l hk hl
    obtain ⟨r, hr⟩ := hk.exists_member
    exact (hs.mark_eq_iff hr hr hk hl).mp rfl
  case same =>
    intro i j k hi hj
    exact hs.stagesAt_eq hkind hi hj
  case merged =>
    intro i v hanswer
    obtain ⟨r, c, hr, hm, hstate⟩ := merge_eq_ok hanswer
    obtain ⟨k, hk⟩ := (hs.isSome_iff hr).mp (Handler.merged_eq_ok hm).1
    rw [hstate]
    exact ⟨k, r, c, hk, hr, hm, hs.stagesAt_share hkind hr hm hk⟩
  case merge_failed =>
    intro i v e hanswer
    exact merge_of_error hanswer
  case refused =>
    intro i hb v w
    have hfits := (inputBefore_fits_iff (Or.inr fun _ v _ _ => hkind.fits v)).mpr hb
    exact (usedByInput_of_init hh history).refused hfits v w
  case input_frame =>
    intro i j hne v w
    exact stagesAt_input_of_ne hne v w
  case input_failed =>
    intro i v w e hanswer j
    exact hs.marked.stagesAt_input hkind hanswer j
  case copied =>
    intro i j hanswer
    exact stagesAt_copy hanswer
  case answered =>
    intro c
    exact (Cells.answers_alike hh hkind history).1 c
  case seen =>
    exact (Cells.answers_alike hh hkind history).2

/-- Copies of a sort before and after its input, the first with an input of its own, and a copy of the second. -/
def branching : List HandlerCall :=
  [.copy 2, .input 1 (.text "b") .null, .copy 0, .input 0 (.text "a") .null, .copy 0]

theorem contents_shared_branching : ∃ h, Handler.init .sort [] = .ok h ∧
    ReadBy h branching 0 1 ∧ ReadBy h branching 1 3 ∧ ReadBy h branching 3 1 ∧
    ((grown h branching).merge 3 (.text "c asc")).state.stagesAt 0 =
      some (.ok [.sort [("a", .descending), ("c", .ascending)]]) ∧
    ((grown h branching).merge 3 (.text "c asc")).state.stagesAt 1 = some (.ok [.sort [("b", .descending)]]) := by
  obtain ⟨h, hh⟩ : ∃ h, Handler.init .sort [] = .ok h := ⟨_, rfl⟩
  have hsharing := contents_shared hh (Or.inr rfl) branching
  cases hh
  have hread : ((grown (.sort .init) [.copy 0]).input 0 (.text "a") .null).answer = .ok () := by
    with_unfolding_all rfl
  have hfirst : ReadBy (.sort .init) branching 0 1 := .earlier (.earlier (.earlier (.read hread)))
  have hother : ReadBy (.sort .init) branching 1 3 := .earlier (.read (by with_unfolding_all rfl))
  have hlast : ReadBy (.sort .init) branching 3 1 := .inherited rfl (.earlier (.inherited rfl (.read hread)))
  have hmerge : ((grown (.sort .init) branching).merge 3 (.text "c asc")).answer = .ok () := by
    with_unfolding_all rfl
  obtain ⟨k, r, c, hk, hr, hm, hclass, hothers⟩ := hsharing.merged hmerge
  cases hsharing.unique hk hlast
  refine ⟨_, rfl, hfirst, hother, hlast, ?_, ?_⟩
  · rw [hclass 0 hfirst, ← hclass 3 hlast]
    with_unfolding_all rfl
  · rw [hothers 1 fun hsame => absurd (hsharing.unique hother hsame) (by decide)]
    with_unfolding_all rfl

end SharedContents
end GridQuery

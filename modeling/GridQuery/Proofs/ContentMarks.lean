import GridQuery.Proofs.HandlerHistories

/-! # Marks of contents

In a family of filters or of sorts, members that carry the same mark have the same content, and a member without
content is the only one to carry its mark. Every call keeps it so. -/
namespace GridQuery

namespace HandlerKind

/-- Later input can be merged into filters and sorts. -/
def IsMergeable (kind : HandlerKind) : Prop := kind = filter ∨ kind = sort

theorem IsMergeable.fits {kind : HandlerKind} (hk : kind.IsMergeable) (v : Value) : kind.Fits v := by
  intro hlimit
  rcases hk with hk | hk
  all_goals cases hk.symm.trans hlimit

end HandlerKind

namespace Handler

variable {g h : Handler} {v w : Value} {c : Content}

/-- The stages say no more than the content. -/
theorem stages_congr (hk : h.kind.IsMergeable) (hkind : g.kind = h.kind) (hc : g.content? = h.content?) :
    g.stages = h.stages := by
  rcases hk with hk | hk
  all_goals
    cases h <;> cases hk
    cases g <;> cases hkind
  · rename_i x y
    have hes : y.expressions = x.expressions :=
      Option.map_injective (fun _ _ => Content.expressions.inj) hc
    simp only [stages, FilterHandler.stages, hes]
  · rename_i x y
    have hspec : y.spec = x.spec := Option.map_injective (fun _ _ => Content.spec.inj) hc
    simp only [stages, SortHandler.stages, hspec]

theorem exists_stages (hk : h.kind.IsMergeable) : ∃ stages, h.stages = .ok stages := by
  rcases hk with hk | hk
  all_goals
    cases h <;> cases hk
    exact ⟨_, rfl⟩

/-- A merge needs content to merge into, and makes content that all handlers of the kind can take. -/
theorem merged_eq_ok (hm : h.merged v = .ok c) :
    h.content?.isSome = true ∧ ∀ g : Handler, g.kind = h.kind → (g.withContent c).content? = some c := by
  cases h with
  | filter x =>
    obtain ⟨es, hes, rfl⟩ := map_eq_ok_iff.mp hm
    constructor
    · cases hx : x.expressions with
      | none => simp [FilterHandler.merged, hx] at hes
      | some old => simp [content?, hx]
    · intro g hg
      cases g <;> cases hg
      rfl
  | sort x =>
    obtain ⟨spec, hspec, rfl⟩ := map_eq_ok_iff.mp hm
    constructor
    · cases hx : x.spec with
      | none => simp [SortHandler.merged, hx] at hspec
      | some old => simp [content?, hx]
    · intro g hg
      cases g <;> cases hg
      rfl
  | _ => cases hm

/-- An input is read into content by a handler that had none, or leaves the content as it is. -/
inductive Reads (h : Handler) : Reply Handler Unit → Prop
  | read {g : Handler} (hkind : g.kind = h.kind) (hr : g.intake.received = true)
      (hfresh : h.intake.received = false) (hc : g.content?.isSome = true) : Reads h ⟨.ok (), g⟩
  | unread {g : Handler} {e : Error} (hkind : g.kind = h.kind) (hr : g.intake.received = true)
      (hc : g.content? = h.content?) : Reads h ⟨.error e, g⟩

theorem reads_input (hk : h.kind.IsMergeable) (v w : Value) : h.Reads (h.input v w) := by
  cases hr : h.intake.received with
  | true =>
    rw [input_of_received hr]
    exact .unread rfl hr rfl
  | false =>
    have ht := takes_of_fresh hr (hk.fits v) w
    generalize h.input v w = out at ht
    cases ht with
    | read hkind hreceived hc => exact .read hkind hreceived hr (hc hk)
    | unread hkind hreceived hc _ => exact .unread hkind hreceived hc

end Handler

namespace Family

variable {kind : HandlerKind} {f : Family} {i j : Nat} {r s : Relative}

/-! ## Marks -/

/-- A member of the given kind at its place: without content it carries its own number as its mark. -/
structure Placed (kind : HandlerKind) (i : Nat) (r : Relative) : Prop where
  kind_eq : r.handler.kind = kind
  received : r.handler.content?.isSome = true → r.handler.intake.received = true
  mark_le : r.mark ≤ i
  own : r.handler.content? = none → r.mark = i

theorem Placed.content_of_fresh (hr : Placed kind i r) (hfresh : r.handler.intake.received = false) :
    r.handler.content? = none := by
  by_contra hsome
  rw [hr.received (Option.isSome_iff_ne_none.mpr hsome)] at hfresh
  cases hfresh

/-- Members with one mark have one content. -/
structure Marked (kind : HandlerKind) (f : Family) : Prop where
  placed {i : Nat} {r : Relative} (hi : f[i]? = some r) : Placed kind i r
  content_eq {i j : Nat} {r s : Relative} (hi : f[i]? = some r) (hj : f[j]? = some s) (hm : r.mark = s.mark) :
    r.handler.content? = s.handler.content?

theorem marked_single {h : Handler} {settings : Document} (hh : Handler.init kind settings = .ok h) :
    Marked kind (single h) := by
  obtain ⟨hkind, _, hc⟩ := Handler.init_eq_ok hh
  constructor
  · intro i r hi
    obtain ⟨rfl, rfl⟩ := member_single hi
    exact ⟨hkind, by simp [hc], Nat.le_refl 0, fun _ => rfl⟩
  · intro i j r s hi hj _
    obtain ⟨rfl, rfl⟩ := member_single hi
    obtain ⟨rfl, rfl⟩ := member_single hj
    rfl

/-- Nobody else carries the mark of a member without content. -/
theorem Marked.alone (hf : Marked kind f) (hi : f[i]? = some r) (hc : r.handler.content? = none)
    (hj : f[j]? = some s) (hm : s.mark = r.mark) : j = i := by
  have hnone : s.handler.content? = none := (hf.content_eq hj hi hm).trans hc
  rw [← (hf.placed hj).own hnone, ← (hf.placed hi).own hc, hm]

theorem Marked.copy (hf : Marked kind f) (hj : f[j]? = some s) : Marked kind (f.copy j).state := by
  rw [copy_of_member hj]
  have hs := hf.placed hj
  have hlt := lt_length_of_member hj
  -- The mark of the copy is the original's, or nobody's yet.
  have hshared {i : Nat} {r : Relative} (hi : f[i]? = some r) (hm : r.mark = f.markOfCopy s) :
      r.handler.content? = s.handler.content? := by
    unfold markOfCopy at hm
    split at hm
    · exact hf.content_eq hi hj hm
    · have hle := (hf.placed hi).mark_le
      have hi := lt_length_of_member hi
      omega
  constructor
  · intro i r hi
    rcases member_append_one hi with hi | ⟨rfl, rfl⟩
    · exact hf.placed hi
    · refine ⟨hs.kind_eq, hs.received, ?_, ?_⟩
      · have hle := hs.mark_le
        simp only [markOfCopy]
        split <;> omega
      · intro hnone
        simp only [markOfCopy, hnone]
        rfl
  · intro i i' r r' hi hi' hm
    rcases member_append_one hi with hi | ⟨rfl, rfl⟩ <;>
      rcases member_append_one hi' with hi' | ⟨rfl, rfl⟩
    · exact hf.content_eq hi hi' hm
    · exact hshared hi hm
    · exact (hshared hi' hm.symm).symm
    · rfl

/-- A handler takes the place of another one, with the same content or in the place of none. -/
theorem Marked.set {g : Handler} (hf : Marked kind f) (hj : f[j]? = some s) (hkind : g.kind = kind)
    (hr : g.intake.received = true)
    (hc : g.content? = s.handler.content? ∨ s.handler.content? = none ∧ g.content?.isSome = true) :
    Marked kind (f.set j { s with handler := g }) := by
  have hshared {i : Nat} {r : Relative} (hne : i ≠ j) (hi : f[i]? = some r) (hm : r.mark = s.mark) :
      r.handler.content? = g.content? := by
    rcases hc with hsame | ⟨hnone, _⟩
    · rw [hsame]
      exact hf.content_eq hi hj hm
    · exact absurd (hf.alone hj hnone hi hm) hne
  constructor
  · intro i r hi
    rcases member_set hj hi with ⟨_, hi⟩ | ⟨rfl, rfl⟩
    · exact hf.placed hi
    · have hs := hf.placed hj
      refine ⟨hkind, fun _ => hr, hs.mark_le, fun hnone => hs.own ?_⟩
      rcases hc with hsame | ⟨hold, _⟩
      · exact hsame.symm.trans hnone
      · exact hold
  · intro i i' r r' hi hi' hm
    rcases member_set hj hi with ⟨hne, hi⟩ | ⟨_, rfl⟩ <;>
      rcases member_set hj hi' with ⟨hne', hi'⟩ | ⟨_, rfl⟩
    · exact hf.content_eq hi hi' hm
    · exact hshared hne hi hm
    · exact (hshared hne' hi' hm.symm).symm
    · rfl

theorem Marked.input (hf : Marked kind f) (hk : kind.IsMergeable) (hj : f[j]? = some s) (v w : Value) :
    Marked kind (f.input j v w).state := by
  have hs := hf.placed hj
  have hreads := s.handler.reads_input (hs.kind_eq ▸ hk) v w
  rw [input_of_member hj, Reply.state_within]
  generalize s.handler.input v w = out at hreads
  cases hreads with
  | read hkind hr hfresh hc =>
    exact hf.set hj (hkind.trans hs.kind_eq) hr (Or.inr ⟨hs.content_of_fresh hfresh, hc⟩)
  | unread hkind hr hc => exact hf.set hj (hkind.trans hs.kind_eq) hr (Or.inl hc)

/-- Content that all handlers of the kind can take is shared under the mark of a member that has content. -/
theorem Marked.share {c : Handler.Content} (hf : Marked kind f) (hj : f[j]? = some s)
    (hsome : s.handler.content?.isSome = true)
    (hc : ∀ g : Handler, g.kind = kind → (g.withContent c).content? = some c) :
    Marked kind (f.share s.mark c) := by
  constructor
  · intro i r hi
    rcases member_share hi with ⟨_, hi⟩ | ⟨old, hold, hm, rfl⟩
    · exact hf.placed hi
    · have hs := hf.placed hold
      refine ⟨?_, fun _ => ?_, hm ▸ hs.mark_le, fun hnone => ?_⟩
      · rw [Handler.kind_withContent, hs.kind_eq]
      · rw [Handler.intake_withContent]
        apply hs.received
        rwa [hf.content_eq hold hj hm]
      · rw [hc _ hs.kind_eq] at hnone
        cases hnone
  · intro i i' r r' hi hi' hm
    rcases member_share hi with ⟨hne, hi⟩ | ⟨old, hold, heq, rfl⟩ <;>
      rcases member_share hi' with ⟨hne', hi'⟩ | ⟨old', hold', heq', rfl⟩
    · exact hf.content_eq hi hi' hm
    · exact absurd hm hne
    · exact absurd hm.symm hne'
    · rw [hc _ (hf.placed hold).kind_eq, hc _ (hf.placed hold').kind_eq]

theorem Marked.merge (hf : Marked kind f) (hj : f[j]? = some s) (v : Value) :
    Marked kind (f.merge j v).state := by
  rw [merge_of_member hj]
  cases hm : s.handler.merged v with
  | error e => exact hf
  | ok c =>
    obtain ⟨hsome, hc⟩ := Handler.merged_eq_ok hm
    rw [(hf.placed hj).kind_eq] at hc
    exact hf.share hj hsome hc

theorem Marked.call (hf : Marked kind f) (hk : kind.IsMergeable) (c : HandlerCall) :
    Marked kind (f.call c).state := by
  cases hc : f[c.member]? with
  | none =>
    rw [call_of_none hc]
    exact hf
  | some s =>
    cases c with
    | copy j => exact hf.copy hc
    | input j v w => exact hf.input hk hc v w
    | merge j v => exact hf.merge hc v

theorem marked_grown {h : Handler} {settings : Document} (hh : Handler.init kind settings = .ok h)
    (hk : kind.IsMergeable) (history : List HandlerCall) : Marked kind (grown h history) := by
  induction history with
  | nil => exact marked_single hh
  | cons c history ih => exact ih.call hk c

end Family
end GridQuery

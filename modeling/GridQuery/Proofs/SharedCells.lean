import GridQuery.Proofs.ContentMarks

/-! # Shared cells

A family of filters or of sorts is what handlers make of it that refer to cells with their content. A copy takes
over the reference, content that is read goes into a new cell, and a merge changes a cell in place. -/
namespace GridQuery

namespace Handler

variable {g : Handler} {c d : Content}

theorem withContent_self (hc : g.content? = some c) : g.withContent c = g := by
  cases g with
  | filter x =>
    obtain ⟨es, hes, rfl⟩ := Option.map_eq_some_iff.mp hc
    simp only [withContent, ← hes]
  | sort x =>
    obtain ⟨spec, hspec, rfl⟩ := Option.map_eq_some_iff.mp hc
    simp only [withContent, ← hspec]
  | _ => cases hc

theorem withContent_withContent (hd : (g.withContent d).content? = some d) :
    (g.withContent c).withContent d = g.withContent d := by
  cases g <;> cases d <;> cases c <;> first | rfl | simp_all [withContent, content?]

end Handler

/-- A handler, and the cell that its content is in once it has any. -/
structure Holder where
  handler : Handler
  cell : Option Nat

structure Cells where
  contents : List Handler.Content
  holders : List Holder

namespace Cells

/-- The handler of a holder with the content that is in its cell by now. -/
def seen (s : Cells) (o : Holder) : Handler :=
  match o.cell.bind fun a => s.contents[a]? with
  | none => o.handler
  | some c => o.handler.withContent c

def single (h : Handler) : Cells := ⟨[], [⟨h, none⟩]⟩

def copy (s : Cells) (i : Nat) : Reply Cells Nat :=
  match s.holders[i]? with
  | none => ⟨.error .shape, s⟩
  | some o => ⟨.ok s.holders.length, { s with holders := s.holders ++ [o] }⟩

/-- Puts a handler back after an input, with new content in a new cell. -/
def settle (s : Cells) (i : Nat) (o : Holder) (out : Reply Handler Unit) : Reply Cells Unit :=
  match out.answer, out.state.content? with
  | .ok (), some c =>
    ⟨.ok (), ⟨s.contents ++ [c], s.holders.set i ⟨out.state, some s.contents.length⟩⟩⟩
  | answer, _ => ⟨answer, { s with holders := s.holders.set i ⟨out.state, o.cell⟩ }⟩

def input (s : Cells) (i : Nat) (v w : Value) : Reply Cells Unit :=
  match s.holders[i]? with
  | none => ⟨.error .shape, s⟩
  | some o => s.settle i o ((s.seen o).input v w)

/-- Changes the content of a cell in place. -/
def merge (s : Cells) (i : Nat) (v : Value) : Reply Cells Unit :=
  match s.holders[i]? with
  | none => ⟨.error .shape, s⟩
  | some o =>
    match (s.seen o).merged v, o.cell with
    | .error e, _ => ⟨.error e, s⟩
    | .ok _, none => ⟨.error .shape, s⟩
    | .ok c, some a => ⟨.ok (), { s with contents := s.contents.set a c }⟩

def call (s : Cells) : HandlerCall → Reply Cells Unit
  | .copy i => (s.copy i).map fun _ => ()
  | .input i v w => s.input i v w
  | .merge i v => s.merge i v

/-- The cells and holders that a handler grows into; the calls are given with the last one first. -/
def grown (h : Handler) : List HandlerCall → Cells
  | [] => single h
  | c :: history => ((grown h history).call c).state

/-! ## Holders and members -/

/-- A holder shows a member. -/
inductive Shows (s : Cells) (r : Relative) : Holder → Prop
  | without (hc : r.handler.content? = none) : Shows s r ⟨r.handler, none⟩
  | within {g : Handler} {a : Nat} {c : Handler.Content} (ha : s.contents[a]? = some c)
      (hc : r.handler.content? = some c) (hg : g.withContent c = r.handler) : Shows s r ⟨g, some a⟩

/-- Holders show the members of a family, and have one cell iff the members have one mark. -/
structure Refers (f : Family) (s : Cells) : Prop where
  length_eq : f.length = s.holders.length
  shows {i : Nat} {r : Relative} {o : Holder} (hi : f[i]? = some r) (ho : s.holders[i]? = some o) : Shows s r o
  cell_eq_iff {i j a b : Nat} {r t : Relative} {o p : Holder} (hi : f[i]? = some r) (hj : f[j]? = some t)
    (ho : s.holders[i]? = some o) (hp : s.holders[j]? = some p) (ha : o.cell = some a) (hb : p.cell = some b) :
    a = b ↔ r.mark = t.mark

variable {f : Family} {s : Cells} {i : Nat} {r : Relative} {o : Holder}

theorem Shows.seen_eq (hs : Shows s r o) : s.seen o = r.handler := by
  cases hs with
  | without hc => rfl
  | within ha hc hg => simp only [seen, Option.bind_some, ha, hg]

theorem Shows.exists_cell (hs : Shows s r o) (hsome : r.handler.content?.isSome = true) :
    ∃ a, o.cell = some a := by
  cases hs with
  | without hnone =>
    rw [hnone] at hsome
    cases hsome
  | within _ _ _ => exact ⟨_, rfl⟩

theorem Shows.isSome_content (hs : Shows s r o) {a : Nat} (ha : o.cell = some a) :
    r.handler.content?.isSome = true := by
  cases hs with
  | without _ => cases ha
  | within _ hc _ => rw [hc]; rfl

theorem Shows.cell_lt (hs : Shows s r o) {a : Nat} (ha : o.cell = some a) : a < s.contents.length := by
  cases hs with
  | without _ => cases ha
  | within hcontent _ _ =>
    cases ha
    exact lt_length_of_member hcontent

/-- What a holder shows depends on the handler and on the contents that are kept. -/
theorem Shows.keep {t : Cells} {u : Relative} (hs : Shows s r o) (hu : u.handler = r.handler)
    (hkeep : ∀ a c, o.cell = some a → s.contents[a]? = some c → t.contents[a]? = some c) : Shows t u o := by
  cases hs with
  | without hc =>
    rw [← hu] at hc ⊢
    exact .without hc
  | within ha hc hg =>
    rw [← hu] at hc hg
    exact .within (hkeep _ _ rfl ha) hc hg

theorem Refers.exists_holder (hs : Refers f s) (hi : f[i]? = some r) :
    ∃ o, s.holders[i]? = some o ∧ Shows s r o := by
  have hlt : i < s.holders.length := hs.length_eq ▸ lt_length_of_member hi
  exact ⟨_, List.getElem?_eq_getElem hlt, hs.shows hi (List.getElem?_eq_getElem hlt)⟩

theorem Refers.no_holder (hs : Refers f s) (hi : f[i]? = none) : s.holders[i]? = none := by
  rw [List.getElem?_eq_none_iff] at hi ⊢
  rwa [← hs.length_eq]

/-! ## Calls -/

section
variable {α β : Type} {l : List α} {m : List β} {x y : α} {u z : β} {j : Nat}

theorem members_append_one (hlength : l.length = m.length) (hi : (l ++ [x])[i]? = some y)
    (hj : (m ++ [u])[i]? = some z) : l[i]? = some y ∧ m[i]? = some z ∨ i = l.length ∧ y = x ∧ z = u := by
  rw [getElem?_append_one] at hi hj
  rw [← hlength] at hj
  split at hi
  · rename_i heq
    rw [if_pos heq] at hj
    exact Or.inr ⟨heq, (Option.some.inj hi).symm, (Option.some.inj hj).symm⟩
  · rename_i hne
    rw [if_neg hne] at hj
    exact Or.inl ⟨hi, hj⟩

theorem members_set {x' : α} {u' : β} (hx : l[j]? = some x') (hu : m[j]? = some u')
    (hi : (l.set j x)[i]? = some y) (hj : (m.set j u)[i]? = some z) :
    i ≠ j ∧ l[i]? = some y ∧ m[i]? = some z ∨ i = j ∧ y = x ∧ z = u := by
  rw [getElem?_set_member hx] at hi
  rw [getElem?_set_member hu] at hj
  split at hi
  · rename_i heq
    rw [if_pos heq] at hj
    exact Or.inr ⟨heq, (Option.some.inj hi).symm, (Option.some.inj hj).symm⟩
  · rename_i hne
    rw [if_neg hne] at hj
    exact Or.inl ⟨hne, hi, hj⟩

end

variable {kind : HandlerKind} {j : Nat} {v w : Value} {t : Cells} {g : Family}

/-- Cells keep agreeing with marks if all content is from before, in the same cell and under the same mark. -/
theorem Refers.of_prior (hs : Refers f s) (hlength : g.length = t.holders.length)
    (hshows : ∀ (i : Nat) r o, g[i]? = some r → t.holders[i]? = some o → Shows t r o)
    (hprior : ∀ (i : Nat) (r : Relative) (o : Holder) a, g[i]? = some r → t.holders[i]? = some o →
      o.cell = some a → ∃ (i₀ : Nat) (r₀ : Relative) (o₀ : Holder), f[i₀]? = some r₀ ∧
        s.holders[i₀]? = some o₀ ∧ o₀.cell = some a ∧ r₀.mark = r.mark) :
    Refers g t := by
  refine ⟨hlength, fun hi ho => hshows _ _ _ hi ho, ?_⟩
  intro i j a b r u o p hi hj ho hp ha hb
  obtain ⟨i₀, r₀, o₀, hi₀, ho₀, ha₀, hr⟩ := hprior i r o a hi ho ha
  obtain ⟨j₀, u₀, p₀, hj₀, hp₀, hb₀, hu⟩ := hprior j u p b hj hp hb
  rw [← hr, ← hu]
  exact hs.cell_eq_iff hi₀ hj₀ ho₀ hp₀ ha₀ hb₀

theorem refers_single {h : Handler} (hc : h.content? = none) : Refers (Family.single h) (single h) := by
  have hholder {i : Nat} {r : Relative} {o : Holder} (hi : (Family.single h)[i]? = some r)
      (ho : (single h).holders[i]? = some o) : r = ⟨0, h⟩ ∧ o = ⟨h, none⟩ := by
    obtain ⟨rfl, rfl⟩ := Family.member_single hi
    exact ⟨rfl, (Option.some.inj ho).symm⟩
  refine ⟨rfl, ?_, ?_⟩
  · intro i r o hi ho
    obtain ⟨rfl, rfl⟩ := hholder hi ho
    exact .without hc
  · intro i j a b r u o p hi _ ho _ ha
    obtain ⟨rfl, rfl⟩ := hholder hi ho
    cases ha

theorem Refers.copy (hs : Refers f s) (hi : f[i]? = some r) :
    (f.copy i).answer = (s.copy i).answer ∧ Refers (f.copy i).state (s.copy i).state := by
  obtain ⟨o, ho, hshows⟩ := hs.exists_holder hi
  simp only [Family.copy_of_member hi, Cells.copy, ho, hs.length_eq, true_and]
  apply hs.of_prior
  · simp [hs.length_eq]
  · intro k r' o' hr hp
    rcases members_append_one hs.length_eq hr hp with ⟨hr, hp⟩ | ⟨_, rfl, rfl⟩
    · exact (hs.shows hr hp).keep rfl fun _ _ _ hc => hc
    · exact hshows.keep rfl fun _ _ _ hc => hc
  · intro k r' o' a hr hp ha
    rcases members_append_one hs.length_eq hr hp with ⟨hr, hp⟩ | ⟨_, rfl, rfl⟩
    · exact ⟨k, r', o', hr, hp, ha, rfl⟩
    · exact ⟨i, r, o', hi, ho, ha, by simp only [Family.markOfCopy, hshows.isSome_content ha, if_true]⟩

/-- An input that is not read leaves the cells. -/
theorem Refers.unread {h : Handler} (hs : Refers f s) (hi : f[i]? = some r) (ho : s.holders[i]? = some o)
    (hc : h.content? = r.handler.content?) :
    Refers (f.set i { r with handler := h }) { s with holders := s.holders.set i ⟨h, o.cell⟩ } := by
  apply hs.of_prior
  · simp [hs.length_eq]
  · intro j r' o' hj hp
    rcases members_set hi ho hj hp with ⟨_, hj, hp⟩ | ⟨_, rfl, rfl⟩
    · exact (hs.shows hj hp).keep rfl fun _ _ _ hc => hc
    · cases hs.shows hi ho with
      | without hnone => exact .without (hc.trans hnone)
      | within ha hsome _ =>
        have hown := hc.trans hsome
        exact .within ha hown (Handler.withContent_self hown)
  · intro j r' o' a hj hp ha
    rcases members_set hi ho hj hp with ⟨_, hj, hp⟩ | ⟨_, rfl, rfl⟩
    · exact ⟨j, r', o', hj, hp, ha, rfl⟩
    · exact ⟨i, r, o, hi, ho, ha, rfl⟩

/-- Content that is read goes into a cell that nobody else refers to, under a mark that nobody else carries. -/
theorem Refers.read {h : Handler} {c : Handler.Content} (hf : Family.Marked kind f) (hs : Refers f s)
    (hi : f[i]? = some r) (ho : s.holders[i]? = some o) (hnone : r.handler.content? = none)
    (hc : h.content? = some c) : Refers (f.set i { r with handler := h })
      ⟨s.contents ++ [c], s.holders.set i ⟨h, some s.contents.length⟩⟩ := by
  have hkeep {a : Nat} {d : Handler.Content} (ha : s.contents[a]? = some d) :
      (s.contents ++ [c])[a]? = some d := by
    rw [List.getElem?_append_left (lt_length_of_member ha), ha]
  -- What others refer to was there before, so the new cell is nobody else's, like the mark.
  have hapart {j a : Nat} {u : Relative} {p : Holder} (hne : j ≠ i) (hj : f[j]? = some u)
      (hp : s.holders[j]? = some p) (ha : p.cell = some a) : a ≠ s.contents.length ∧ u.mark ≠ r.mark :=
    ⟨Nat.ne_of_lt ((hs.shows hj hp).cell_lt ha), fun hm => hne (hf.alone hi hnone hj hm)⟩
  refine ⟨by simp [hs.length_eq], ?_, ?_⟩
  · intro j r' o' hj hp
    rcases members_set hi ho hj hp with ⟨_, hj, hp⟩ | ⟨_, rfl, rfl⟩
    · exact (hs.shows hj hp).keep rfl fun _ _ _ hd => hkeep hd
    · exact .within (by simp) hc (Handler.withContent_self hc)
  · intro j k a b r' u o' p hj hk hp hq ha hb
    rcases members_set hi ho hj hp with ⟨hne, hj, hp⟩ | ⟨_, rfl, rfl⟩ <;>
      rcases members_set hi ho hk hq with ⟨hne', hk, hq⟩ | ⟨_, rfl, rfl⟩
    · exact hs.cell_eq_iff hj hk hp hq ha hb
    · obtain ⟨hcell, hmark⟩ := hapart hne hj hp ha
      cases hb
      exact iff_of_false hcell hmark
    · obtain ⟨hcell, hmark⟩ := hapart hne' hk hq hb
      cases ha
      exact iff_of_false hcell.symm hmark.symm
    · cases ha
      cases hb
      exact iff_of_true rfl rfl

theorem Refers.input (hf : Family.Marked kind f) (hkind : kind.IsMergeable) (hs : Refers f s)
    (hi : f[i]? = some r) (v w : Value) :
    (f.input i v w).answer = (s.input i v w).answer ∧ Refers (f.input i v w).state (s.input i v w).state := by
  obtain ⟨o, ho, hshows⟩ := hs.exists_holder hi
  have hr := hf.placed hi
  have hreads := r.handler.reads_input (hr.kind_eq ▸ hkind) v w
  simp only [Family.input_of_member hi, Cells.input, ho, hshows.seen_eq, Reply.answer_within,
    Reply.state_within]
  generalize r.handler.input v w = out at hreads
  cases hreads with
  | unread _ _ hc => exact ⟨rfl, hs.unread hi ho hc⟩
  | read _ _ hfresh hc =>
    obtain ⟨c, hc⟩ := Option.isSome_iff_exists.mp hc
    simp only [settle, hc, true_and]
    exact hs.read hf hi ho (hr.content_of_fresh hfresh) hc

/-- A change in place is seen by those who carry the mark of the member that it is made through. -/
theorem Refers.set {a : Nat} {c : Handler.Content} (hf : Family.Marked kind f) (hs : Refers f s)
    (hi : f[i]? = some r) (ho : s.holders[i]? = some o) (ha : o.cell = some a)
    (hc : ∀ g : Handler, g.kind = kind → (g.withContent c).content? = some c) :
    Refers (f.share r.mark c) { s with contents := s.contents.set a c } := by
  have hlt : a < s.contents.length := (hs.shows hi ho).cell_lt ha
  apply hs.of_prior
  · simp [Family.share, hs.length_eq]
  · intro j u p hj hp
    rcases Family.member_share hj with ⟨hne, hj⟩ | ⟨old, hold, hm, rfl⟩
    · refine (hs.shows hj hp).keep rfl fun b d hb hd => ?_
      have hother : a ≠ b := fun heq => hne ((hs.cell_eq_iff hj hi hp ho hb ha).mp heq.symm)
      rw [List.getElem?_set_ne hother, hd]
    · have hshows := hs.shows hold hp
      have hkind := (hf.placed hold).kind_eq
      have hnew : (⟨r.mark, old.handler.withContent c⟩ : Relative).handler.content? = some c := hc _ hkind
      cases hshows with
      | without hnone =>
        have hsome := (hs.shows hi ho).isSome_content ha
        rw [hf.content_eq hi hold hm.symm, hnone] at hsome
        cases hsome
      | @within g b d hb hd hg =>
        cases (hs.cell_eq_iff hold hi hp ho rfl ha).mpr hm
        refine .within (by simp [hlt]) hnew ?_
        rw [← hg] at hkind ⊢
        rw [Handler.kind_withContent] at hkind
        exact (Handler.withContent_withContent (hc g hkind)).symm
  · intro j u p b hj hp hb
    rcases Family.member_share hj with ⟨_, hj⟩ | ⟨old, hold, hm, rfl⟩
    · exact ⟨j, u, p, hj, hp, hb, rfl⟩
    · exact ⟨j, old, p, hold, hp, hb, hm⟩

theorem Refers.merge (hf : Family.Marked kind f) (hs : Refers f s) (hi : f[i]? = some r) (v : Value) :
    (f.merge i v).answer = (s.merge i v).answer ∧ Refers (f.merge i v).state (s.merge i v).state := by
  obtain ⟨o, ho, hshows⟩ := hs.exists_holder hi
  simp only [Family.merge_of_member hi, Cells.merge, ho, hshows.seen_eq]
  cases hm : r.handler.merged v with
  | error e => exact ⟨rfl, hs⟩
  | ok c =>
    obtain ⟨hsome, hc⟩ := Handler.merged_eq_ok hm
    rw [(hf.placed hi).kind_eq] at hc
    obtain ⟨a, ha⟩ := hshows.exists_cell hsome
    simp only [ha, true_and]
    exact hs.set hf hi ho ha hc

theorem call_of_none {c : HandlerCall} (hc : s.holders[c.member]? = none) : s.call c = ⟨.error .shape, s⟩ := by
  cases c with
  | copy i =>
    have ho : s.holders[i]? = none := hc
    simp only [call, Cells.copy, ho]
    rfl
  | input i v w =>
    have ho : s.holders[i]? = none := hc
    simp only [call, Cells.input, ho]
  | merge i v =>
    have ho : s.holders[i]? = none := hc
    simp only [call, Cells.merge, ho]

/-- A call answers alike on a family and on the cells that it refers to, and the two go on alike. -/
theorem Refers.call (hf : Family.Marked kind f) (hkind : kind.IsMergeable) (hs : Refers f s) (c : HandlerCall) :
    (f.call c).answer = (s.call c).answer ∧ Refers (f.call c).state (s.call c).state := by
  cases hc : f[c.member]? with
  | none =>
    rw [Family.call_of_none hc, call_of_none (hs.no_holder hc)]
    exact ⟨rfl, hs⟩
  | some r =>
    cases c with
    | copy i =>
      obtain ⟨hanswer, hstate⟩ := hs.copy hc
      exact ⟨congrArg (Except.map fun _ => ()) hanswer, hstate⟩
    | input i v w => exact hs.input hf hkind hc v w
    | merge i v => exact hs.merge hf hc v

theorem refers_grown {h : Handler} {settings : Document} (hh : Handler.init kind settings = .ok h)
    (hkind : kind.IsMergeable) (history : List HandlerCall) :
    Refers (Family.grown h history) (grown h history) := by
  induction history with
  | nil => exact refers_single (Handler.init_eq_ok hh).2.2
  | cons c history ih => exact (ih.call (Family.marked_grown hh hkind history) hkind c).2

/-- Along every history, a family answers as handlers do that refer to cells, and its members are what they show. -/
theorem answers_alike {h : Handler} {settings : Document} (hh : Handler.init kind settings = .ok h)
    (hkind : kind.IsMergeable) (history : List HandlerCall) :
    (∀ c, ((Family.grown h history).call c).answer = ((grown h history).call c).answer) ∧
    (Family.grown h history).map Relative.handler = (grown h history).holders.map (grown h history).seen := by
  have hs := refers_grown hh hkind history
  constructor
  · intro c
    exact (hs.call (Family.marked_grown hh hkind history) hkind c).1
  · apply List.ext_getElem?
    intro i
    rw [List.getElem?_map, List.getElem?_map]
    cases hi : (Family.grown h history)[i]? with
    | none => rw [hs.no_holder hi]; rfl
    | some r =>
      obtain ⟨o, ho, hshows⟩ := hs.exists_holder hi
      rw [ho, Option.map_some, Option.map_some, hshows.seen_eq]

end Cells
end GridQuery

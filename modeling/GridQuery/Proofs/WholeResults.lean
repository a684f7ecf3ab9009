import Mathlib.Data.List.Induction
import GridQuery.Proofs.PageAccesses

/-! # Results that are taken as a whole

A counted page takes the documents of a result before it looks for the total. It stays whole as long as the
total is there wherever the documents are: then a page that is shown has its total, and a failure leaves
nothing behind. A result with documents and without a total leaves it half executed, and a page is shown
that has no total. -/
namespace GridQuery

/-- A value that no list of documents can be made of. -/
def Value.isAtom : Value → Bool
  | null | bool _ | int _ | double _ | date _ | objectId _ => true
  | _ => false

namespace WholeResults
open CountedPage

/-- Whatever is asked for, a page that is shown has an integer for its total, which the count gives again
without a call, and what fails leaves the counted page as it was made. -/
def StaysWhole (c : CountedPage) (s : Store) : Prop :=
  ∀ accesses, let t := PageSession.after (c, s) accesses
    (∀ page u, t.ask .page = ⟨.ok (.page page), u⟩ →
      ∃ n, page.total = .int n ∧ u.ask .count = ⟨.ok (.count (.int n)), u⟩) ∧
    ∀ part e u, t.ask part = ⟨.error e, u⟩ → u.1 = { c with collection := t.1.collection }

/-- Where the documents of a result can be taken, because their branch is missing or empty or holds some, the
branch that counts stands for a total. -/
def IsBalanced (dataBranch countBranch countField v : Value) : Prop :=
  ∀ fields, v.IsTakenFor fields →
    ((branch fields dataBranch).truthy = true ∧ (branch fields dataBranch).isAtom = true) ∨
      ∃ n, CountsTo countField (branch fields countBranch) n

theorem isOk_itemsOf_iff {v : Value} : (∃ items, itemsOf v = .ok items) ↔ v.isAtom = false := by
  cases v <;> simp [itemsOf, Value.isAtom]

theorem unwrap_of_other {c : CountedPage} {v : Value} (h : ∀ fields, ¬v.IsTakenFor fields) :
    c.unwrap v = ⟨.error .shape, c⟩ := by
  unfold unwrap
  split
  · rename_i fields hv
    exact absurd (Value.isTakenFor_iff.mpr hv) (h fields)
  · rfl

variable {c : CountedPage} {s : Store}

/-! ## What becomes of one result -/

/-- A balanced result is taken as a whole, or not at all. -/
theorem unwrap_of_balanced (hd : isKey c.dataBranch = true) (hc : isKey c.countBranch = true) {v : Value}
    (h : IsBalanced c.dataBranch c.countBranch c.countField v) :
    (∃ e, c.unwrap v = ⟨.error e, c⟩) ∨
      ∃ data n, c.unwrap v = ⟨.ok (), { c with data := some data, total := .int n }⟩ := by
  by_cases hv : ∃ fields, v.IsTakenFor fields
  · obtain ⟨fields, hfields⟩ := hv
    rw [unwrap_eq hd hc hfields]
    cases hitems : if (branch fields c.dataBranch).truthy then itemsOf (branch fields c.dataBranch)
      else .ok [] with
    | error e => exact Or.inl ⟨e, rfl⟩
    | ok data =>
      rcases h fields hfields with ⟨htruthy, hatom⟩ | ⟨n, hn⟩
      · rw [if_pos htruthy] at hitems
        rw [isOk_itemsOf_iff.mp ⟨data, hitems⟩] at hatom
        cases hatom
      · rw [totalOf_eq_int_iff.mpr hn]
        exact Or.inr ⟨data, n, rfl⟩
  · have hv : ∀ fields, ¬v.IsTakenFor fields := fun fields hfields => hv ⟨fields, hfields⟩
    exact Or.inl ⟨_, unwrap_of_other hv⟩

/-- Any other result leaves its documents behind: alone if no total can be found, or beside a total that is
not an integer. -/
theorem unwrap_of_unbalanced (hd : isKey c.dataBranch = true) (hc : isKey c.countBranch = true) {v : Value}
    (h : ¬IsBalanced c.dataBranch c.countBranch c.countField v) :
    ∃ data, (∃ e, c.unwrap v = ⟨.error e, { c with data := some data }⟩) ∨
      ∃ total, c.unwrap v = ⟨.ok (), { c with data := some data, total := total }⟩ ∧ ∀ n, total ≠ .int n := by
  simp only [IsBalanced, not_forall, not_or, not_and, not_exists] at h
  obtain ⟨fields, hfields, hdata, hcount⟩ := h
  have hitems : ∃ data, (if (branch fields c.dataBranch).truthy then itemsOf (branch fields c.dataBranch)
      else .ok []) = .ok data := by
    split
    · rename_i htruthy
      exact isOk_itemsOf_iff.mpr (by simpa using hdata htruthy)
    · exact ⟨[], rfl⟩
  obtain ⟨data, hitems⟩ := hitems
  refine ⟨data, ?_⟩
  rw [unwrap_eq hd hc hfields, hitems]
  cases htotal : totalOf c.countField (branch fields c.countBranch) with
  | error e => exact Or.inl ⟨e, rfl⟩
  | ok total =>
    refine Or.inr ⟨total, rfl, ?_⟩
    rintro n rfl
    exact hcount n (totalOf_eq_int_iff.mp htotal)

/-! ## What becomes of a run of accesses -/

theorem ask_of_response (h : c.Unexecuted) {collection : String} (hc : c.collection = some collection)
    {v : Value} (hv : s.upcoming = .ok v) (part : PagePart) : PageSession.ask (c, s) part =
      ((c.unwrap v).within (·, s.after (.aggregate collection c.pipeline))).andThen fun u _ =>
        ⟨.ok (part.answer (u.1.data.getD []) u.1.total), u⟩ := by
  rw [h.ask, execute_of_response hc hv]

/-- If the next result is balanced, an access to a page without one fails and leaves the page without one, or
it is answered by the whole result. -/
theorem ask_of_balanced (h : c.Unexecuted) (hd : isKey c.dataBranch = true) (hc : isKey c.countBranch = true)
    (hs : ∀ v, s.upcoming = .ok v → IsBalanced c.dataBranch c.countBranch c.countField v) (part : PagePart) :
    (∃ e s', PageSession.ask (c, s) part = ⟨.error e, (c, s')⟩) ∨
      ∃ data n u, PageSession.ask (c, s) part = ⟨.ok (part.answer data (.int n)), u⟩ ∧ u.1.Executed data n := by
  cases hcollection : c.collection with
  | none =>
    obtain ⟨e, he⟩ := execute_of_unbound hcollection s
    rw [h.ask, he]
    exact Or.inl ⟨e, s, rfl⟩
  | some collection =>
    cases hup : s.upcoming with
    | error f =>
      rw [h.ask, execute_of_fault hcollection hup]
      exact Or.inl ⟨_, _, rfl⟩
    | ok v =>
      rw [ask_of_response h hcollection hup]
      rcases unwrap_of_balanced hd hc (hs v hup) with ⟨e, he⟩ | ⟨data, n, hn⟩
      · rw [he]
        exact Or.inl ⟨e, _, rfl⟩
      · rw [hn]
        exact Or.inr ⟨data, n, _, rfl, rfl, rfl⟩

/-- The page is as it was made, bound to whatever it is bound to by now. -/
def IsAsMade (c c' : CountedPage) : Prop := c' = { c with collection := c'.collection }

theorem IsAsMade.withCollection {c' : CountedPage} (hmade : IsAsMade c c') (collection : String) :
    c'.withCollection collection = { c with collection := some collection } := by
  rw [hmade]
  rfl

theorem IsAsMade.ask {c' : CountedPage} (hmade : IsAsMade c c') (h : c.Unexecuted)
    (hd : isKey c.dataBranch = true) (hc : isKey c.countBranch = true)
    (hs : ∀ v, s.upcoming = .ok v → IsBalanced c.dataBranch c.countBranch c.countField v) (part : PagePart) :
    (∃ e s', PageSession.ask (c', s) part = ⟨.error e, (c', s')⟩) ∨
      ∃ data n u, PageSession.ask (c', s) part = ⟨.ok (part.answer data (.int n)), u⟩ ∧ u.1.Executed data n := by
  rw [hmade]
  exact ask_of_balanced (c := { c with collection := c'.collection }) ⟨h.data, h.total⟩ hd hc hs part

/-- Each result that is there for a page without one is balanced. -/
def MeetsBalanced (c : CountedPage) (s : Store) : Prop :=
  ∀ accesses, let t := PageSession.after (c, s) accesses
    IsAsMade c t.1 → ∀ v, t.2.upcoming = .ok v → IsBalanced c.dataBranch c.countBranch c.countField v

/-- Through any accesses, the page either has no result or has all of one. -/
theorem asMade_or_executed (h : c.Unexecuted) (hd : isKey c.dataBranch = true) (hc : isKey c.countBranch = true)
    (hs : MeetsBalanced c s) (accesses : List PageAccess) :
    IsAsMade c (PageSession.after (c, s) accesses).1 ∨
      ∃ data n, (PageSession.after (c, s) accesses).1.Executed data n := by
  induction accesses using List.reverseRecOn with
  | nil => exact Or.inl rfl
  | append_singleton before a ih =>
    have hnext := hs before
    rw [PageSession.after_append, PageSession.after_cons, PageSession.after_nil]
    generalize PageSession.after (c, s) before = t at ih hnext
    obtain ⟨c', s'⟩ := t
    rcases ih with hmade | ⟨data, n, hexecuted⟩
    · cases a with
      | bind collection =>
        exact Or.inl (by rw [PageSession.access, hmade.withCollection]; rfl)
      | ask part =>
        rw [PageSession.access]
        rcases hmade.ask h hd hc (hnext hmade) part with ⟨e, s₁, he⟩ | ⟨data, n, u, hok, hexecuted⟩
        · rw [he]
          exact Or.inl hmade
        · rw [hok]
          exact Or.inr ⟨data, n, hexecuted⟩
    · exact Or.inr ⟨data, n, (hexecuted.access s' a).1⟩

theorem staysWhole_of_meetsBalanced (h : c.Unexecuted) (hd : isKey c.dataBranch = true)
    (hc : isKey c.countBranch = true) (hs : MeetsBalanced c s) : StaysWhole c s := by
  intro accesses
  have hnext := hs accesses
  have hcase := asMade_or_executed h hd hc hs accesses
  generalize PageSession.after (c, s) accesses = t at hcase hnext
  obtain ⟨c', s'⟩ := t
  rcases hcase with hmade | ⟨data, n, hexecuted⟩
  · have hask := hmade.ask h hd hc (hnext hmade)
    constructor
    · intro page u hpage
      rcases hask .page with ⟨e, s₁, he⟩ | ⟨data, n, u, hok, hexecuted⟩
      · rw [he] at hpage
        cases hpage
      · rw [hok] at hpage
        cases hpage
        exact ⟨n, rfl, hexecuted.ask u.2 .count⟩
    · intro part e u hfail
      rcases hask part with ⟨e, s₁, he⟩ | ⟨data, n, u, hok, -⟩
      · rw [he] at hfail
        cases hfail
        exact hmade
      · rw [hok] at hfail
        cases hfail
  · constructor
    · intro page u hpage
      rw [hexecuted.ask] at hpage
      cases hpage
      exact ⟨n, rfl, hexecuted.ask s' .count⟩
    · intro part e u hfail
      rw [hexecuted.ask] at hfail
      cases hfail

/-- A result that is not balanced is shown without an integer for its total, or fails and leaves its documents
behind. -/
theorem meetsBalanced_of_staysWhole (h : c.Unexecuted) (hd : isKey c.dataBranch = true)
    (hc : isKey c.countBranch = true) (hs : StaysWhole c s) : MeetsBalanced c s := by
  intro accesses
  -- the page may have been bound to nothing so far
  have hwhole := hs (accesses ++ [.bind ""])
  rw [PageSession.after_append, PageSession.after_cons, PageSession.after_nil] at hwhole
  generalize PageSession.after (c, s) accesses = t at hwhole
  obtain ⟨c', s'⟩ := t
  intro _ hmade v hv
  refine Classical.byContradiction fun hnot => ?_
  rw [PageSession.access, hmade.withCollection] at hwhole
  obtain ⟨hshown, hfailed⟩ := hwhole
  have hask := ask_of_response (c := { c with collection := some "" }) ⟨h.data, h.total⟩ rfl hv .page
  obtain ⟨data, ⟨e, he⟩ | ⟨total, htotal, hint⟩⟩ :=
    unwrap_of_unbalanced (c := { c with collection := some "" }) hd hc hnot
  · rw [he] at hask
    have hleft : some data = c.data := congrArg CountedPage.data (hfailed .page _ _ hask)
    rw [h.data] at hleft
    cases hleft
  · rw [htotal] at hask
    obtain ⟨n, hn, -⟩ := hshown _ _ hask
    exact hint n hn

/-! ## Stores with balanced results -/

def AllBalanced (dataBranch countBranch countField : Value) (s : Store) : Prop :=
  ∀ v, .ok v ∈ s.aggregates → IsBalanced dataBranch countBranch countField v

theorem execute_aggregates (c : CountedPage) (s : Store) : (c.execute s).state.2.aggregates ⊆ s.aggregates := by
  cases hc : c.collection with
  | none =>
    obtain ⟨e, he⟩ := execute_of_unbound hc s
    rw [he]
    exact List.Subset.refl _
  | some collection =>
    cases hup : s.upcoming with
    | error f =>
      rw [execute_of_fault hc hup]
      exact (List.tail_sublist _).subset
    | ok v =>
      rw [execute_of_response hc hup]
      exact (List.tail_sublist _).subset

theorem access_aggregates (t : PageSession) (a : PageAccess) : (t.access a).2.aggregates ⊆ t.2.aggregates := by
  cases a with
  | bind collection => exact List.Subset.refl _
  | ask part =>
    have hexecute := execute_aggregates t.1 t.2
    rw [PageSession.access, PageSession.ask_eq]
    split
    · exact List.Subset.refl _
    · cases h : t.1.execute t.2 with
      | mk answer u =>
        rw [h] at hexecute
        cases answer <;> exact hexecute

theorem after_aggregates (t : PageSession) (accesses : List PageAccess) :
    (t.after accesses).2.aggregates ⊆ t.2.aggregates := by
  induction accesses generalizing t with
  | nil => exact List.Subset.refl _
  | cons a r ih => exact List.Subset.trans (ih (t.access a)) (access_aggregates t a)

theorem isBalanced_null (dataBranch countBranch countField : Value) :
    IsBalanced dataBranch countBranch countField .null := by
  rintro fields (⟨-, rfl⟩ | hnull)
  · refine Or.inr ⟨0, .empty ?_⟩
    rw [branch_nil]
    rfl
  · cases hnull

theorem meetsBalanced_of_all (h : AllBalanced c.dataBranch c.countBranch c.countField s) :
    MeetsBalanced c s := by
  intro accesses _ hmade v hv
  rcases Store.upcoming_mem hv with hmem | hnull
  · exact h v (after_aggregates (c, s) accesses hmem)
  · cases hnull
    exact isBalanced_null _ _ _

/-! ## The condition for a page to stay whole -/

variable {pipeline : List Value} {collection : Option String} {dataBranch countBranch countField : Value}

/-- A counted page stays whole exactly if each result that it meets is balanced. -/
theorem staysWhole_iff (hd : isKey dataBranch = true) (hc : isKey countBranch = true) :
    StaysWhole (init pipeline collection dataBranch countBranch countField) s ↔
      MeetsBalanced (init pipeline collection dataBranch countBranch countField) s := by
  have hmade := unexecuted_init pipeline collection dataBranch countBranch countField
  constructor
  · exact meetsBalanced_of_staysWhole hmade hd hc
  · exact staysWhole_of_meetsBalanced hmade hd hc

/-- A result with one document, and with a value in the branch that counts. -/
def counted (count : Value) : Value :=
  .document [("data", .array [.single "a" (.int 1)]), ("count", count)]

def counting (results : List Value) : Store := { Store.empty with aggregates := results.map .ok }

/-- A row with a total, and a branch without rows, keep a page whole. -/
theorem staysWhole_iff_totals :
    StaysWhole (init [] (some "shop.products") (.text "data") (.text "count") (.text "total"))
      (counting [counted (.array [.single "total" (.int 7)]), counted (.array [])]) := by
  refine (staysWhole_iff rfl rfl).mpr (meetsBalanced_of_all fun v hv => ?_)
  have hv : v = counted (.array [.single "total" (.int 7)]) ∨ v = counted (.array []) := by
    simpa [counting] using hv
  rcases hv with rfl | rfl <;> rintro fields (⟨hempty, -⟩ | hfields)
  · cases hempty
  · cases hfields
    exact Or.inr ⟨7, .counted rfl rfl⟩
  · cases hempty
  · cases hfields
    exact Or.inr ⟨0, .empty rfl⟩

/-- A row that is not a document: the page fails, and after that it is shown without a total and without a
call, although the total is there in the next result. -/
theorem page_without_total :
    let t : PageSession := (init [] (some "shop.products") (.text "data") (.text "count") (.text "total"),
      counting [counted (.array [.int 5]), counted (.array [.single "total" (.int 7)])])
    t.answers [.ask .page, .ask .page] =
        [.error .shape, .ok (.page ⟨[.single "a" (.int 1)], .null⟩)] ∧
      (t.after [.ask .page, .ask .page]).2.calls = [.aggregate "shop.products" []] ∧
      ¬StaysWhole t.1 t.2 := by
  intro t
  refine ⟨rfl, rfl, fun hwhole => ?_⟩
  obtain ⟨hshown, -⟩ := hwhole [.ask .page]
  obtain ⟨n, hn, -⟩ := hshown ⟨[.single "a" (.int 1)], .null⟩ _ rfl
  cases hn

end WholeResults
end GridQuery

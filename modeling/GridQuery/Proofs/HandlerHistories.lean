import Mathlib.Data.List.Basic
import GridQuery.Query.Family
import GridQuery.Proofs.CallerErrors

/-! # Histories of a family of handlers

A handler grows into a family as it and its copies are copied, given input and merged into. A handler that had an
input refuses any further one. The other handlers take an input, whether they can read it or not; only a tuple that
pagination cannot take apart is turned down untouched. -/
namespace GridQuery

namespace Error

theorem IsCallers.ne_inputReused {e : Error} (h : e.IsCallers) (handler : String) : e ≠ .inputReused handler := by
  rintro rfl
  cases h

end Error

namespace HandlerKind

/-- The name of a handler in messages. -/
def handlerName : HandlerKind → String
  | search => SearchHandler.handlerName
  | filter => FilterHandler.handlerName
  | sort => SortHandler.handlerName
  | limit => LimitHandler.handlerName
  | count => CountHandler.handlerName
  | plain => Handler.plainName

/-- Pagination takes a tuple apart into two values, and no other tuple fits. -/
def Fits (kind : HandlerKind) (v : Value) : Prop := kind = .limit → ∀ items, v = .tuple items → items.length = 2

end HandlerKind

namespace Handler

def kind : Handler → HandlerKind
  | search _ => .search
  | filter _ => .filter
  | sort _ => .sort
  | limit _ => .limit
  | count _ => .count
  | plain _ => .plain

variable {h : Handler} {v w : Value}

theorem init_eq_ok {kind : HandlerKind} {settings : Document} (hh : init kind settings = .ok h) :
    h.kind = kind ∧ h.intake = .fresh ∧ h.content? = none := by
  unfold init at hh
  split at hh
  · cases hh
  · cases kind with
    | filter =>
      obtain ⟨g, hg, rfl⟩ := map_eq_ok_iff.mp hh
      obtain ⟨forced, _, rfl⟩ := map_eq_ok_iff.mp hg
      exact ⟨rfl, rfl, rfl⟩
    | limit =>
      obtain ⟨g, hg, rfl⟩ := map_eq_ok_iff.mp hh
      exact ⟨rfl, (LimitHandler.init_fresh hg).1, rfl⟩
    | _ =>
      cases hh
      exact ⟨rfl, rfl, rfl⟩

/-! ## Input -/

theorem input_of_received (hr : h.intake.received = true) (v w : Value) :
    h.input v w = ⟨.error (.inputReused h.kind.handlerName), h⟩ := by
  cases h <;> simp_all [input, intake, kind, HandlerKind.handlerName, Reply.within, Intake.take,
    SearchHandler.input, FilterHandler.input, SortHandler.input, LimitHandler.input, CountHandler.input]

theorem input_of_misfit (hr : h.intake.received = false) (hv : ¬h.kind.Fits v) (w : Value) :
    h.input v w = ⟨.error .unacceptable, h⟩ := by
  simp only [HandlerKind.Fits, Classical.not_imp, Classical.not_forall] at hv
  obtain ⟨hkind, items, rfl, hitems⟩ := hv
  cases h with
  | limit g =>
    have hg : g.intake.received = false := hr
    change (g.input (.tuple items) w).within limit = _
    unfold LimitHandler.input
    rw [hg, if_neg Bool.false_ne_true]
    split
    · rename_i hpair
      cases hpair
      exact absurd rfl hitems
    · rfl
    · rename_i hnot
      exact absurd rfl (hnot items)
  | _ => cases hkind

/-- An input that is taken counts as the one of the handler, whether it is read or not; a filter or a sort
specification that is read becomes the content. -/
inductive Takes (h : Handler) : Reply Handler Unit → Prop
  | read {g : Handler} (hkind : g.kind = h.kind) (hr : g.intake.received = true)
      (hc : h.kind = .filter ∨ h.kind = .sort → g.content?.isSome = true) : Takes h ⟨.ok (), g⟩
  | unread {g : Handler} {e : Error} (hkind : g.kind = h.kind) (hr : g.intake.received = true)
      (hc : g.content? = h.content?) (he : ∀ handler, e ≠ .inputReused handler) : Takes h ⟨.error e, g⟩

theorem takes_search {g : SearchHandler} (hr : g.intake.received = false) (v w : Value) :
    (search g).Takes ((search g).input v w) := by
  cases ht : SearchHandler.read v with
  | ok t =>
    have hinput : (search g).input v w = ⟨.ok (), search { g with intake := ⟨true, v⟩, text := t }⟩ := by
      simp [input, SearchHandler.input, Intake.take, hr, ht, Reply.within]
    rw [hinput]
    exact .read rfl rfl (by simp [kind])
  | error e =>
    have hinput : (search g).input v w = ⟨.error e, search { g with intake := ⟨true, v⟩ }⟩ := by
      simp [input, SearchHandler.input, Intake.take, hr, ht, Reply.within]
    rw [hinput]
    exact .unread rfl rfl rfl (SearchHandler.isCallers_read ht).ne_inputReused

theorem takes_filter {g : FilterHandler} (hr : g.intake.received = false) (v w : Value) :
    (filter g).Takes ((filter g).input v w) := by
  cases hes : Expression.ofFilter v with
  | ok es =>
    have hinput : (filter g).input v w =
        ⟨.ok (), filter { g with intake := ⟨true, v⟩, expressions := some (es ++ g.forced.expressions) }⟩ := by
      simp [input, FilterHandler.input, Intake.take, hr, hes, Reply.within]
    rw [hinput]
    exact .read rfl rfl fun _ => rfl
  | error e =>
    have hinput : (filter g).input v w = ⟨.error e, filter { g with intake := ⟨true, v⟩ }⟩ := by
      simp [input, FilterHandler.input, Intake.take, hr, hes, Reply.within]
    rw [hinput]
    refine .unread rfl rfl rfl fun handler => ?_
    rcases Expression.refusedFor_ofFilter hes with hcallers | ⟨-, rfl⟩ | ⟨-, rfl⟩
    · exact hcallers.ne_inputReused handler
    · exact Error.noConfusion
    · exact Error.noConfusion

theorem takes_sort {g : SortHandler} (hr : g.intake.received = false) (v w : Value) :
    (sort g).Takes ((sort g).input v w) := by
  cases hs : SortSpec.ofValue v with
  | ok spec =>
    have hinput : (sort g).input v w = ⟨.ok (), sort ⟨⟨true, v⟩, some spec⟩⟩ := by
      simp [input, SortHandler.input, Intake.take, hr, hs, Reply.within]
    rw [hinput]
    exact .read rfl rfl fun _ => rfl
  | error e =>
    have hinput : (sort g).input v w = ⟨.error e, sort { g with intake := ⟨true, v⟩ }⟩ := by
      simp [input, SortHandler.input, Intake.take, hr, hs, Reply.within]
    rw [hinput]
    exact .unread rfl rfl rfl (SortSpec.isCallers_ofValue hs).ne_inputReused

theorem takes_limit {g : LimitHandler} (hr : g.intake.received = false) (hv : HandlerKind.limit.Fits v)
    (w : Value) : (limit g).Takes ((limit g).input v w) := by
  have haccept (page size : Value) : (limit g).Takes ((g.accept page size).within limit) := by
    rw [LimitHandler.accept_of_fresh hr]
    exact .read rfl rfl (by simp [kind])
  change (limit g).Takes ((g.input v w).within limit)
  unfold LimitHandler.input
  rw [hr, if_neg Bool.false_ne_true]
  split
  · exact haccept _ _
  · rename_i items hnot
    have hlength : items.length = 2 := hv rfl items rfl
    obtain ⟨page, size, rfl⟩ := List.length_eq_two.mp hlength
    exact absurd rfl (hnot page size)
  · exact haccept _ _

theorem takes_of_fresh (hr : h.intake.received = false) (hv : h.kind.Fits v) (w : Value) :
    h.Takes (h.input v w) := by
  cases h with
  | search g => exact takes_search hr v w
  | filter g => exact takes_filter hr v w
  | sort g => exact takes_sort hr v w
  | limit g => exact takes_limit hr hv w
  | count g =>
    have hg : g.intake.received = false := hr
    have hinput : (count g).input v w = ⟨.ok (), count { g with intake := ⟨true, v⟩ }⟩ := by
      simp [input, CountHandler.input, Intake.take, hg, Reply.within]
    rw [hinput]
    exact .read rfl rfl (by simp [kind])
  | plain i =>
    have hi : i.received = false := hr
    have hinput : (plain i).input v w = ⟨.ok (), plain ⟨true, v⟩⟩ := by
      simp [input, Intake.take, hi]
    rw [hinput]
    exact .read rfl rfl (by simp [kind])

theorem Takes.state {out : Reply Handler Unit} (ht : h.Takes out) :
    out.state.kind = h.kind ∧ out.state.intake.received = true := by
  cases ht with
  | read hkind hr _ => exact ⟨hkind, hr⟩
  | unread hkind hr _ _ => exact ⟨hkind, hr⟩

theorem Takes.not_reused {out : Reply Handler Unit} (ht : h.Takes out) (handler : String) :
    out.answer ≠ .error (.inputReused handler) := by
  intro hanswer
  cases ht with
  | read _ _ _ => cases hanswer
  | unread _ _ _ he => exact he handler (Except.error.inj hanswer)

/-- An input does not change the kind, and uses a handler iff it fits. -/
theorem state_input (h : Handler) (v w : Value) : (h.input v w).state.kind = h.kind ∧
    ((h.input v w).state.intake.received = true ↔ h.intake.received = true ∨ h.kind.Fits v) := by
  cases hr : h.intake.received with
  | true =>
    rw [input_of_received hr]
    simp [hr]
  | false =>
    by_cases hv : h.kind.Fits v
    · obtain ⟨hkind, hreceived⟩ := (takes_of_fresh hr hv w).state
      simp [hkind, hreceived, hv]
    · rw [input_of_misfit hr hv]
      simp [hr, hv]

/-! ## Content -/

theorem kind_withContent (h : Handler) (c : Content) : (h.withContent c).kind = h.kind := by
  cases h <;> cases c <;> rfl

theorem intake_withContent (h : Handler) (c : Content) : (h.withContent c).intake = h.intake := by
  cases h <;> cases c <;> rfl

end Handler

/-! ## Members of lists -/

section
variable {α : Type} {l : List α} {x y : α} {i j : Nat}

theorem lt_length_of_member (hi : l[i]? = some x) : i < l.length := (List.getElem?_eq_some_iff.mp hi).1

theorem getElem?_append_one (l : List α) (x : α) (i : Nat) :
    (l ++ [x])[i]? = if i = l.length then some x else l[i]? := by
  rcases Nat.lt_trichotomy i l.length with hlt | rfl | hgt
  · rw [List.getElem?_append_left hlt, if_neg (Nat.ne_of_lt hlt)]
  · simp
  · rw [if_neg (Nat.ne_of_gt hgt), List.getElem?_eq_none (by simp; omega), List.getElem?_eq_none (by omega)]

theorem member_append_one (hi : (l ++ [x])[i]? = some y) : l[i]? = some y ∨ i = l.length ∧ y = x := by
  rw [getElem?_append_one] at hi
  split at hi
  · rename_i heq
    exact Or.inr ⟨heq, (Option.some.inj hi).symm⟩
  · exact Or.inl hi

theorem getElem?_set_member (hi : l[i]? = some x) (y : α) (j : Nat) :
    (l.set i y)[j]? = if j = i then some y else l[j]? := by
  rw [List.getElem?_set]
  by_cases hj : j = i
  · simp [hj, lt_length_of_member hi]
  · simp [hj, Ne.symm hj]

theorem member_set {z : α} (hj : l[j]? = some x) (hi : (l.set j y)[i]? = some z) :
    i ≠ j ∧ l[i]? = some z ∨ i = j ∧ z = y := by
  rw [getElem?_set_member hj] at hi
  split at hi
  · rename_i heq
    exact Or.inr ⟨heq, (Option.some.inj hi).symm⟩
  · rename_i hne
    exact Or.inl ⟨hne, hi⟩

theorem set_member (hi : l[i]? = some x) : l.set i x = l := by
  obtain ⟨hlt, rfl⟩ := List.getElem?_eq_some_iff.mp hi
  exact List.set_getElem_self hlt

end

/-! ## Families -/

/-- A call on a member of a family of handlers. -/
inductive HandlerCall
  | copy (i : Nat)
  | input (i : Nat) (v w : Value)
  | merge (i : Nat) (v : Value)

def HandlerCall.member : HandlerCall → Nat
  | copy i => i
  | input i _ _ => i
  | merge i _ => i

namespace Family

variable {f : Family} {i : Nat} {r : Relative}

def call (f : Family) : HandlerCall → Reply Family Unit
  | .copy i => (f.copy i).map fun _ => ()
  | .input i v w => f.input i v w
  | .merge i v => f.merge i v

/-- The family that a handler grows into; the calls of a history are given with the last one first. -/
def grown (h : Handler) : List HandlerCall → Family
  | [] => single h
  | c :: history => ((grown h history).call c).state

theorem copy_of_member (hi : f[i]? = some r) :
    f.copy i = ⟨.ok f.length, f ++ [⟨f.markOfCopy r, r.handler⟩]⟩ := by
  simp only [copy, hi]

theorem copy_of_none (hi : f[i]? = none) : f.copy i = ⟨.error .shape, f⟩ := by
  simp only [copy, hi]

theorem input_of_member (hi : f[i]? = some r) (v w : Value) :
    f.input i v w = (r.handler.input v w).within fun h => f.set i { r with handler := h } := by
  simp only [input, hi]

theorem input_of_none (hi : f[i]? = none) (v w : Value) : f.input i v w = ⟨.error .shape, f⟩ := by
  simp only [input, hi]

theorem merge_of_member (hi : f[i]? = some r) (v : Value) : f.merge i v =
    match r.handler.merged v with
    | .error e => ⟨.error e, f⟩
    | .ok c => ⟨.ok (), f.share r.mark c⟩ := by
  cases hm : r.handler.merged v <;> simp only [merge, hi, hm]

theorem merge_of_none (hi : f[i]? = none) (v : Value) : f.merge i v = ⟨.error .shape, f⟩ := by
  simp only [merge, hi]

theorem member_single {h : Handler} (hi : (single h)[i]? = some r) : i = 0 ∧ r = ⟨0, h⟩ := by
  cases i with
  | zero => exact ⟨rfl, (Option.some.inj hi).symm⟩
  | succ i => cases hi

theorem getElem?_share (f : Family) (mark : Nat) (c : Handler.Content) (i : Nat) : (f.share mark c)[i]? =
    f[i]?.map fun r => if r.mark = mark then { r with handler := r.handler.withContent c } else r :=
  List.getElem?_map

theorem member_share {mark : Nat} {c : Handler.Content} (hi : (f.share mark c)[i]? = some r) :
    r.mark ≠ mark ∧ f[i]? = some r ∨
      ∃ s, f[i]? = some s ∧ s.mark = mark ∧ r = ⟨mark, s.handler.withContent c⟩ := by
  rw [getElem?_share] at hi
  obtain ⟨s, hs, rfl⟩ := Option.map_eq_some_iff.mp hi
  split
  · rename_i heq
    exact Or.inr ⟨s, hs, heq, by rw [heq]⟩
  · rename_i hne
    exact Or.inl ⟨hne, hs⟩

/-- A call on a number that no member has fails and changes nothing. -/
theorem call_of_none {c : HandlerCall} (hc : f[c.member]? = none) : f.call c = ⟨.error .shape, f⟩ := by
  cases c with
  | copy i =>
    rw [call, copy_of_none (i := i) hc]
    rfl
  | input i v w => exact input_of_none hc v w
  | merge i v => exact merge_of_none hc v

theorem length_le_call (f : Family) (c : HandlerCall) : f.length ≤ (f.call c).state.length := by
  cases hc : f[c.member]? with
  | none => simp [call_of_none hc]
  | some r =>
    cases c with
    | copy i => simp [call, copy_of_member (i := i) hc]
    | input i v w => simp [call, input_of_member (i := i) hc]
    | merge i v =>
      rw [call, merge_of_member (i := i) hc]
      cases r.handler.merged v <;> simp [share]

theorem grown_of_none {h : Handler} {history : List HandlerCall} {c : HandlerCall}
    (hc : (grown h history)[c.member]? = none) : grown h (c :: history) = grown h history := by
  rw [grown, call_of_none hc]

/-! ## Inputs along a history -/

/-- An input that counts was given to a member, or to one that it descends from, before the copy was taken. -/
inductive InputBefore (counts : Value → Prop) (h : Handler) : List HandlerCall → Nat → Prop
  | given {history : List HandlerCall} {i : Nat} {v w : Value} (hi : i < (grown h history).length)
      (hv : counts v) : InputBefore counts h (.input i v w :: history) i
  | inherited {history : List HandlerCall} {i j : Nat} (hcopy : ((grown h history).copy i).answer = .ok j)
      (hi : InputBefore counts h history i) : InputBefore counts h (.copy i :: history) j
  | earlier {history : List HandlerCall} {c : HandlerCall} {i : Nat} (hi : InputBefore counts h history i) :
      InputBefore counts h (c :: history) i

variable {kind : HandlerKind} {counts counts' : Value → Prop} {h : Handler} {history : List HandlerCall}
  {c : HandlerCall} {j : Nat} {v w : Value} {s : Relative}

theorem inputBefore_copy_iff : InputBefore counts h (.copy j :: history) i ↔
    InputBefore counts h history i ∨
      ((grown h history).copy j).answer = .ok i ∧ InputBefore counts h history j := by
  constructor
  · intro hi
    cases hi with
    | inherited hcopy hj => exact Or.inr ⟨hcopy, hj⟩
    | earlier hi => exact Or.inl hi
  · intro hi
    rcases hi with hi | ⟨hcopy, hj⟩
    · exact .earlier hi
    · exact .inherited hcopy hj

theorem inputBefore_input_iff : InputBefore counts h (.input j v w :: history) i ↔
    InputBefore counts h history i ∨ i = j ∧ j < (grown h history).length ∧ counts v := by
  constructor
  · intro hi
    cases hi with
    | given hi hv => exact Or.inr ⟨rfl, hi, hv⟩
    | earlier hi => exact Or.inl hi
  · intro hi
    rcases hi with hi | ⟨rfl, hi, hv⟩
    · exact .earlier hi
    · exact .given hi hv

theorem inputBefore_merge_iff :
    InputBefore counts h (.merge j v :: history) i ↔ InputBefore counts h history i := by
  constructor
  · intro hi
    cases hi with
    | earlier hi => exact hi
  · exact .earlier

theorem inputBefore_of_none (hc : (grown h history)[c.member]? = none) :
    InputBefore counts h (c :: history) i ↔ InputBefore counts h history i := by
  cases c with
  | copy j =>
    rw [inputBefore_copy_iff, copy_of_none (i := j) hc]
    simp
  | input j v w =>
    have hj : ¬j < (grown h history).length := Nat.not_lt.mpr (List.getElem?_eq_none_iff.mp hc)
    rw [inputBefore_input_iff]
    simp [hj]
  | merge j v => exact inputBefore_merge_iff

theorem InputBefore.lt_length (hi : InputBefore counts h history i) : i < (grown h history).length := by
  induction hi with
  | given hi hv => exact Nat.lt_of_lt_of_le hi (length_le_call _ _)
  | earlier hi ih => exact Nat.lt_of_lt_of_le ih (length_le_call _ _)
  | @inherited history i j hcopy hi ih =>
    have hmember : (grown h history)[i]? = some (grown h history)[i] := List.getElem?_eq_getElem ih
    rw [copy_of_member hmember] at hcopy
    cases hcopy
    simp [grown, call, copy_of_member hmember]

theorem InputBefore.imp (hc : ∀ j v w, .input j v w ∈ history → counts v → counts' v)
    (hi : InputBefore counts h history i) : InputBefore counts' h history i := by
  induction hi with
  | given hi hv => exact .given hi (hc _ _ _ List.mem_cons_self hv)
  | inherited hcopy hi ih =>
    apply InputBefore.inherited hcopy
    exact ih fun j v w hmem => hc j v w (List.mem_cons_of_mem _ hmem)
  | earlier hi ih =>
    apply InputBefore.earlier
    exact ih fun j v w hmem => hc j v w (List.mem_cons_of_mem _ hmem)

/-- Any input counts where there is no pagination, and where all inputs of the history fit. -/
theorem inputBefore_fits_iff (hf : kind ≠ .limit ∨ ∀ j v w, .input j v w ∈ history → kind.Fits v) :
    InputBefore kind.Fits h history i ↔ InputBefore (fun _ => True) h history i := by
  constructor
  · intro hi
    exact hi.imp fun _ _ _ _ _ => trivial
  · intro hi
    apply hi.imp
    intro j v w hmem _
    rcases hf with hkind | hfits
    · exact fun hlimit => absurd hlimit hkind
    · exact hfits j v w hmem

/-! ## Used handlers -/

/-- All members are of one kind, and used iff an input that they could take came before. -/
def UsedByInput (kind : HandlerKind) (h : Handler) (history : List HandlerCall) : Prop :=
  ∀ i r, (grown h history)[i]? = some r →
    r.handler.kind = kind ∧ (r.handler.intake.received = true ↔ InputBefore kind.Fits h history i)

theorem usedByInput_nil {settings : Document} (hh : Handler.init kind settings = .ok h) :
    UsedByInput kind h [] := by
  intro i r hi
  obtain ⟨hkind, hfresh, _⟩ := Handler.init_eq_ok hh
  obtain ⟨rfl, rfl⟩ := member_single hi
  refine ⟨hkind, ?_⟩
  rw [hfresh]
  constructor
  · intro hreceived
    cases hreceived
  · intro hbefore
    cases hbefore

theorem UsedByInput.of_unchanged (hu : UsedByInput kind h history)
    (hstate : grown h (c :: history) = grown h history)
    (hbefore : ∀ i, InputBefore kind.Fits h (c :: history) i ↔ InputBefore kind.Fits h history i) :
    UsedByInput kind h (c :: history) := by
  intro i r hi
  rw [hstate] at hi
  rw [hbefore]
  exact hu i r hi

theorem UsedByInput.copy (hu : UsedByInput kind h history) (hj : (grown h history)[j]? = some s) :
    UsedByInput kind h (.copy j :: history) := by
  intro i r hi
  rw [grown, call, Reply.state_map, copy_of_member hj] at hi
  rw [inputBefore_copy_iff, copy_of_member hj]
  rcases member_append_one hi with hi | ⟨rfl, rfl⟩
  · simpa [Nat.ne_of_gt (lt_length_of_member hi)] using hu i r hi
  · have hnot : ¬InputBefore kind.Fits h history (grown h history).length :=
      fun hbefore => Nat.lt_irrefl _ hbefore.lt_length
    simpa [hnot] using hu j s hj

theorem UsedByInput.input (hu : UsedByInput kind h history) (hj : (grown h history)[j]? = some s)
    (v w : Value) : UsedByInput kind h (.input j v w :: history) := by
  intro i r hi
  rw [grown, call, input_of_member hj, Reply.state_within] at hi
  rw [inputBefore_input_iff]
  rcases member_set hj hi with ⟨hne, hi⟩ | ⟨rfl, rfl⟩
  · simpa [hne] using hu i r hi
  · obtain ⟨hkind, hreceived⟩ := hu i s hj
    obtain ⟨hkept, hused⟩ := s.handler.state_input v w
    rw [hkept, hused, hreceived, hkind]
    simp [lt_length_of_member hj]

theorem UsedByInput.merge (hu : UsedByInput kind h history) (hj : (grown h history)[j]? = some s) (v : Value) :
    UsedByInput kind h (.merge j v :: history) := by
  cases hm : s.handler.merged v with
  | error e =>
    apply hu.of_unchanged _ fun i => inputBefore_merge_iff
    rw [grown, call, merge_of_member hj, hm]
  | ok c =>
    intro i r hi
    rw [grown, call, merge_of_member hj, hm] at hi
    rw [inputBefore_merge_iff]
    rcases member_share hi with ⟨_, hi⟩ | ⟨old, hold, _, rfl⟩
    · exact hu i r hi
    · rw [Handler.kind_withContent, Handler.intake_withContent]
      exact hu i old hold

theorem usedByInput_of_init {settings : Document} (hh : Handler.init kind settings = .ok h)
    (history : List HandlerCall) : UsedByInput kind h history := by
  induction history with
  | nil => exact usedByInput_nil hh
  | cons c history ih =>
    cases hc : (grown h history)[c.member]? with
    | none => exact ih.of_unchanged (grown_of_none hc) fun i => inputBefore_of_none hc
    | some s =>
      cases c with
      | copy j => exact ih.copy hc
      | input j v w => exact ih.input hc v w
      | merge j v => exact ih.merge hc v

theorem UsedByInput.refused (hu : UsedByInput kind h history) (hb : InputBefore kind.Fits h history i)
    (v w : Value) :
    (grown h history).input i v w = ⟨.error (.inputReused kind.handlerName), grown h history⟩ := by
  obtain ⟨r, hi⟩ : ∃ r, (grown h history)[i]? = some r := ⟨_, List.getElem?_eq_getElem hb.lt_length⟩
  obtain ⟨hkind, hused⟩ := hu i r hi
  rw [input_of_member hi, Handler.input_of_received (hused.mpr hb), hkind]
  exact congrArg (Reply.mk _) (set_member hi)

end Family
end GridQuery

import GridQuery.Proofs.CallerErrors
import GridQuery.Proofs.StoreCalls

/-! # The course of work on a store

Calls are made one after the other, and each leads from one state of the store to the next. Work that reports
faults goes on as long as its calls are answered, ends with the first that fails, and gives the error for it;
if all are answered, any error it ends with is its own. Sequences of such work are again of this kind, so this
is shown for each call once and then followed up to whole operations. -/
namespace GridQuery

/-- The value is a document, or null in the place of an empty one. -/
def Value.IsOptional (v : Value) (d : Document) : Prop := v = .null ∧ d = [] ∨ v = .document d

theorem Value.IsOptional.unique {v : Value} {d d' : Document} (h : v.IsOptional d) (h' : v.IsOptional d') :
    d = d' := by
  rcases h with ⟨rfl, rfl⟩ | rfl <;> rcases h' with ⟨h', rfl⟩ | h' <;> simp_all

/-- The value is a document, or anything empty in the place of an empty one. -/
def Value.IsTakenFor (v : Value) (d : Document) : Prop := v.truthy = false ∧ d = [] ∨ v = .document d

theorem Value.isTakenFor_iff {v : Value} {d : Document} :
    v.IsTakenFor d ↔ (if v.truthy then v else .document []) = .document d := by
  unfold IsTakenFor
  cases h : v.truthy with
  | true => simp
  | false =>
    constructor
    · rintro (⟨-, rfl⟩ | rfl)
      · rfl
      · cases d <;> first | rfl | cases h
    · intro hd
      cases hd
      exact Or.inl ⟨rfl, rfl⟩

theorem Value.IsOptional.isTakenFor {v : Value} {d : Document} (h : v.IsOptional d) : v.IsTakenFor d := by
  rcases h with ⟨rfl, rfl⟩ | rfl
  · exact Or.inl ⟨rfl, rfl⟩
  · exact Or.inr rfl

theorem Value.IsOptional.orEmpty {v : Value} {d : Document} (h : v.IsOptional d) :
    (if v.truthy then v else .document []) = .document d := isTakenFor_iff.mp h.isTakenFor

namespace Error

variable {e : Error}

/-- The error says what the store has failed with. -/
def IsReport : Error → Prop
  | execution .. | validation .. => True
  | _ => False

theorem IsCallers.not_isReport (h : e.IsCallers) : ¬e.IsReport := by
  cases e <;> simp_all [IsCallers, reason?, IsReport]

end Error

theorem RefusedFor.not_isReport [Stack] {v : Value} {e : Error} (h : RefusedFor v e) : ¬e.IsReport := by
  rcases h with h | ⟨-, rfl⟩ | ⟨-, rfl⟩
  · exact h.not_isReport
  · exact id
  · exact id

namespace Fault

/-- The validator of a collection has turned a document down. -/
def IsRejection (f : Fault) : Prop :=
  f.code = .int 121 ∨ ∃ d, f.code = .double d ∧ d.numEq (Double.ofInt 121) = true

/-- What the details of a fault say about the error; it may be missing. -/
def HasInfo (f : Fault) (info : Document) : Prop :=
  ∃ details, f.details.IsOptional details ∧ (Value.entry details "errInfo").IsOptional info

/-- The store has turned a document down for the given details. -/
def Rejects (f : Fault) (details : Value) : Prop :=
  f.isStoreFault = true ∧ f.IsRejection ∧ ∃ given info, f.details.IsTakenFor given ∧
    (Value.entry given "errInfo").IsTakenFor info ∧ details = Value.entry info "details"

theorem ofFault_of_isRejection {f : Fault} (h : f.IsRejection) : Error.ofFault f =
    match if f.details.truthy then f.details else .document [] with
    | .document given =>
      match if (Value.entry given "errInfo").truthy then Value.entry given "errInfo" else .document [] with
      | .document info => .validation f.text f.code (Value.entry info "details")
      | _ => .shape
    | _ => .shape := by
  unfold Error.ofFault
  rcases h with hc | ⟨d, hc, hd⟩
  · rw [hc]
    rfl
  · rw [hc]
    exact if_pos hd

theorem ofFault_of_rejection {f : Fault} (h : f.IsRejection) {info : Document} (hi : f.HasInfo info) :
    Error.ofFault f = .validation f.text f.code (Value.entry info "details") := by
  obtain ⟨details, hdetails, hinfo⟩ := hi
  rw [ofFault_of_isRejection h, hdetails.orEmpty]
  dsimp only
  rw [hinfo.orEmpty]

theorem ofFault_of_not_rejection {f : Fault} (h : ¬f.IsRejection) :
    Error.ofFault f = .execution f.text f.code f.details := by
  unfold IsRejection at h
  unfold Error.ofFault
  cases hc : f.code <;> simp_all

theorem rejects_iff {f : Fault} {details : Value} :
    f.Rejects details ↔ ∃ m c, Error.ofCall f = .validation m c details := by
  constructor
  · rintro ⟨hs, hr, given, info, hgiven, hinfo, rfl⟩
    refine ⟨f.text, f.code, ?_⟩
    rw [Error.ofCall, if_pos hs, ofFault_of_isRejection hr, Value.isTakenFor_iff.mp hgiven]
    dsimp only
    rw [Value.isTakenFor_iff.mp hinfo]
  · rintro ⟨m, c, h⟩
    cases hs : f.isStoreFault with
    | false =>
      rw [Error.ofCall, hs] at h
      cases h
    | true =>
      rw [Error.ofCall, if_pos hs] at h
      by_cases hr : f.IsRejection
      · rw [ofFault_of_isRejection hr] at h
        split at h
        · rename_i given hgiven
          split at h
          · rename_i info hinfo
            cases h
            exact ⟨hs, hr, given, info, Value.isTakenFor_iff.mpr hgiven, Value.isTakenFor_iff.mpr hinfo, rfl⟩
          · cases h
        · cases h
      · rw [ofFault_of_not_rejection hr] at h
        cases h

end Fault

namespace Store

/-- The names of the collections of a database. -/
def namesIn (s : Store) (database : String) : Except Fault (List String) :=
  match s.databases with
  | .error _ => .ok []
  | .ok ds => match Table.get? ds database with
    | some names => names
    | none => .ok []

def faultOf {α : Type} : Except Fault α → Option Fault
  | .ok _ => none
  | .error f => some f

/-- What a call would fail with now. -/
def fault? (s : Store) : Call → Option Fault
  | .aggregate .. => faultOf (next .null s.aggregates).1
  | .insert .. => faultOf (next .default s.inserts).1
  | .update .. => faultOf (next .default s.updates).1
  | .delete .. => faultOf (next .default s.deletes).1
  | .listCollections .. => faultOf s.infos
  | .listDatabases => faultOf s.databases
  | .listCollectionNames database => faultOf (s.namesIn database)

/-- The store behind a call: the call is kept, and its answer is used up. -/
def after (s : Store) (c : Call) : Store :=
  match c with
  | .aggregate .. => { s.record c with aggregates := s.aggregates.tail }
  | .insert .. => { s.record c with inserts := s.inserts.tail }
  | .update .. => { s.record c with updates := s.updates.tail }
  | .delete .. => { s.record c with deletes := s.deletes.tail }
  | _ => s.record c

/-- The store behind calls that are made one after the other. -/
def replay (s : Store) (calls : List Call) : Store := calls.foldl after s

variable {s : Store}

@[simp] theorem replay_nil : s.replay [] = s := rfl

theorem replay_append (calls more : List Call) : s.replay (calls ++ more) = (s.replay calls).replay more :=
  List.foldl_append

theorem calls_after (s : Store) (c : Call) : (s.after c).calls = s.calls ++ [c] := by
  cases c <;> rfl

theorem calls_replay (s : Store) (calls : List Call) : (s.replay calls).calls = s.calls ++ calls := by
  induction calls generalizing s with
  | nil => simp
  | cons c r ih =>
    change ((s.after c).replay r).calls = _
    rw [ih, calls_after, List.append_assoc, List.singleton_append]

/-- The calls behind a store tell those that led to it. -/
theorem replay_injective {calls more : List Call} (h : s.replay calls = s.replay more) : calls = more := by
  have hcalls := congrArg Store.calls h
  rw [calls_replay, calls_replay] at hcalls
  exact List.append_cancel_left hcalls

/-- All of the calls are answered. -/
def Answers (s : Store) : List Call → Prop
  | [] => True
  | c :: r => s.fault? c = none ∧ (s.after c).Answers r

theorem answers_append {calls more : List Call} :
    s.Answers (calls ++ more) ↔ s.Answers calls ∧ (s.replay calls).Answers more := by
  induction calls generalizing s with
  | nil => simp [Answers]
  | cons c r ih =>
    rw [List.cons_append, Answers, Answers, ih, and_assoc]
    rfl

theorem answers_singleton {c : Call} : s.Answers [c] ↔ s.fault? c = none := by
  simp [Answers]

end Store

/-- The course of some work. Either all of its calls are answered, and it does not report a fault, or the
last one fails and this is what it reports. -/
inductive Course {α : Type} (s : Store) : Except Error α → List Call → Prop
  | completed {answer : Except Error α} {calls : List Call} (answered : s.Answers calls)
      (own : ∀ e, answer = .error e → ¬e.IsReport) : Course s answer calls
  | broken {calls : List Call} {c : Call} {f : Fault} (answered : s.Answers calls)
      (fails : (s.replay calls).fault? c = some f) : Course s (.error (.ofCall f)) (calls ++ [c])

/-- A call that fails is the last one, and what it fails with is reported. -/
theorem Course.of_fails {α : Type} {s : Store} {answer : Except Error α} {before later : List Call} {c : Call}
    {f : Fault} (h : Course s answer (before ++ c :: later)) (hf : (s.replay before).fault? c = some f) :
    later = [] ∧ answer = .error (.ofCall f) := by
  generalize hcalls : before ++ c :: later = calls at h
  cases h with
  | completed answered own =>
    rw [← hcalls, Store.answers_append] at answered
    have hnone : (s.replay before).fault? c = none := answered.2.1
    rw [hf] at hnone
    cases hnone
  | @broken calls c' f' answered fails =>
    rcases List.eq_nil_or_concat later with rfl | ⟨rest, last, rfl⟩
    · obtain ⟨rfl, hc⟩ := List.append_inj' hcalls rfl
      cases hc
      rw [hf] at fails
      cases fails
      exact ⟨rfl, rfl⟩
    · -- Here the call would be one of those that are answered.
      rw [List.concat_eq_append, ← List.cons_append, ← List.append_assoc] at hcalls
      obtain ⟨rfl, -⟩ := List.append_inj' hcalls rfl
      rw [Store.answers_append] at answered
      have hnone : (s.replay before).fault? c = none := answered.2.1
      rw [hf] at hnone
      cases hnone

/-- The last of the calls between two states of a store has failed. -/
def Store.EndedBy (s t : Store) (f : Fault) : Prop :=
  ∃ before c, t = s.replay (before ++ [c]) ∧ (s.replay before).fault? c = some f

theorem Store.endedBy_replay_iff {s : Store} {before : List Call} {c : Call} {f : Fault} :
    s.EndedBy (s.replay (before ++ [c])) f ↔ (s.replay before).fault? c = some f := by
  constructor
  · rintro ⟨before', c', hs, hf⟩
    obtain ⟨rfl, hc⟩ := List.append_inj' (Store.replay_injective hs) rfl
    cases hc
    exact hf
  · exact fun hf => ⟨before, c, rfl, hf⟩

theorem Store.not_endedBy_self (s : Store) (f : Fault) : ¬s.EndedBy s f := by
  rintro ⟨before, c, hs, -⟩
  have hnil : [] = before ++ [c] := Store.replay_injective (s := s) hs
  simp at hnil

/-- Work that reports the faults of its calls, and no others. -/
def Reports {α : Type} (work : StoreM α) : Prop :=
  ∀ s, ∃ calls, (work s).2 = s.replay calls ∧ Course s (work s).1 calls

namespace Reports

variable {α β : Type}

theorem answer_of_endedBy {work : StoreM α} (h : Reports work) {s : Store} {f : Fault}
    (hf : s.EndedBy (work s).2 f) : (work s).1 = .error (.ofCall f) := by
  obtain ⟨calls, hstate, hcourse⟩ := h s
  obtain ⟨before, c, hlast, hfails⟩ := hf
  rw [Store.replay_injective (hstate.symm.trans hlast)] at hcourse
  exact (hcourse.of_fails hfails).2

theorem endedBy_of_isReport {work : StoreM α} (h : Reports work) {s : Store} {e : Error}
    (he : (work s).1 = .error e) (hr : e.IsReport) : ∃ f, s.EndedBy (work s).2 f ∧ e = .ofCall f := by
  obtain ⟨calls, hstate, hcourse⟩ := h s
  generalize (work s).1 = answer at he hcourse
  cases hcourse with
  | completed answered own => exact absurd hr (own e he)
  | @broken before c f answered fails =>
    cases he
    exact ⟨f, ⟨before, c, hstate, fails⟩, rfl⟩

theorem pureWork {answer : Except Error α} (h : ∀ e, answer = .error e → ¬e.IsReport) :
    Reports (Crud.pureWork answer) := fun _ => ⟨[], rfl, .completed trivial h⟩

theorem pure (a : α) : Reports (pure a : StoreM α) :=
  fun _ => ⟨[], rfl, .completed trivial fun _ h => nomatch h⟩

theorem bind {work : StoreM α} {next : α → StoreM β} (h : Reports work) (hn : ∀ a, Reports (next a)) :
    Reports (work >>= next) := by
  intro s
  obtain ⟨calls, hstate, hcourse⟩ := h s
  cases hw : work s with
  | mk answer t =>
    rw [hw] at hstate hcourse
    have ht : t = s.replay calls := hstate
    subst ht
    cases hcourse with
    | broken answered fails =>
      rw [run_bind_error hw]
      exact ⟨_, rfl, .broken answered fails⟩
    | completed answered own =>
      cases answer with
      | error e =>
        rw [run_bind_error hw]
        refine ⟨calls, rfl, .completed answered fun e' he' => ?_⟩
        cases he'
        exact own e rfl
      | ok a =>
        rw [run_bind_ok hw]
        obtain ⟨more, hstate, hcourse⟩ := hn a (s.replay calls)
        refine ⟨calls ++ more, by rw [hstate, Store.replay_append], ?_⟩
        generalize (next a (s.replay calls)).1 = answer at hcourse
        cases hcourse with
        | completed answered' own' =>
          exact .completed (Store.answers_append.mpr ⟨answered, answered'⟩) own'
        | @broken more c f answered' fails =>
          rw [← List.append_assoc]
          rw [← Store.replay_append] at fails
          exact .broken (Store.answers_append.mpr ⟨answered, answered'⟩) fails

theorem map {work : StoreM α} (h : Reports work) (f : α → β) :
    Reports (do let a ← work; return f a) := h.bind fun a => pure (f a)

/-- A single call reports its fault. -/
theorem call {work : StoreM α} {c : Call} {answer : Store → Except Fault α}
    (hw : ∀ s, work s = (Store.answer (answer s), s.after c)) (hf : ∀ s, s.fault? c = Store.faultOf (answer s)) :
    Reports work := by
  intro s
  refine ⟨[c], by rw [hw]; rfl, ?_⟩
  rw [hw]
  have hfault := hf s
  cases ha : answer s with
  | ok a =>
    rw [ha] at hfault
    exact .completed (Store.answers_singleton.mpr hfault) fun e he => nomatch he
  | error f =>
    rw [ha] at hfault
    exact @Course.broken _ s [] c f trivial hfault

end Reports

/-! ## Calls -/

namespace Store

theorem next_snd {α : Type} (default : α) (answers : List (Except Fault α)) :
    (next default answers).2 = answers.tail := by
  cases answers <;> rfl

variable (database collection : String)

theorem reports_aggregate (pipeline : List Value) : Reports (aggregate collection pipeline) := by
  refine .call (c := .aggregate collection pipeline) (fun s => ?_) fun s => rfl
  rw [aggregate, next_snd]
  rfl

theorem reports_insert (document : Document) : Reports (insert collection document) := by
  refine .call (c := .insert collection document) (fun s => ?_) fun s => rfl
  rw [insert, next_snd]
  rfl

theorem reports_update (filter change : Value) : Reports (update collection filter change) := by
  refine .call (c := .update collection filter change) (fun s => ?_) fun s => rfl
  rw [update, next_snd]
  rfl

theorem reports_delete (filter : Value) : Reports (delete collection filter) := by
  refine .call (c := .delete collection filter) (fun s => ?_) fun s => rfl
  rw [delete, next_snd]
  rfl

theorem reports_collectionInfo (name : String) : Reports (collectionInfo database name) := by
  refine .call (c := .listCollections database name) (fun s => rfl) fun s => ?_
  rw [fault?]
  cases s.infos <;> rfl

theorem reports_databaseNames : Reports databaseNames := by
  refine .call (c := .listDatabases) (fun s => rfl) fun s => ?_
  rw [fault?]
  cases s.databases <;> rfl

theorem reports_collectionNames : Reports (collectionNames database) :=
  .call (c := .listCollectionNames database) (fun _ => rfl) fun _ => rfl

end Store

end GridQuery

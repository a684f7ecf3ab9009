import GridQuery.Proofs.WorkCourse

/-! # Accesses to a counted page

The parts of a result are asked for in any order, and the page is bound to other collections in between. As
long as nothing is known, asking for a part runs the pipeline; once the documents and the total are known, it
leaves everything as it is. -/
namespace GridQuery

/-- What can be asked of a counted page. -/
inductive PagePart
  | page
  | count
  | documents

inductive PageAnswer
  | page (r : CountedPage.Result)
  | count (total : Value)
  | documents (data : List Value)

namespace PagePart

def answer (data : List Value) (total : Value) : PagePart → PageAnswer
  | page => .page ⟨data, total⟩
  | count => .count total
  | documents => .documents data

/-- Whether the part is taken for known. -/
def isKnown (c : CountedPage) : PagePart → Bool
  | page | documents => c.data.isSome
  | count => !c.total.isNull

end PagePart

inductive PageAccess
  | ask (part : PagePart)
  | bind (collection : String)

/-- A counted page and the store that it is run on. -/
abbrev PageSession := CountedPage × Store

namespace PageSession

def ask (t : PageSession) : PagePart → Reply PageSession PageAnswer
  | .page => (t.1.page t.2).map .page
  | .count => (t.1.count t.2).map .count
  | .documents => (t.1.documents t.2).map .documents

def access (t : PageSession) : PageAccess → PageSession
  | .ask part => (t.ask part).state
  | .bind collection => (t.1.withCollection collection, t.2)

def after (t : PageSession) (accesses : List PageAccess) : PageSession := accesses.foldl access t

/-- The answers to what is asked. -/
def answers (t : PageSession) : List PageAccess → List (Except Error PageAnswer)
  | [] => []
  | .ask part :: r => (t.ask part).answer :: (t.access (.ask part)).answers r
  | .bind collection :: r => (t.access (.bind collection)).answers r

@[simp] theorem after_nil (t : PageSession) : t.after [] = t := rfl

@[simp] theorem after_cons (t : PageSession) (a : PageAccess) (r : List PageAccess) :
    t.after (a :: r) = (t.access a).after r := rfl

theorem after_append (t : PageSession) (accesses more : List PageAccess) :
    t.after (accesses ++ more) = (t.after accesses).after more := List.foldl_append

/-- A part that is known is answered from what is known, and any other one by running the pipeline. -/
theorem ask_eq (t : PageSession) (part : PagePart) : t.ask part =
    if part.isKnown t.1 then ⟨.ok (part.answer (t.1.data.getD []) t.1.total), t⟩
    else (t.1.execute t.2).andThen fun u _ => ⟨.ok (part.answer (u.1.data.getD []) u.1.total), u⟩ := by
  obtain ⟨c, s⟩ := t
  have hmap {α : Type} (f : α → PageAnswer) (known : CountedPage → Bool) (result : CountedPage → α) :
      (CountedPage.ask known result c s).map f =
        if known c then ⟨.ok (f (result c)), (c, s)⟩
        else (c.execute s).andThen fun u _ => ⟨.ok (f (result u.1)), u⟩ := by
    rw [CountedPage.ask]
    split
    · rfl
    · cases h : c.execute s with
      | mk answer u => cases answer <;> rfl
  cases part with
  | page => exact hmap .page _ _
  | count => exact hmap .count _ _
  | documents => exact hmap .documents _ _

end PageSession

namespace Store

/-- The answer that is ready for the next aggregation. -/
def upcoming (s : Store) : Except Fault Value := (next .null s.aggregates).1

theorem aggregate_eq (collection : String) (pipeline : List Value) (s : Store) :
    aggregate collection pipeline s = (answer s.upcoming, s.after (.aggregate collection pipeline)) := by
  rw [aggregate, next_snd]
  rfl

theorem upcoming_mem {s : Store} {a : Except Fault Value} (h : s.upcoming = a) :
    a ∈ s.aggregates ∨ a = .ok .null := by
  subst h
  unfold upcoming
  cases s.aggregates with
  | nil => exact Or.inr rfl
  | cons a r => exact Or.inl List.mem_cons_self

end Store

namespace CountedPage

variable {c : CountedPage} {s : Store}

/-! ## What is known -/

/-- Neither documents nor a total are known. -/
structure Unexecuted (c : CountedPage) : Prop where
  data : c.data = none
  total : c.total = .null

/-- Documents and a total are known. -/
structure Executed (c : CountedPage) (data : List Value) (total : Int) : Prop where
  data : c.data = some data
  total : c.total = .int total

theorem unexecuted_init (pipeline : List Value) (collection : Option String)
    (dataBranch countBranch countField : Value) :
    (init pipeline collection dataBranch countBranch countField).Unexecuted := ⟨rfl, rfl⟩

theorem Unexecuted.ask (h : c.Unexecuted) (s : Store) (part : PagePart) : PageSession.ask (c, s) part =
    (c.execute s).andThen fun u _ => ⟨.ok (part.answer (u.1.data.getD []) u.1.total), u⟩ := by
  have hunknown : part.isKnown c = false := by
    cases part <;> simp [PagePart.isKnown, h.data, h.total, Value.isNull]
  simp [PageSession.ask_eq, hunknown]

variable {data : List Value} {total : Int}

theorem Executed.ask (h : c.Executed data total) (s : Store) (part : PagePart) :
    PageSession.ask (c, s) part = ⟨.ok (part.answer data (.int total)), (c, s)⟩ := by
  have hknown : part.isKnown c = true := by
    cases part <;> simp [PagePart.isKnown, h.data, h.total, Value.isNull]
  simp [PageSession.ask_eq, hknown, h.data, h.total]

theorem Executed.access (h : c.Executed data total) (s : Store) (a : PageAccess) :
    (PageSession.access (c, s) a).1.Executed data total ∧ (PageSession.access (c, s) a).2 = s := by
  cases a with
  | ask part =>
    rw [PageSession.access, h.ask]
    exact ⟨h, rfl⟩
  | bind collection => exact ⟨⟨h.data, h.total⟩, rfl⟩

/-! ## What a result document holds -/

/-- The value under a name, null where there is none. -/
def branch (fields : Document) (name : Value) : Value :=
  match name with
  | .text k => Value.entry fields k
  | _ => .null

@[simp] theorem branch_nil (name : Value) : branch [] name = .null := by
  cases name <;> rfl

/-- The value of a branch that counts stands for a total: it is missing or empty, or it is a list whose
first row has the total, or has no field for it. -/
inductive CountsTo (field : Value) : Value → Int → Prop
  | empty {v : Value} (hv : v.truthy = false) : CountsTo field v 0
  | missing {v : Value} {row : Document} {rest : List Value} (hv : v.items? = some (.document row :: rest))
      (hf : lookup? row field = .ok none) : CountsTo field v 0
  | counted {v : Value} {row : Document} {rest : List Value} {n : Int}
      (hv : v.items? = some (.document row :: rest)) (hf : lookup? row field = .ok (some (.int n))) :
      CountsTo field v n

theorem truthy_of_items? {v x : Value} {rest : List Value} (h : v.items? = some (x :: rest)) :
    v.truthy = true := by
  cases v <;> cases h <;> rfl

theorem totalOf_of_row {field v : Value} {row : Document} {rest : List Value}
    (h : v.items? = some (.document row :: rest)) :
    totalOf field v = (lookup? row field).map fun found => found.getD (.int 0) := by
  rw [totalOf, if_pos (truthy_of_items? h), h]

theorem totalOf_eq_int_iff {field v : Value} {n : Int} :
    totalOf field v = .ok (.int n) ↔ CountsTo field v n := by
  constructor
  · intro h
    unfold totalOf at h
    split at h
    · split at h
      · rename_i row rest hrows
        obtain ⟨found, hfound, hn⟩ := map_eq_ok_iff.mp h
        cases found with
        | none =>
          cases hn
          exact .missing hrows hfound
        | some total =>
          cases hn
          exact .counted hrows hfound
      · cases h
    · rename_i hempty
      cases h
      exact .empty (by simpa using hempty)
  · intro h
    cases h with
    | empty hv => simp [totalOf, hv]
    | missing hv hf =>
      rw [totalOf_of_row hv, hf]
      rfl
    | counted hv hf =>
      rw [totalOf_of_row hv, hf]
      rfl

theorem lookup?_eq_ok {name : Value} (h : isKey name = true) (fields : Document) :
    ∃ found, lookup? fields name = .ok found ∧ found.getD .null = branch fields name := by
  cases name with
  | text k => exact ⟨_, rfl, rfl⟩
  | _ => exact ⟨none, by simp [lookup?, h], rfl⟩

/-- What becomes of a counted page by a result document: first the documents are taken, and then the total. -/
theorem unwrap_eq (hd : isKey c.dataBranch = true) (hc : isKey c.countBranch = true) {v : Value}
    {fields : Document} (hv : v.IsTakenFor fields) : c.unwrap v =
      match if (branch fields c.dataBranch).truthy then itemsOf (branch fields c.dataBranch) else .ok [] with
      | .error e => ⟨.error e, c⟩
      | .ok data =>
        match totalOf c.countField (branch fields c.countBranch) with
        | .error e => ⟨.error e, { c with data := some data }⟩
        | .ok total => ⟨.ok (), { c with data := some data, total := total }⟩ := by
  obtain ⟨found, hfound, hbranch⟩ := lookup?_eq_ok hd fields
  obtain ⟨counted, hcounted, hcount⟩ := lookup?_eq_ok hc fields
  rw [← hbranch, ← hcount, unwrap, Value.isTakenFor_iff.mp hv]
  dsimp only
  rw [hfound, hcounted]
  dsimp only
  cases hitems : if (found.getD .null).truthy then itemsOf (found.getD .null) else .ok [] with
  | error e => rfl
  | ok data =>
    cases htotal : totalOf c.countField (counted.getD .null) with
    | error e => simp only [Except.bind, htotal]
    | ok total => simp only [Except.bind, htotal]

/-! ## Running the pipeline -/

theorem execute_of_unbound (hc : c.collection = none) (s : Store) : ∃ e, c.execute s = ⟨.error e, (c, s)⟩ := by
  rw [execute, hc]
  exact ⟨_, rfl⟩

variable {collection : String}

theorem execute_of_fault (hc : c.collection = some collection) {f : Fault} (hf : s.upcoming = .error f) :
    c.execute s = ⟨.error (Error.ofCall f), (c, s.after (.aggregate collection c.pipeline))⟩ := by
  rw [execute, hc]
  dsimp only
  rw [Store.aggregate_eq, hf]
  rfl

theorem execute_of_response (hc : c.collection = some collection) {v : Value} (hv : s.upcoming = .ok v) :
    c.execute s = (c.unwrap v).within (·, s.after (.aggregate collection c.pipeline)) := by
  rw [execute, hc]
  dsimp only
  rw [Store.aggregate_eq, hv]
  rfl

end CountedPage
end GridQuery

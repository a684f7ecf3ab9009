import GridQuery.Query.Intake
import GridQuery.Query.Criterion
import GridQuery.Query.Stage
import GridQuery.Text.Blank
import GridQuery.Text.Occurs
import GridQuery.Number.Numeral

/-! # Pagination

A page number and a page size; what cannot be read as an integer of 64 bits that is not negative is
replaced by the default. -/
namespace GridQuery

structure LimitHandler where
  defaultSize : Amount
  maxItems : Option Amount
  intake : Intake
  /-- The page and its size, once there was an input. -/
  window : Option (Int × Amount)

namespace LimitHandler

def handlerName : String := "MongoLimit"

/-- An amount above zero. -/
def positive (v : Value) : Except Error Amount :=
  match Amount.ofValue? v with
  | none => .error .shape
  | some a => if a.ltInt 0 then .ok a else .error (.requirement "")

def init (defaultSize maxItems : Value) : Except Error LimitHandler := do
  let size ← positive defaultSize
  match maxItems with
  | .null => return ⟨size, none, .fresh, none⟩
  | v =>
    let most ← positive v
    return ⟨size, some most, .fresh, none⟩

theorem init_fresh {defaultSize maxItems : Value} {h : LimitHandler}
    (hi : init defaultSize maxItems = .ok h) : h.intake = .fresh ∧ h.window = none := by
  obtain ⟨size, -, hi⟩ := bind_eq_ok_iff.mp hi
  split at hi
  · cases hi
    exact ⟨rfl, rfl⟩
  · obtain ⟨most, -, hi⟩ := bind_eq_ok_iff.mp hi
    cases hi
    exact ⟨rfl, rfl⟩

/-- An integer from zero up to the greatest one of 64 bits, or a text of one. -/
def readCount? (v : Value) : Option Int :=
  let n? := match v with
    | .int n => some n
    | .text s => Numeral.integer? (Text.trim s.toList)
    | _ => none
  n?.filter fun n => 0 ≤ n && n ≤ Number.greatest

/-- The size of a page: the requested one unless it is missing or zero, but no more than the maximum. -/
def pageSize (h : LimitHandler) (v : Value) : Amount :=
  let size := match readCount? v with
    | some n => if n = 0 then h.defaultSize else .int n
    | none => h.defaultSize
  match h.maxItems with
  | none => size
  | some most => Amount.min most size

/-- The page, or the first one if more documents than an integer of 64 bits would be skipped. -/
def pageNumber (v : Value) (size : Amount) : Int :=
  let page := (readCount? v).getD 0
  if (Amount.times page size).ltInt Number.greatest then 0 else page

def accept (h : LimitHandler) (page size : Value) : Reply LimitHandler Unit :=
  match h.intake.take handlerName (.tuple [page, size]) with
  | .error e => ⟨.error e, h⟩
  | .ok i =>
    let s := h.pageSize size
    ⟨.ok (), { h with intake := i, window := some (pageNumber page s, s) }⟩

/-- Takes a page and a page size, or a tuple of the two in place of the page. -/
def input (h : LimitHandler) (page size : Value) : Reply LimitHandler Unit :=
  if h.intake.received then ⟨.error (.inputReused handlerName), h⟩
  else match page with
    | .tuple [page, size] => h.accept page size
    | .tuple _ => ⟨.error .unacceptable, h⟩
    | page => h.accept page size

theorem accept_of_fresh {h : LimitHandler} (hr : h.intake.received = false) (page size : Value) :
    h.accept page size = ⟨.ok (), { h with
      intake := ⟨true, .tuple [page, size]⟩
      window := some (pageNumber page (h.pageSize size), h.pageSize size) }⟩ := by
  simp [accept, Intake.take, hr]

/-- An input that is refused leaves no trace, and any other one sets the window. -/
theorem input_ensures (h : LimitHandler) (page size : Value) :
    (h.input page size).Ensures
      (fun k => h.intake.received = false ∧ ∃ i w, k = { h with intake := i, window := some w })
      (fun k => k = h) := by
  unfold input
  split
  case isTrue hr => rfl
  case isFalse hr =>
    have hr : h.intake.received = false := by simpa using hr
    split
    · rw [accept_of_fresh hr]
      exact ⟨hr, _, _, rfl⟩
    · rfl
    · rw [accept_of_fresh hr]
      exact ⟨hr, _, _, rfl⟩

def skip (h : LimitHandler) : Except Error Amount :=
  match h.window with
  | none => .error .shape
  | some (page, size) => .ok (Amount.times page size)

def limit (h : LimitHandler) : Value :=
  match h.window with
  | none => .null
  | some (_, size) => size.toValue

def page (h : LimitHandler) : Value :=
  match h.window with
  | none => .null
  | some (page, _) => .int page

def statements (h : LimitHandler) : Except Error (List Value) :=
  match h.window with
  | none => .error .shape
  | some (page, size) => .ok (Stage.pageStatements (Amount.times page size) size)

def finalInput (h : LimitHandler) : Document := [("page", h.page), ("pageSize", h.limit)]

/-- Packs page and page size of a query object into one entry; two nulls make none. -/
def packDocument (q : Document) : Document :=
  if Table.contains q "page" || Table.contains q "pageSize" then
    let page := Value.entry q "page"
    let size := Value.entry q "pageSize"
    let rest := Table.erase (Table.erase q "page") "pageSize"
    if page.isNull && size.isNull then Table.erase rest "limit"
    else Table.put rest "limit" (.tuple [page, size])
  else q

theorem get?_packDocument_of_ne {q : Document} {key : String} (hp : key ≠ "page") (hs : key ≠ "pageSize")
    (hl : key ≠ "limit") : Table.get? (packDocument q) key = Table.get? q key := by
  unfold packDocument
  dsimp only
  split
  · split <;> simp [Table.get?_put, Table.get?_erase, hp.symm, hs.symm, hl.symm]
  · rfl

theorem entry_packDocument_of_ne {q : Document} {key : String} (hp : key ≠ "page") (hs : key ≠ "pageSize")
    (hl : key ≠ "limit") : Value.entry (packDocument q) key = Value.entry q key :=
  Value.entry_congr (get?_packDocument_of_ne hp hs hl)

/-- What pagination is given: nothing for two nulls, else both in a tuple. -/
theorem entry_limit_packDocument {q : Document} (hl : Table.get? q "limit" = none) :
    Value.entry (packDocument q) "limit" =
      if (Value.entry q "page").isNull && (Value.entry q "pageSize").isNull then .null
      else .tuple [Value.entry q "page", Value.entry q "pageSize"] := by
  unfold packDocument
  dsimp only
  split
  · split <;> simp [Value.entry, Table.get?_put, Table.get?_erase]
  · rename_i hc
    have hc : Table.get? q "page" = none ∧ Table.get? q "pageSize" = none := by
      simpa [Table.contains] using hc
    simp [Value.entry, hc, hl, Value.isNull]

/-- What was packed is taken as the page and the page size of the query object. -/
theorem input_packDocument {h : LimitHandler} (hr : h.intake.received = false) {q : Document}
    (hl : Table.get? q "limit" = none) :
    h.input (Value.entry (packDocument q) "limit") .null =
      h.accept (Value.entry q "page") (Value.entry q "pageSize") := by
  rw [entry_limit_packDocument hl]
  cases hp : Value.entry q "page" <;> cases hs : Value.entry q "pageSize" <;>
    simp [input, hr, Value.isNull]

/-- Packs any value that can be asked for the two keys; only a document can give them up. -/
def pack (v : Value) : Except Error Value :=
  let names := ["page", "pageSize"]
  match v with
  | .document q => .ok (.document (packDocument q))
  | .array items | .tuple items =>
    if items.any fun v => names.any fun n => v.isText n then .error .shape else .ok v
  | .text s =>
    if names.any fun n => Text.occursIn n.toList s.toList then .error .shape else .ok v
  | _ => .error .shape

end LimitHandler
end GridQuery

import Mathlib.Data.List.Forall2
import GridQuery.Proofs.DateReadings
import GridQuery.Proofs.StoreFaults
import GridQuery.Proofs.TextIdentifiers

/-! # Writes of documents with date fields

A document is written in at most two calls. The first one asks what is known about the collection; the second
one, which is made only if all of the dates can be read, writes the document with its dates. -/
namespace GridQuery

/-! ## Dates in a document -/

namespace DateField

/-- The declared type is the type of dates, or one of several types that may be it. -/
def AllowsDates (bsonType : Value) : Prop :=
  bsonType = .text "date" ∨ ∃ types, bsonType.items? = some types ∧ .text "date" ∈ types

/-- The properties declare dates under the name. -/
def Declared (properties : Document) (name : String) : Prop :=
  ∃ property declaration, (name, property) ∈ properties ∧ property.IsOptional declaration ∧
    AllowsDates (Value.entry declaration "bsonType")

/-- An entry as it is written: under the same key, with the date that its value stands for if it is a date
field, and with the same value otherwise. -/
def WrittenEntry (properties : Document) (entry written : String × Value) : Prop :=
  written.1 = entry.1 ∧ (Declared properties entry.1 → Stands entry.2 written.2) ∧
    (¬Declared properties entry.1 → written.2 = entry.2)

/-- A document as it is written, entry by entry. -/
def Written (properties : Document) : Document → Document → Prop := List.Forall₂ (WrittenEntry properties)

theorem isDateType_iff {v : Value} : isDateType v = true ↔ AllowsDates v := by
  have hmem (types : List Value) : types.any (·.isText "date") = true ↔ .text "date" ∈ types := by
    rw [List.any_eq_true]
    constructor
    · rintro ⟨v, hv, hdate⟩
      cases v <;> simp_all [Value.isText]
    · exact fun h => ⟨_, h, rfl⟩
  cases v with
  | text s => simp [isDateType, AllowsDates, Value.items?]
  | array types => simp [isDateType, AllowsDates, Value.items?, hmem]
  | tuple types => simp [isDateType, AllowsDates, Value.items?, hmem]
  | _ => simp [isDateType, AllowsDates, Value.items?]

theorem declaresDate_of_isOptional {v : Value} {d : Document} (h : v.IsOptional d) :
    declaresDate v = .ok (isDateType (Value.entry d "bsonType")) := by
  rcases h with ⟨rfl, rfl⟩ | rfl
  · rfl
  · cases d <;> rfl

theorem declared_cons {name key : String} {property : Value} {d r : Document} (h : property.IsOptional d) :
    Declared ((key, property) :: r) name ↔
      name = key ∧ AllowsDates (Value.entry d "bsonType") ∨ Declared r name := by
  constructor
  · rintro ⟨property', d', hmem, hd', hdate⟩
    rcases List.mem_cons.mp hmem with heq | hmem
    · cases heq
      rw [h.unique hd']
      exact Or.inl ⟨rfl, hdate⟩
    · exact Or.inr ⟨property', d', hmem, hd', hdate⟩
  · rintro (⟨rfl, hdate⟩ | ⟨property', d', hmem, hd', hdate⟩)
    · exact ⟨property, d, List.mem_cons_self, h, hdate⟩
    · exact ⟨property', d', List.mem_cons_of_mem _ hmem, hd', hdate⟩

theorem namesIn_of_isOptional {properties : Document} (h : ∀ p ∈ properties, ∃ d, p.2.IsOptional d) :
    ∃ names, namesIn properties = .ok names ∧ ∀ name, name ∈ names ↔ Declared properties name := by
  induction properties with
  | nil => exact ⟨[], rfl, fun name => by simp [Declared]⟩
  | cons p r ih =>
    obtain ⟨key, property⟩ := p
    obtain ⟨d, hd⟩ := h _ List.mem_cons_self
    obtain ⟨names, hnames, hmem⟩ := ih fun p hp => h p (List.mem_cons_of_mem _ hp)
    refine ⟨if isDateType (Value.entry d "bsonType") then key :: names else names, ?_, fun name => ?_⟩
    · rw [namesIn, declaresDate_of_isOptional hd, hnames]
      rfl
    · rw [declared_cons hd, ← hmem, ← isDateType_iff]
      split <;> simp_all

theorem read_cases (field : String) {v : Value} (hw : v.writable = true) :
    (∃ date, read field v = .ok date ∧ Stands v date) ∨
      ¬IsReadable v ∧ read field v = .error (.invalidValue field "date" v .date) := by
  by_cases hnull : v = .null
  · subst hnull
    exact Or.inl ⟨.null, rfl, .null⟩
  have hread : read field v =
      (moment? v).elim (.error (Error.ofValue field "date" v .date)) fun m => .ok (.date m) := by
    unfold read
    split
    · exact absurd rfl hnull
    · cases moment? v <;> rfl
  cases hm : moment? v with
  | some m => exact Or.inl ⟨.date m, by rw [hread, hm, Option.elim_some], stands_of_moment? hm⟩
  | none =>
    have hunreadable : ¬IsReadable v := by simp [isReadable_iff_moment? hnull, hm]
    have hwhole : v.obstacle? Stack.messageRoom = none := Value.writable_iff_obstacle?.mp hw
    exact Or.inr ⟨hunreadable, by rw [hread, hm, Option.elim_none, Error.ofValue, hwhole]⟩

/-- What becomes of one entry. -/
theorem readEntry_cases {dates : List String} {properties : Document}
    (hdates : ∀ name, name ∈ dates ↔ Declared properties name) (key : String) {v : Value}
    (hw : v.writable = true) :
    (∃ date, (if dates.contains key then read key v else .ok v) = .ok date ∧
      WrittenEntry properties (key, v) (key, date)) ∨
    Declared properties key ∧ ¬IsReadable v ∧
      (if dates.contains key then read key v else .ok v) = .error (.invalidValue key "date" v .date) := by
  by_cases hd : Declared properties key
  · have hc : dates.contains key = true := by simp [hdates, hd]
    rw [if_pos hc]
    rcases read_cases key hw with ⟨date, hr, hs⟩ | ⟨hs, hr⟩
    · exact Or.inl ⟨date, hr, rfl, fun _ => hs, fun h => absurd hd h⟩
    · exact Or.inr ⟨hd, hs, hr⟩
  · have hc : ¬dates.contains key = true := by simp [hdates, hd]
    rw [if_neg hc]
    exact Or.inl ⟨v, rfl, rfl, fun h => absurd h hd, fun _ => rfl⟩

/-- Either all date fields of a document are read, or the first that cannot be read is refused. -/
theorem readFields_cases {dates : List String} {properties : Document}
    (hdates : ∀ name, name ∈ dates ↔ Declared properties name) {d : Document}
    (hw : Value.fieldsWritable d = true) :
    (∃ written, readFields dates d = .ok written ∧ Written properties d written) ∨
    ∃ name v, (name, v) ∈ d ∧ Declared properties name ∧ ¬IsReadable v ∧
      readFields dates d = .error (.invalidValue name "date" v .date) := by
  induction d with
  | nil => exact Or.inl ⟨[], rfl, .nil⟩
  | cons entry r ih =>
    obtain ⟨key, v⟩ := entry
    rw [Value.fieldsWritable, Bool.and_eq_true] at hw
    rw [readFields_cons]
    rcases readEntry_cases hdates key hw.1 with ⟨date, hr, hentry⟩ | ⟨hd, hs, hr⟩
    · rw [hr]
      rcases ih hw.2 with ⟨written, hrest, hwritten⟩ | ⟨name, v', hmem, hd, hs, hrest⟩
      · exact Or.inl ⟨(key, date) :: written, by rw [hrest]; rfl, .cons hentry hwritten⟩
      · exact Or.inr ⟨name, v', List.mem_cons_of_mem _ hmem, hd, hs, by rw [hrest]; rfl⟩
    · exact Or.inr ⟨key, v, List.mem_cons_self, hd, hs, by rw [hr]; rfl⟩

theorem coerce_cases {properties d : Document} (hp : ∀ p ∈ properties, ∃ d, p.2.IsOptional d)
    (hw : Value.fieldsWritable d = true) :
    (∃ written, coerce (.document properties) d = .ok written ∧ Written properties d written) ∨
    ∃ name v, (name, v) ∈ d ∧ Declared properties name ∧ ¬IsReadable v ∧
      coerce (.document properties) d = .error (.invalidValue name "date" v .date) := by
  obtain ⟨dates, hnames, hdates⟩ := namesIn_of_isOptional hp
  have hcoerce : coerce (.document properties) d = readFields dates d := by
    rw [coerce, names, hnames]
    rfl
  rw [hcoerce]
  exact readFields_cases hdates hw

/-- A date field that cannot be read stands in the way of the whole document. -/
theorem Written.readable {properties d written : Document} (h : Written properties d written) :
    ∀ entry ∈ d, Declared properties entry.1 → IsReadable entry.2 :=
  ((List.forall₂_and_left _ _).mp (h.imp fun _ _ hentry => ⟨fun hd => ⟨_, hentry.2.1 hd⟩, hentry⟩)).1

end DateField

/-! ## What is known about a collection -/

/-- The first description under the name of a collection; one that is not known has an empty one. -/
def Store.infoOf (infos : List Document) (collection : String) : Document :=
  (infos.find? fun info => (Value.entry info "name").isText collection).getD []

/-- A description declares the properties of documents. Each of the steps to them may be missing, and then
there are none. -/
def Declares (info properties : Document) : Prop :=
  ∃ options validator schema,
    (Value.entry info "options").IsOptional options ∧
    (Value.entry options "validator").IsOptional validator ∧
    (Value.entry validator "$jsonSchema").IsOptional schema ∧
    (Value.entry schema "properties").IsOptional properties

namespace Crud

variable (database collection : String) {s : Store}

theorem entryOf_of_isOptional {v : Value} {d : Document} (h : v.IsOptional d) (key : String) :
    entryOf v key = .ok (Value.entry d key) := by
  rcases h with ⟨rfl, rfl⟩ | rfl
  · rfl
  · cases d <;> rfl

theorem validatorSchema_of_error {f : Fault} (h : s.infos = .error f) :
    validatorSchema database collection s =
      (.error (.ofCall f), s.record (.listCollections database collection)) := by
  have hlookup : Store.collectionInfo database collection s =
      (.error (.ofCall f), s.record (.listCollections database collection)) := by
    rw [Store.collectionInfo, h]
    rfl
  exact run_bind_error (run_bind_error hlookup)

theorem validator_of_ok {infos : List Document} (h : s.infos = .ok infos) : validator database collection s =
    (entryOf (Value.entry (Store.infoOf infos collection) "options") "validator",
      s.record (.listCollections database collection)) := by
  have hlookup : Store.collectionInfo database collection s =
      (.ok (infos.find? fun info => (Value.entry info "name").isText collection),
        s.record (.listCollections database collection)) := by
    rw [Store.collectionInfo, h]
    rfl
  rw [validator, run_bind_ok hlookup, Store.infoOf]
  cases infos.find? fun info => (Value.entry info "name").isText collection <;> rfl

theorem validatorSchema_of_declares {infos : List Document} (h : s.infos = .ok infos) {properties : Document}
    (hd : Declares (Store.infoOf infos collection) properties) :
    validatorSchema database collection s =
      (.ok (.document properties), s.record (.listCollections database collection)) := by
  obtain ⟨options, v, schema, hoptions, hv, hschema, hproperties⟩ := hd
  have hvalidator := validator_of_ok database collection h
  rw [entryOf_of_isOptional hoptions] at hvalidator
  rw [validatorSchema, run_bind_ok hvalidator, entryOf_of_isOptional hv, pureWork_ok_bind,
    entryOf_of_isOptional hschema, pureWork_ok_bind, hproperties.orEmpty]
  rfl

theorem prepareDocument_of_not_document (action : String) {v : Value} (h : ∀ d, v ≠ .document d) :
    prepareDocument action database collection v s = (.error (.query (.documentShape action v.kind)), s) := by
  have hv : documentOf action v = .error (.query (.documentShape action v.kind)) := by
    cases v <;> first | rfl | exact absurd rfl (h _)
  rw [prepareDocument, hv]
  rfl

theorem prepareDocument_of_error (action : String) (d : Document) {f : Fault} (h : s.infos = .error f) :
    prepareDocument action database collection (.document d) s =
      (.error (.ofCall f), s.record (.listCollections database collection)) := by
  rw [prepareDocument, documentOf, pureWork_ok_bind]
  exact run_bind_error (validatorSchema_of_error database collection h)

theorem prepareDocument_of_declares (action : String) (d : Document) {infos : List Document}
    (h : s.infos = .ok infos) {properties : Document}
    (hd : Declares (Store.infoOf infos collection) properties) :
    prepareDocument action database collection (.document d) s =
      (DateField.coerce (.document properties) d, s.record (.listCollections database collection)) := by
  rw [prepareDocument, documentOf, pureWork_ok_bind]
  exact run_bind_ok (validatorSchema_of_declares database collection h hd)

end Crud

/-! ## Writes -/

/-- The ways to write a document to a collection. -/
inductive Write
  | create
  | update (id : Value)

namespace Write
open TextIdentifiers

def action : Write → String
  | create => "create"
  | update _ => "update"

def run [Library] (w : Write) (database collection : String) (v : Value) : StoreM Document :=
  match w with
  | create => Crud.create database collection v
  | update id => Crud.update database collection id v

/-- The call that writes a document: an update sets the fields of the document that the identifier stands for. -/
inductive Calls [Library] (database collection : String) (d : Document) : Write → Call → Prop
  | create : Calls database collection d .create (.insert (database ++ "." ++ collection) d)
  | update {id target : Value} (h : Identifies id target) :
      Calls database collection d (.update id)
        (.update (database ++ "." ++ collection) (.single "_id" target) (.single "$set" (.document d)))

variable [Library] (w : Write) (database collection : String) {v : Value} {s t : Store}

theorem run_of_error {e : Error}
    (h : Crud.prepareDocument w.action database collection v s = (.error e, t)) :
    w.run database collection v s = (.error e, t) := by
  cases w <;> exact run_bind_error h

/-- Once the document is prepared, it is written with one call. -/
theorem calls_run {d : Document}
    (h : Crud.prepareDocument w.action database collection v s = (.ok d, t)) :
    ∃ call, w.Calls database collection d call ∧
      (w.run database collection v s).2.calls = t.calls ++ [call] := by
  cases w with
  | create =>
    change Crud.prepareDocument "create" database collection v s = (.ok d, t) at h
    refine ⟨_, .create, ?_⟩
    rw [run, Crud.create, run_bind_ok h, state_run_map, Store.calls_insert]
    rfl
  | update id =>
    exact ⟨_, .update (identifies_asIdentifier id), AddressedDocuments.calls_update_by database collection id h⟩

end Write

/-- The store has failed; that it turned a document down is one way of this. -/
def Error.IsExecution : Error → Prop
  | execution .. | validation .. => True
  | _ => False

theorem Fault.isExecution_ofCall {f : Fault} (h : f.isStoreFault = true)
    (hinfo : f.IsRejection → ∃ info, f.HasInfo info) : (Error.ofCall f).IsExecution := by
  rw [Error.ofCall, if_pos h]
  by_cases hr : f.IsRejection
  · obtain ⟨info, hi⟩ := hinfo hr
    rw [ofFault_of_rejection hr hi]
    trivial
  · rw [ofFault_of_not_rejection hr]
    trivial

namespace DatedWrites
open DateField

/-- A collection of which a date may be kept under "since". -/
def since : Document := [("since", .single "bsonType" (.array [.text "date", .text "null"]))]

def dated : Store := { Store.empty with
  infos := .ok [[("name", .text "phones"), ("options",
    .single "validator" (.single "$jsonSchema" (.single "properties" (.document since))))]] }

theorem declared_since {name : String} : Declared since name ↔ name = "since" := by
  have hproperty : Value.IsOptional (.single "bsonType" (.array [.text "date", .text "null"])) _ := Or.inr rfl
  have hdates : AllowsDates (.array [.text "date", .text "null"]) := Or.inr ⟨_, rfl, List.mem_cons_self⟩
  rw [since, declared_cons hproperty]
  simp [Value.entry, Table.get?, hdates, Declared]

def phone : Document := [("name", .text "X1"), ("since", .int 0)]

def doubtful : Document := [("name", .text "X2"), ("since", .bool true)]

end DatedWrites
end GridQuery

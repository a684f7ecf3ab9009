import Mathlib.Data.String.Basic
import GridQuery.Proofs.PipelineIntake

/-! # Settings and the parts that ask for them

One table of settings is asked for by one part after the other. Each part is given the settings of its
constructor. What was asked for decides which parts count as switched off, and which settings are strays: those
that no part has asked for and that switch none of them. A pipeline asks for all of its parts, and is refused
for its strays. -/
namespace GridQuery

/-! ## Tables -/

namespace Table

variable {α : Type} {t : Table α} {key : String} {a : α}

theorem get?_eq_some_iff (h : (keys t).Nodup) : get? t key = some a ↔ (key, a) ∈ t := by
  induction t with
  | nil => simp
  | cons e r ih =>
    obtain ⟨k, b⟩ := e
    have hr : (keys r).Nodup := (List.nodup_cons.mp h).2
    have hk : k ∉ keys r := (List.nodup_cons.mp h).1
    by_cases hkey : k = key
    · subst hkey
      have hnot : (k, a) ∉ r := fun hm => hk (List.mem_map_of_mem hm)
      simp [get?, hnot, eq_comm]
    · simp [get?, hkey, ih hr, Ne.symm hkey]

/-- Entries that are changed under their keys. -/
theorem get?_map (f : String → α → α) (t : Table α) (key : String) :
    get? (t.map fun e => (e.1, f e.1 e.2)) key = (get? t key).map (f key) := by
  induction t with
  | nil => rfl
  | cons e r ih =>
    by_cases h : e.1 = key
    · simp [get?, h]
    · simpa [get?, h] using ih

end Table

/-! ## Constructors -/

namespace Signature

variable {s : Signature} {name : String} {v : Value}

/-- An argument that may be left out and is given by name, with its default. -/
def Defaulted (s : Signature) (name : String) (v : Value) : Prop :=
  ∃ p ∈ s.parameters, p.name = name ∧ p.default = some v ∧ (p.passing = .byPlaceOrName ∨ p.passing = .byName)

theorem mem_defaults_iff : (name, v) ∈ s.defaults ↔ s.Defaulted name v := by
  simp only [defaults, List.mem_filterMap, Parameter.setting?_eq_some_iff, Defaulted]
  constructor
  · rintro ⟨p, hp, hpassing, hname, hv⟩
    exact ⟨p, hp, hname, hv, hpassing⟩
  · rintro ⟨p, hp, hname, hv, hpassing⟩
    exact ⟨p, hp, hpassing, hname, hv⟩

theorem keys_filterMap_sublist (ps : List Parameter) :
    List.Sublist (Table.keys (ps.filterMap Parameter.setting?)) (ps.map Parameter.name) := by
  induction ps with
  | nil => exact List.Sublist.slnil
  | cons p ps ih =>
    cases hp : p.setting? with
    | none =>
      rw [List.filterMap_cons_none hp]
      exact ih.cons _
    | some e =>
      have hname : e.1 = p.name := (Parameter.setting?_eq_some_iff.mp hp).2.1.symm
      rw [List.filterMap_cons_some hp, List.map_cons, ← hname]
      exact ih.cons_cons _

theorem nodup_keys_defaults (s : Signature) : (Table.keys s.defaults).Nodup :=
  s.distinct.sublist (keys_filterMap_sublist s.parameters)

theorem get?_defaults_iff : Table.get? s.defaults name = some v ↔ s.Defaulted name v := by
  rw [Table.get?_eq_some_iff s.nodup_keys_defaults, mem_defaults_iff]

theorem mem_keys_defaults_iff : name ∈ Table.keys s.defaults ↔ ∃ v, s.Defaulted name v := by
  rw [← Table.get?_isSome_iff, Option.isSome_iff_exists]
  simp only [get?_defaults_iff]

theorem pluck_nil (s : Signature) (table : Document) :
    s.pluck table [] = s.defaults.map fun e => (e.1, (Table.get? table e.1).getD e.2) := by
  simp [pluck]

theorem keys_pluck (s : Signature) (table : Document) :
    Table.keys (s.pluck table []) = Table.keys s.defaults := by
  simp [pluck_nil, Table.keys]

theorem get?_pluck (s : Signature) (table : Document) (name : String) :
    Table.get? (s.pluck table []) name =
      (Table.get? s.defaults name).map fun d => (Table.get? table name).getD d := by
  rw [pluck_nil, Table.get?_map fun name d => (Table.get? table name).getD d]

/-- Settings that were plucked are not changed by plucking them again. -/
theorem pluck_pluck (s : Signature) (table : Document) :
    s.pluck (s.pluck table []) [] = s.pluck table [] := by
  rw [pluck_nil s (s.pluck table []), pluck_nil s table]
  apply List.map_congr_left
  intro e he
  have hd : Table.get? s.defaults e.1 = some e.2 := (Table.get?_eq_some_iff s.nodup_keys_defaults).mpr he
  rw [← pluck_nil, get?_pluck, hd]
  rfl

end Signature

namespace SettingsRouting

/-! ## Requests -/

/-- A part asks for its settings, with the constructor of its handler. -/
structure Request where
  part : String
  signature : Signature

/-- Settings that were asked for one after the other. -/
def after (s : Settings) (requests : List Request) : Settings :=
  requests.foldl (fun s r => (s.supply r.part r.signature).1) s

/-- A setting is among the arguments of a constructor that was asked with, or switches a part that asked. -/
def Reaches (requests : List Request) (key : String) : Prop :=
  ∃ r ∈ requests, (∃ v, r.signature.Defaulted key v) ∨ key = Settings.switchName r.part

theorem reaches_iff {requests : List Request} {key : String} : Reaches requests key ↔
    ∃ r ∈ requests, key ∈ Table.keys r.signature.defaults ∨ key = Settings.switchName r.part := by
  simp only [Reaches, Signature.mem_keys_defaults_iff]

instance (requests : List Request) (key : String) : Decidable (Reaches requests key) :=
  decidable_of_iff' _ reaches_iff

/-- The names of the strays in a table, each once and in ascending order. -/
structure ListsStrays (table : Document) (requests : List Request) (names : List String) : Prop where
  ascending : names.Pairwise (· < ·)
  mem_iff : ∀ key, key ∈ names ↔ key ∈ Table.keys table ∧ ¬Reaches requests key

/-- What settings answer once they were asked for by some parts. -/
structure Routed (table : Document) (requests : List Request) (s : Settings) : Prop where
  /-- The next part that asks is given the defaulted arguments of its constructor, from the table or by default. -/
  given : ∀ part signature, (Table.keys (s.supply part signature).2).Nodup ∧
    ∀ name v, Table.get? (s.supply part signature).2 name = some v ↔
      ∃ d, signature.Defaulted name d ∧ v = (Table.get? table name).getD d
  switched : ∀ part, s.isEnabled part = false ↔ (∃ r ∈ requests, r.part = part) ∧
    ∃ v, Table.get? table (Settings.switchName part) = some v ∧ v.truthy = false
  refused : ∀ owner, (∃ e, s.requireKnown owner = .error e) ↔ ∃ key ∈ Table.keys table, ¬Reaches requests key
  listed : ∀ owner e, s.requireKnown owner = .error e →
    ∃ names, e = .unknownSettings owner names ∧ ListsStrays table requests names

/-- What the fields of settings hold after some requests. -/
structure Recorded (table : Document) (requests : List Request) (s : Settings) : Prop where
  table_eq : s.table = table
  asked : ∀ name, name ∈ s.asked ↔ ∃ r ∈ requests, r.part = name
  known : ∀ name, name ∈ s.known ↔ ∃ r ∈ requests, ∃ v, r.signature.Defaulted name v
  off : ∀ name, name ∈ s.off ↔ (∃ r ∈ requests, r.part = name) ∧ Settings.leavesOn table name = false

theorem mem_insertNew_iff {names : List String} {name new : String} :
    name ∈ Settings.insertNew names new ↔ name ∈ names ∨ name = new := by
  rw [Settings.insertNew]
  split
  · rename_i h
    constructor
    · exact Or.inl
    · intro hname
      rcases hname with hname | rfl
      · exact hname
      · simpa using h
  · simp

theorem mem_foldl_insertNew_iff {names more : List String} {name : String} :
    name ∈ more.foldl Settings.insertNew names ↔ name ∈ names ∨ name ∈ more := by
  induction more generalizing names with
  | nil => simp
  | cons new more ih => rw [List.foldl_cons, ih, mem_insertNew_iff, List.mem_cons, or_assoc]

theorem exists_mem_append_singleton {requests : List Request} {r : Request} {P : Request → Prop} :
    (∃ x ∈ requests ++ [r], P x) ↔ (∃ x ∈ requests, P x) ∨ P r := by
  simp [or_and_right, exists_or]

variable {table : Document} {requests : List Request} {s : Settings}

theorem Recorded.supply (h : Recorded table requests s) (r : Request) :
    Recorded table (requests ++ [r]) (s.supply r.part r.signature).1 where
  table_eq := h.table_eq
  asked name := by
    rw [exists_mem_append_singleton, ← h.asked, eq_comm (a := r.part)]
    exact mem_insertNew_iff
  known name := by
    rw [exists_mem_append_singleton, ← h.known, ← Signature.mem_keys_defaults_iff,
      ← Signature.keys_pluck _ s.table]
    exact mem_foldl_insertNew_iff
  off name := by
    rw [exists_mem_append_singleton, or_and_right, ← h.off, ← h.table_eq]
    simp only [Settings.supply]
    split
    · rename_i hon
      constructor
      · exact Or.inl
      · intro hoff
        rcases hoff with hoff | ⟨rfl, hoff⟩
        · exact hoff
        · rw [hon] at hoff
          cases hoff
    · rename_i hoff
      rw [mem_insertNew_iff]
      apply or_congr_right
      constructor
      · rintro rfl
        exact ⟨rfl, by simpa using hoff⟩
      · rintro ⟨hname, _⟩
        exact hname.symm

theorem Recorded.after (h : Recorded table requests s) (more : List Request) :
    Recorded table (requests ++ more) (after s more) := by
  induction more generalizing requests s with
  | nil => simpa [SettingsRouting.after] using h
  | cons r more ih =>
    have hrest := ih (h.supply r)
    rwa [List.append_assoc] at hrest

theorem recorded_of_ofValue (h : Settings.ofValue (.document table) = .ok s) : Recorded table [] s := by
  cases h
  exact ⟨rfl, by simp, by simp, by simp⟩

/-! ## Answers -/

theorem leavesOn_eq_false_iff {part : String} : Settings.leavesOn table part = false ↔
    ∃ v, Table.get? table (Settings.switchName part) = some v ∧ v.truthy = false := by
  unfold Settings.leavesOn
  cases Table.get? table (Settings.switchName part) <;> simp

theorem pairwise_sorted (names : List String) : (Settings.sorted names).Pairwise (· ≤ ·) := by
  have htrans (a b c : String) : decide (a ≤ b) = true → decide (b ≤ c) = true → decide (a ≤ c) = true := by
    simp only [decide_eq_true_eq]
    exact le_trans
  have htotal (a b : String) : (decide (a ≤ b) || decide (b ≤ a)) = true := by
    simpa using le_total a b
  exact (List.pairwise_mergeSort htrans htotal names).imp of_decide_eq_true

theorem perm_sorted (names : List String) : (Settings.sorted names).Perm names :=
  List.mergeSort_perm names _

theorem Recorded.isStray_iff (h : Recorded table requests s) (key : String) :
    (!(s.known.contains key || (s.asked.map Settings.switchName).contains key)) = true ↔
      ¬Reaches requests key := by
  simp only [Bool.not_eq_true', ← Bool.not_eq_true, Bool.or_eq_true, List.contains_iff_mem, List.mem_map, h.known,
    h.asked, Reaches]
  apply not_congr
  constructor
  · intro hkey
    rcases hkey with ⟨r, hr, hv⟩ | ⟨part, ⟨r, hr, rfl⟩, rfl⟩
    · exact ⟨r, hr, Or.inl hv⟩
    · exact ⟨r, hr, Or.inr rfl⟩
  · intro ⟨r, hr, hkey⟩
    rcases hkey with hv | rfl
    · exact Or.inl ⟨r, hr, hv⟩
    · exact Or.inr ⟨r.part, ⟨r, hr, rfl⟩, rfl⟩

theorem Recorded.mem_unknownNames_iff (h : Recorded table requests s) (key : String) :
    key ∈ s.unknownNames ↔ key ∈ Table.keys table ∧ ¬Reaches requests key := by
  rw [Settings.unknownNames, (perm_sorted _).mem_iff, List.mem_filter, h.isStray_iff, h.table_eq]

theorem Recorded.listsStrays (h : Recorded table requests s) (ht : (Table.keys table).Nodup) :
    ListsStrays table requests s.unknownNames where
  ascending := by
    have hnodup : s.unknownNames.Nodup := by
      rw [Settings.unknownNames, (perm_sorted _).nodup_iff, h.table_eq]
      exact ht.filter _
    exact ((pairwise_sorted _).and hnodup).imp fun hab => lt_of_le_of_ne hab.1 hab.2
  mem_iff := h.mem_unknownNames_iff

theorem requireKnown_eq_error_iff {owner : String} {e : Error} : s.requireKnown owner = .error e ↔
    s.unknownNames ≠ [] ∧ e = .unknownSettings owner s.unknownNames := by
  rw [Settings.requireKnown]
  split
  · rename_i hnil
    simp [hnil]
  · rename_i hne
    constructor
    · intro h
      cases h
      exact ⟨hne, rfl⟩
    · intro ⟨_, he⟩
      rw [he]

theorem Recorded.refused_iff (h : Recorded table requests s) (owner : String) :
    (∃ e, s.requireKnown owner = .error e) ↔ ∃ key ∈ Table.keys table, ¬Reaches requests key := by
  simp only [requireKnown_eq_error_iff, exists_and_left, exists_eq, and_true, ne_eq]
  rw [List.eq_nil_iff_forall_not_mem, not_forall]
  simp only [not_not, h.mem_unknownNames_iff]

theorem Recorded.routed (h : Recorded table requests s) (ht : (Table.keys table).Nodup) :
    Routed table requests s where
  given part signature := by
    constructor
    · rw [Settings.supply, Signature.keys_pluck]
      exact signature.nodup_keys_defaults
    · intro name v
      rw [Settings.supply, Signature.get?_pluck, Option.map_eq_some_iff, h.table_eq]
      simp only [Signature.get?_defaults_iff, eq_comm (b := v)]
  switched part := by
    rw [Settings.isEnabled, ← leavesOn_eq_false_iff, ← h.off]
    simp
  refused := h.refused_iff
  listed owner e he := by
    obtain ⟨_, rfl⟩ := requireKnown_eq_error_iff.mp he
    exact ⟨s.unknownNames, rfl, h.listsStrays ht⟩

/-! ## Pipelines -/

/-- The parts of a pipeline. -/
def parts : List (String × HandlerKind) :=
  [("search", .search), ("filter", .filter), ("sort", .sort), ("limit", .limit), ("count", .count)]

def pipelineRequests : List Request := parts.map fun e => ⟨e.1, e.2.signature⟩

/-- The constructors accept what the parts of a pipeline are given. -/
def Accepted (table : Document) : Prop :=
  ∀ e ∈ parts, (Handler.init e.2 (e.2.pluck table [])).isOk = true

instance (table : Document) : Decidable (Accepted table) :=
  inferInstanceAs (Decidable (∀ e ∈ parts, (Handler.init e.2 (e.2.pluck table [])).isOk = true))

theorem keys_pluck_allowed (kind : HandlerKind) (table : Document) :
    ((Table.keys (kind.pluck table [])).any fun k => !Table.contains kind.defaults k) = false := by
  rw [HandlerKind.pluck, Signature.keys_pluck, List.any_eq_false]
  intro k hk
  have hin : Table.contains kind.defaults k = true := (Table.get?_isSome_iff _ k).mpr hk
  simp [hin]

theorem filter_of_accepted (h : Accepted table) :
    ∃ g, FilterHandler.init (Value.entry (HandlerKind.filter.pluck table []) "force_filter") = .ok g := by
  obtain ⟨g, hg⟩ := exists_of_isOk (h ("filter", .filter) (by decide))
  rw [Handler.init, keys_pluck_allowed, if_neg Bool.false_ne_true] at hg
  obtain ⟨k, hk, _⟩ := map_eq_ok_iff.mp hg
  rw [HandlerKind.pluck, HandlerKind.pluck, Signature.pluck_pluck] at hk
  exact ⟨k, hk⟩

theorem limit_of_accepted (h : Accepted table) :
    ∃ g, LimitHandler.init (Value.entry (HandlerKind.limit.pluck table []) "default_page_size")
      (Value.entry (HandlerKind.limit.pluck table []) "max_items") = .ok g := by
  obtain ⟨g, hg⟩ := exists_of_isOk (h ("limit", .limit) (by decide))
  rw [Handler.init, keys_pluck_allowed, if_neg Bool.false_ne_true] at hg
  obtain ⟨k, hk, _⟩ := map_eq_ok_iff.mp hg
  rw [HandlerKind.pluck, HandlerKind.pluck, Signature.pluck_pluck] at hk
  exact ⟨k, hk⟩

theorem init_of_accepted (h : Accepted table) (hs : Settings.ofValue (.document table) = .ok s) :
    ∃ p, Pipeline.init (.document table) =
      ((after s pipelineRequests).requireKnown Pipeline.name).map fun _ => p := by
  obtain ⟨filter, hfilter⟩ := filter_of_accepted h
  obtain ⟨limit, hlimit⟩ := limit_of_accepted h
  cases hs
  have hvalue : (if (Value.document table).truthy then Value.document table else .document []) =
      .document table := by
    cases table <;> rfl
  let p : Pipeline := {
    settings := after ⟨table, [], [], []⟩ pipelineRequests
    search := .init (Value.entry (HandlerKind.search.pluck table []) "search_index")
    filter := filter
    sort := .init
    limit := limit
    count := .init (Value.entry (HandlerKind.count.pluck table []) "count_field") }
  refine ⟨p, ?_⟩
  rw [Pipeline.init, hvalue]
  change (FilterHandler.init (Value.entry (HandlerKind.filter.pluck table []) "force_filter") >>= _) = _
  rw [hfilter]
  change (LimitHandler.init (Value.entry (HandlerKind.limit.pluck table []) "default_page_size")
    (Value.entry (HandlerKind.limit.pluck table []) "max_items") >>= _) = _
  rw [hlimit]
  change ((after _ pipelineRequests).requireKnown Pipeline.name >>= fun _ => .ok p) = _
  cases (after _ pipelineRequests).requireKnown Pipeline.name <;> rfl

/-- A table of settings, whatever parts have asked for theirs: the next one is given the defaulted arguments of its
constructor, a part counts as switched off iff it has asked and its switch is set to something falsy, and the table
is refused iff it has strays, which are listed in order. So a pipeline whose constructors accept their settings is
refused iff there is a setting that reaches none of its parts. -/
theorem settings_routed {table : Document} (ht : (Table.keys table).Nodup) :
    ∃ s, Settings.ofValue (.document table) = .ok s ∧
      (∀ requests, Routed table requests (after s requests)) ∧
      (Accepted table →
        ((∃ names, Pipeline.init (.document table) = .error (.unknownSettings Pipeline.name names)) ↔
          ∃ key ∈ Table.keys table, ¬Reaches pipelineRequests key) ∧
        ∀ e, Pipeline.init (.document table) = .error e →
          ∃ names, e = .unknownSettings Pipeline.name names ∧ ListsStrays table pipelineRequests names) := by
  have hrouted (requests : List Request) : Routed table requests (after ⟨table, [], [], []⟩ requests) := by
    have hnew : Recorded table [] ⟨table, [], [], []⟩ := recorded_of_ofValue rfl
    exact (hnew.after requests).routed ht
  refine ⟨_, rfl, hrouted, fun haccepted => ?_⟩
  obtain ⟨p, hp⟩ := init_of_accepted haccepted rfl
  have hparts := hrouted pipelineRequests
  rw [hp]
  constructor
  · rw [← hparts.refused Pipeline.name]
    constructor
    · intro ⟨names, hnames⟩
      exact ⟨_, map_eq_error_iff.mp hnames⟩
    · intro ⟨e, he⟩
      obtain ⟨names, rfl, _⟩ := hparts.listed _ e he
      exact ⟨names, map_eq_error_iff.mpr he⟩
  · intro e he
    exact hparts.listed _ e (map_eq_error_iff.mp he)

/-- A switch, a setting, one that is misspelt and one that is not known. -/
def misspelt : Document :=
  [("sort_enabled", .int 0), ("count_field", .text "n"), ("max_itms", .int 5), ("Zone", .null)]

theorem settings_routed_misspelt : ∃ s, Settings.ofValue (.document misspelt) = .ok s ∧
    (after s pipelineRequests).isEnabled "sort" = false ∧
    Table.get? (s.supply "total" HandlerKind.count.signature).2 "count_field" = some (.text "n") ∧
    ∃ names, Pipeline.init (.document misspelt) = .error (.unknownSettings Pipeline.name names) ∧
      ListsStrays misspelt pipelineRequests names ∧ "Zone" ∈ names ∧ "max_itms" ∈ names := by
  obtain ⟨s, hs, hrouted, hpipeline⟩ := settings_routed (by decide : (Table.keys misspelt).Nodup)
  obtain ⟨hrefused, hlisted⟩ := hpipeline (by decide +kernel)
  have hzone : "Zone" ∈ Table.keys misspelt ∧ ¬Reaches pipelineRequests "Zone" := by decide
  have hitems : "max_itms" ∈ Table.keys misspelt ∧ ¬Reaches pipelineRequests "max_itms" := by decide
  obtain ⟨names, hnames⟩ := hrefused.mpr ⟨"Zone", hzone⟩
  obtain ⟨_, hsame, hstrays⟩ := hlisted _ hnames
  cases hsame
  refine ⟨s, hs, ?_, ?_, names, hnames, hstrays, (hstrays.mem_iff _).mpr hzone, (hstrays.mem_iff _).mpr hitems⟩
  · exact ((hrouted pipelineRequests).switched "sort").mpr ⟨by decide, .int 0, rfl, rfl⟩
  · exact (((hrouted []).given "total" HandlerKind.count.signature).2 "count_field" (.text "n")).mpr
      ⟨.text "total", ⟨.optional "count_field" (.text "total"), by simp [HandlerKind.signature], rfl, rfl,
        Or.inl rfl⟩, rfl⟩

end SettingsRouting
end GridQuery

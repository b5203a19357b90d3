import Lakehouse.Stats.Tables
import Lakehouse.Storage.Segregation
/-!
# Serving the statistics

`query_values` reads the manifests, then the values, and joins each value
with the manifest of its run. Of what the join makes of the rows it is
given, `serveRows_served` is the answer and `serveRows_unknown` the failure
that names a run without a manifest.
-/

namespace Lakehouse

namespace Stats

open Ingest

variable {F : Type} [PyFloat F] (L : Library)

/-! ## The query -/

/-- The ids of `KPI_DEFINITIONS`. -/
def kpiIds : List Text :=
  [lit "vessel_calls", lit "vessel_turnaround_hours", lit "waiting_time_hours",
    lit "berth_occupancy_pct", lit "throughput_tonnes", lit "truck_gate_turnaround_minutes",
    lit "booking_lead_time_hours", lit "slot_utilisation_pct", lit "declaration_clearance_hours"]

/-- `PERIOD_PATTERN.fullmatch`. -/
def isPeriod (t : Text) : Bool :=
  match t with
  | [a, b, c, d, dash, m, n] =>
    isDigit a && isDigit b && isDigit c && isDigit d && dash == 0x2D &&
      ((m == 0x30 && 0x31 ≤ n && n ≤ 0x39) || (m == 0x31 && 0x30 ≤ n && n ≤ 0x32))
  | _ => false

/-- `UNLOCODE_PATTERN.fullmatch`. -/
def isUnlocode (t : Text) : Bool :=
  let upper := fun c => 0x41 ≤ c && c ≤ 0x5A
  match t with
  | [a, b, c, d, e] => upper a && upper b && [c, d, e].all fun x => upper x || isDigit x
  | _ => false

/-- The parameters a query may have. -/
def queryParameters : List Text := [lit "kpi_id", lit "port_code", lit "period"]

def badRequest {α : Type} (detail : Text) : Except PyError α := .error (.statsApiError 400 detail)

/-- The filters among some parameters. -/
def readFilters (query : Members (List Text)) : List Text → Except PyError (Members Text)
  | [] => .ok []
  | parameter :: parameters =>
    match query.get parameter with
    | none => readFilters query parameters
    | some [value] => do return (parameter, value) :: (← readFilters query parameters)
    | some _ => badRequest (lit "parameter " ++ parameter ++ lit " repeats")

/-- **The equality filters of a query**, checked. -/
def queryFilters (query : Members (List Text)) : Except PyError (Members Text) := do
  let filters ← readFilters query queryParameters
  let unknown := (query.map Prod.fst).filter (· ∉ queryParameters)
  if unknown ≠ [] then
    badRequest (lit "unknown query parameters: " ++
      Text.join (lit ", ") (unknown.insertionSort (· ≤ ·)))
  else if ∃ kpi ∈ filters.get (lit "kpi_id"), kpi ∉ kpiIds then
    badRequest (lit "unknown kpi_id")
  else if ∃ period ∈ filters.get (lit "period"), isPeriod period = false then
    badRequest (lit "period must match YYYY-MM")
  else if ∃ port ∈ filters.get (lit "port_code"), isUnlocode port = false then
    badRequest (lit "port_code must be a UN/LOCODE")
  else .ok filters

/-! ## The join -/

/-- `row[column]`. -/
def cell (r : Row F) (column : String) : Except PyError (Cell F) :=
  match r.lookup column with
  | some v => .ok v
  | none => .error (.keyError (lit column))

/-- The column a filter is on. -/
def filterColumn (parameter : Text) : String := String.ofList (parameter.map Char.ofNat)

/-- Whether a row passes every filter. -/
def passes (r : Row F) : Members Text → Except PyError Bool
  | [] => .ok true
  | (parameter, value) :: filters => do
    if (← cell r (filterColumn parameter)).eq (.text value) then passes r filters else .ok false

/-- `runs_by_id`: the manifests under their ids. -/
def runsById (manifests : List (Row F)) : Except PyError (List (Cell F × Row F)) :=
  collect (manifests.map fun m => do return (← cell m "run_id", m))

/-- `runs_by_id.get(run_id)`: the last manifest under an id. -/
def findManifest (runs : List (Cell F × Row F)) (runId : Cell F) : Option (Row F) :=
  (runs.reverse.find? fun r => r.1.eq runId).map Prod.snd

/-- The columns a served value copies. -/
def servedColumns : List String :=
  ["run_id", "kpi_id", "period", "port_code", "ship_class", "value", "unit", "n_observations",
    "percentile", "coverage_note", "definition_version", "source_table", "table_version",
    "query_hash"]

/-- **A served value**: its row's columns, and the versions its run pinned. -/
structure ServedValue (F : Type) where
  fields : Row F
  computedAt : Text
  sourceTableVersions : Doc F

/-- `value.isoformat()`. -/
def isoformat : Cell F → Except PyError Text
  | .instant us => .ok (L.isoformat us)
  | _ => .error .attributeError

/-- `json.loads(value)`. -/
def loadsCell : Cell F → Except PyError (Doc F)
  | .text t => Json.loads defaultHooks t
  | _ => .error .typeError

/-- **The join of a value row with a manifest.** -/
def serve (row manifest : Row F) : Except PyError (ServedValue F) := do
  let fields ← collect (servedColumns.map fun c => do return (c, ← cell row c))
  let computedAt ← isoformat L (← cell row "computed_at")
  let sourceTableVersions ← loadsCell (← cell manifest "source_table_versions_json")
  return ⟨fields, computedAt, sourceTableVersions⟩

/-- The failure of a request that finds a value of a run it does not know. -/
def unknownRun (runId : Cell F) : PyError :=
  .statsApiError 503 (lit "value row references unknown run_id " ++ L.reprText runId.str)

/-- The values of the rows that pass. -/
def serveRows (filters : Members Text) (runs : List (Cell F × Row F)) :
    List (Row F) → Except PyError (List (ServedValue F))
  | [] => .ok []
  | row :: rows => do
    if ← passes row filters then
      let runId ← cell row "run_id"
      match findManifest runs runId with
      | none => .error (unknownRun L runId)
      | some manifest =>
        let item ← serve L row manifest
        return item :: (← serveRows filters runs rows)
    else serveRows filters runs rows

/-- The key served values are sorted by. -/
def servedKey (item : ServedValue F) : Text ×ₗ Text ×ₗ Text ×ₗ Text :=
  let text := fun c => (item.fields.get c).str
  toLex (text "kpi_id", toLex (text "port_code", toLex (text "ship_class", text "percentile")))

/-! ## The request -/

/-- `config.table_uri(name)`. -/
def goldTableUri (tableRoot name : Text) : Text := tableRoot ++ 0x2F :: name

def unavailable {α : Type} (detail : Text) : Script F α := .raise (.statsApiError 503 detail)

/-- **`_read_gold_table`.** -/
def readGoldTable (tableRoot name : Text) : Script F (List (Row F)) :=
  (Script.pure (Segregation.requireScopeTableUri L .platform (goldTableUri tableRoot name)) >>=
    fun _ => Script.openTable (goldTableUri tableRoot name)).orElse (fun e =>
      if e = .tableNotFound then unavailable (lit "gold table " ++ name ++
        lit " does not exist yet; no statistics run has been published")
      else unavailable (lit "gold table " ++ name ++ lit " is unreadable: " ++ e.text)) >>=
    fun table => Script.readRows table table.columns none

/-- **`query_values`.** -/
def queryValues (tableRoot : Text) (query : Members (List Text)) :
    Script F (List (ServedValue F)) := do
  let filters ← Script.pure (queryFilters query)
  let manifests ← readGoldTable L tableRoot runsTableName
  let runs ← Script.pure (runsById manifests)
  let rows ← readGoldTable L tableRoot valuesTableName
  let items ← Script.pure (serveRows L filters runs rows)
  return sortBy servedKey items

/-! ## What the join makes of its rows -/

section

variable {L} {filters : Members Text} {runs : List (Cell F × Row F)} {rows : List (Row F)}

/-- What no failure of the join but an unknown run is: the API's own error. -/
def NoApiError (e : PyError) : Prop := ∀ status detail, e ≠ .statsApiError status detail

/-- A `ValueError` is no answer of the API. -/
theorem NoApiError.of_valueError {e : PyError} (h : ValueError e) : NoApiError e := by
  rintro status detail rfl
  cases h

/-- What is no answer of the API is not the one of an unknown run. -/
theorem NoApiError.ne_unknownRun {e : PyError} (h : NoApiError e) (runId : Cell F) :
    e ≠ unknownRun L runId :=
  h _ _

omit [PyFloat F] in
/-- Reading a cell raises no answer of the API. -/
theorem cell_raises (r : Row F) (c : String) : OnlyRaises NoApiError (cell r c) := by
  unfold cell
  cases r.lookup c with
  | some v => exact .ok _
  | none => exact .error nofun

omit [PyFloat F] in
/-- A cell read is the row's. -/
theorem cell_eq_ok {r : Row F} {c : String} {v : Cell F} (h : cell r c = .ok v) : r.get c = v := by
  unfold cell at h
  cases hl : r.lookup c with
  | none =>
    rw [hl] at h
    cases h
  | some v' =>
    rw [hl] at h
    cases h
    rw [Row.get, hl]
    rfl

/-- Filtering a row raises no answer of the API. -/
theorem passes_raises (r : Row F) (filters : Members Text) :
    OnlyRaises NoApiError (passes r filters) := by
  induction filters with
  | nil => exact .ok _
  | cons f filters ih =>
    refine .bind (cell_raises r _) fun v _ => ?_
    split_ifs
    · exact ih
    · exact .ok _

/-- Serving a row raises no answer of the API. -/
theorem serve_raises (row manifest : Row F) : OnlyRaises NoApiError (serve L row manifest) := by
  refine .bind (.collect fun x hx => ?_) fun _ _ => .bind (cell_raises _ _) fun v _ =>
    .bind ?_ fun _ _ => .bind (cell_raises _ _) fun v _ => .bind ?_ fun _ _ => .ok _
  · obtain ⟨c, -, rfl⟩ := List.mem_map.1 hx
    exact .bind (cell_raises _ _) fun _ _ => .ok _
  · cases v <;> first | exact .ok _ | exact .error nofun
  · cases v with
    | text t => exact (Json.loads_raises defaultHooks_raise t).mono fun _ => .of_valueError
    | _ => exact .error nofun

omit [PyFloat F] in
/-- The manifests under their ids. -/
theorem runsById_eq_ok {manifests : List (Row F)} (h : runsById manifests = .ok runs) :
    runs = manifests.map fun m => (m.get "run_id", m) := by
  rw [runsById, collect_eq_ok, List.forall₂_map_left_iff] at h
  have heq : List.Forall₂ (· = ·) (manifests.map fun m => (m.get "run_id", m)) runs := by
    rw [List.forall₂_map_left_iff]
    refine h.imp fun m r hr => ?_
    obtain ⟨v, hv, hr⟩ := bind_eq_ok.1 hr
    rw [cell_eq_ok hv]
    cases hr
    rfl
  rw [List.forall₂_eq_eq_eq] at heq
  exact heq.symm

/-- A manifest found is one of the run. -/
theorem findManifest_eq_some {manifests : List (Row F)} {runId : Cell F} {m : Row F}
    (h : findManifest (manifests.map fun m => (m.get "run_id", m)) runId = some m) :
    m ∈ manifests ∧ (m.get "run_id").eq runId = true := by
  obtain ⟨r, hr, rfl⟩ := Option.map_eq_some_iff.1 h
  obtain ⟨m, hm, rfl⟩ := List.mem_map.1 (List.mem_reverse.1 (List.mem_of_find?_eq_some hr))
  have hid := List.find?_some hr
  exact ⟨hm, hid⟩

/-- Where none is found, no manifest is of the run. -/
theorem findManifest_eq_none {manifests : List (Row F)} {runId : Cell F}
    (h : findManifest (manifests.map fun m => (m.get "run_id", m)) runId = none) :
    ∀ m ∈ manifests, (m.get "run_id").eq runId = false := by
  intro m hm
  have h := List.find?_eq_none.1 (Option.map_eq_none_iff.1 h) (m.get "run_id", m)
    (List.mem_reverse.2 (List.mem_map_of_mem hm))
  exact Bool.eq_false_iff.2 h

/-- **What is served**: the values that pass, each joined with a manifest
found under its run's id. -/
theorem serveRows_served {items : List (ServedValue F)}
    (h : serveRows L filters runs rows = .ok items) :
    (∀ u ∈ rows, passes u filters = .ok true → ∃ m, findManifest runs (u.get "run_id") = some m) ∧
      ∀ item ∈ items, ∃ u ∈ rows, ∃ m, passes u filters = .ok true ∧
        findManifest runs (u.get "run_id") = some m ∧ serve L u m = .ok item := by
  induction rows generalizing items with
  | nil =>
    cases h
    exact ⟨nofun, nofun⟩
  | cons u rows ih =>
    obtain ⟨passed, hp, h⟩ := bind_eq_ok.1 h
    cases passed with
    | false =>
      obtain ⟨hall, hitems⟩ := ih h
      refine ⟨fun v hv hpv => ?_, fun item hi => ?_⟩
      · obtain rfl | hv := List.mem_cons.1 hv
        · rw [hp] at hpv
          cases hpv
        · exact hall v hv hpv
      · obtain ⟨v, hv, hrest⟩ := hitems item hi
        exact ⟨v, List.mem_cons_of_mem _ hv, hrest⟩
    | true =>
      obtain ⟨runId, hid, h⟩ := bind_eq_ok.1 h
      obtain rfl := cell_eq_ok hid
      cases hm : findManifest runs (u.get "run_id") with
      | none =>
        rw [hm] at h
        cases h
      | some m =>
        rw [hm] at h
        obtain ⟨item₀, hserve, h⟩ := bind_eq_ok.1 h
        obtain ⟨items, hrows, h⟩ := bind_eq_ok.1 h
        cases h
        obtain ⟨hall, hitems⟩ := ih hrows
        refine ⟨fun v hv hpv => ?_, fun item hi => ?_⟩
        · obtain rfl | hv := List.mem_cons.1 hv
          · exact ⟨m, hm⟩
          · exact hall v hv hpv
        · obtain rfl | hi := List.mem_cons.1 hi
          · exact ⟨u, List.mem_cons_self, m, hp, hm, hserve⟩
          · obtain ⟨v, hv, hrest⟩ := hitems item hi
            exact ⟨v, List.mem_cons_of_mem _ hv, hrest⟩

/-- **A run is unknown** where a value that passes has no manifest. -/
theorem serveRows_unknown {runId : Cell F}
    (h : serveRows L filters runs rows = .error (unknownRun L runId)) :
    ∃ u ∈ rows, passes u filters = .ok true ∧ findManifest runs (u.get "run_id") = none := by
  induction rows with
  | nil => cases h
  | cons u rows ih =>
    obtain h | ⟨passed, hp, h⟩ := bind_eq_error.1 h
    · exact absurd rfl ((passes_raises u filters _ h).ne_unknownRun runId)
    have later : serveRows L filters runs rows = .error (unknownRun L runId) →
        ∃ u' ∈ u :: rows, passes u' filters = .ok true ∧
          findManifest runs (u'.get "run_id") = none := by
      intro h
      obtain ⟨v, hv, hrest⟩ := ih h
      exact ⟨v, List.mem_cons_of_mem _ hv, hrest⟩
    cases passed with
    | false => exact later h
    | true =>
      obtain h | ⟨runId', hid, h⟩ := bind_eq_error.1 h
      · exact absurd rfl ((cell_raises u _ _ h).ne_unknownRun runId)
      obtain rfl := cell_eq_ok hid
      cases hm : findManifest runs (u.get "run_id") with
      | none => exact ⟨u, List.mem_cons_self, hp, hm⟩
      | some m =>
        rw [hm] at h
        obtain h | ⟨item, -, h⟩ := bind_eq_error.1 h
        · exact absurd rfl ((serve_raises u m _ h).ne_unknownRun runId)
        obtain h | ⟨items, -, h⟩ := bind_eq_error.1 h
        · exact later h
        · cases h

end

end Stats

end Lakehouse

import Lakehouse.Common.Dict
import Lakehouse.Common.Group
import Lakehouse.Common.Sort
import Lakehouse.Delta.Schema
import Lakehouse.Medallion.Report
/-!
# The gold layer of the ledger

`curate_gold` rebuilds the gold table of the `cvff` scope from its silver
table, one row for each ledger commitment. What it gathers of a commitment
in one pass is what its readings say as a set (`Gathers`), so a snapshot
holds every reading once and does not depend on the order of the table
(`curateGold_conserves`).
-/

namespace Lakehouse

namespace Medallion

open Ingest Segregation LakehouseScope

variable {F : Type} [PyFloat F]

/-! ## The pass -/

/-- What the curation reads of a silver row. -/
structure Reading (F : Type) where
  ledgerHash : Text
  occurredAt : Cell F
  sourceSystem : Text
  eventId : Text

def silverColumns : List String := ["ledger_commit_hash", "event_id", "occurred_at", "source_system"]

def readSilver (row : Row F) : Reading F where
  ledgerHash := (row.get "ledger_commit_hash").str
  occurredAt := row.get "occurred_at"
  sourceSystem := (row.get "source_system").str
  eventId := (row.get "event_id").str

/-- An entry of `curated`. The set of source systems is a list without
repetitions. -/
structure Commitment (F : Type) where
  ledgerCommitHash : Text
  recordCount : ℕ
  firstOccurredAt : Cell F
  lastOccurredAt : Cell F
  distinctSourceSystems : List Text
  eventIds : List Text

/-- `a < b`, of two values of a column; a null compares with nothing. -/
def cellLt : Cell F → Cell F → Except PyError Bool
  | .text a, .text b => .ok (decide (a < b))
  | .int a, .int b => .ok (decide (a < b))
  | .float a, .float b => .ok (PyFloat.lt a b)
  | .instant a, .instant b => .ok (decide (a < b))
  | .bool a, .bool b => .ok (!a && b)
  | _, _ => .error .typeError

/-- `min(a, b)`. -/
def cellMin (a b : Cell F) : Except PyError (Cell F) := do
  return if ← cellLt b a then b else a

/-- `max(a, b)`. -/
def cellMax (a b : Cell F) : Except PyError (Cell F) := do
  return if ← cellLt a b then b else a

/-- The body of the loop of `_curate_gold`. -/
def joinCommitment (entry : Option (Commitment F)) (r : Reading F) :
    Except PyError (Commitment F) :=
  match entry with
  | none => .ok
    { ledgerCommitHash := r.ledgerHash
      recordCount := 1
      firstOccurredAt := r.occurredAt
      lastOccurredAt := r.occurredAt
      distinctSourceSystems := [r.sourceSystem]
      eventIds := [r.eventId] }
  | some entry => do
    let firstOccurredAt ← cellMin entry.firstOccurredAt r.occurredAt
    let lastOccurredAt ← cellMax entry.lastOccurredAt r.occurredAt
    return { entry with
      recordCount := entry.recordCount + 1
      firstOccurredAt
      lastOccurredAt
      distinctSourceSystems := entry.distinctSourceSystems.insert r.sourceSystem
      eventIds := entry.eventIds ++ [r.eventId] }

/-- A silver row under its ledger hash. -/
def decodeSilver (row : Row F) : Except PyError (Option (Text × Reading F)) :=
  .ok (some ((readSilver row).ledgerHash, readSilver row))

/-- The loop of `_curate_gold`. -/
def curateRows (rows : List (Row F)) : Except PyError (Members (Commitment F)) :=
  groupPass decodeSilver joinCommitment [] rows

/-- `json.dumps(sorted(texts))`. -/
def sortedJson (texts : List Text) : Except PyError Text :=
  dumps {} (.arr ((texts.insertionSort (· ≤ ·)).map .str) : Doc F)

/-- The gold row of an entry. -/
def goldRow (entry : Commitment F) (sourceSystemsJson eventIdsJson : Text) (curatedAt : ℤ) : Row F :=
  [("ledger_commit_hash", .text entry.ledgerCommitHash), ("record_count", .int entry.recordCount),
    ("first_occurred_at", entry.firstOccurredAt), ("last_occurred_at", entry.lastOccurredAt),
    ("source_systems_json", .text sourceSystemsJson), ("event_ids_json", .text eventIdsJson),
    ("curated_at", .instant curatedAt)]

/-- The list comprehension of `_curate_gold`: each row has its own instant. -/
def curatedRows : List (Text × Commitment F) → Script F (List (Row F))
  | [] => .ret []
  | (_, entry) :: entries => do
    let sourceSystemsJson ← Script.pure (sortedJson (F := F) entry.distinctSourceSystems)
    let eventIdsJson ← Script.pure (sortedJson (F := F) entry.eventIds)
    let curatedAt ← Script.now
    let rows ← curatedRows entries
    return goldRow entry sourceSystemsJson eventIdsJson curatedAt :: rows

/-- The snapshot is written, and its version read back. -/
def writeGold (goldUri : Text) (rows : List (Row F)) : Script F (ℕ × ℕ) := do
  let source ← Script.pure (ArrowTable.fromPylist rows none)
  Script.overwriteTable goldUri (lit "cvff_gold_ledger_commitments")
    (lit "CVFF segregated gold table curated per ledger commitment") source
  let table ← Script.openTable goldUri
  return (table.version, rows.length)

variable {L : Library} (writer : SegregatedDeltaWriter L)

/-- What is made of the rows read. -/
def curateRead (rows : List (Row F)) : Script F (ℕ × ℕ) :=
  if rows = [] then
    .raise (.valueError (lit "cannot curate gold from an empty silver table"))
  else do
    let curated ← Script.pure (curateRows rows)
    let rows ← curatedRows (sortBy Prod.fst curated)
    let goldUri ← Script.pure (writer.tableUri (lit "gold"))
    writeGold goldUri rows

/-- **`curate_gold`.** -/
def curateGold : Script F (ℕ × ℕ) :=
  if writer.scope ≠ .cvff then
    .raise (.boundaryViolation (lit "gold curation is only defined for the cvff boundary"))
  else do
    let silverUri ← Script.pure (writer.tableUri (lit "silver"))
    let isThere ← deltaTableExists silverUri
    if isThere then do
      let table ← Script.openTable silverUri
      let rows ← Script.readRows table silverColumns none
      curateRead writer rows
    else .raise (.valueError (lit "cannot curate gold before the silver table exists"))

/-! ## What a commitment's readings say -/

/-- **The outermost of some instants**, by an order. A null is outermost
only where no instant is. -/
def Outermost (before : ℤ → ℤ → Prop) (cells : List (Cell F)) (c : Cell F) : Prop :=
  c ∈ cells ∧ ∀ us, .instant us ∈ cells → ∃ a, before a us ∧ c = .instant a

/-- The minimum of some instants. -/
abbrev Earliest (cells : List (Cell F)) (c : Cell F) : Prop := Outermost (· ≤ ·) cells c

/-- The maximum of some instants. -/
abbrev Latest (cells : List (Cell F)) (c : Cell F) : Prop := Outermost (· ≥ ·) cells c

/-- A column of timestamps. -/
def Timestamps (rows : List (Row F)) : Prop :=
  ∀ r ∈ rows, ArrowType.timestamp.Holds (r.get "occurred_at")

/-- The readings of one ledger hash. -/
def readingsOf (rows : List (Row F)) (ledgerHash : Text) : List (Reading F) :=
  (rows.map readSilver).filter fun r => r.ledgerHash = ledgerHash

/-- **An entry gathers some readings** of a ledger hash. -/
structure Gathers (ledgerHash : Text) (own : List (Reading F)) (entry : Commitment F) : Prop where
  ledgerHash : entry.ledgerCommitHash = ledgerHash
  count : entry.recordCount = own.length
  first : Earliest (own.map Reading.occurredAt) entry.firstOccurredAt
  last : Latest (own.map Reading.occurredAt) entry.lastOccurredAt
  systemsNodup : entry.distinctSourceSystems.Nodup
  systems : ∀ s, s ∈ entry.distinctSourceSystems ↔ s ∈ own.map Reading.sourceSystem
  eventIds : entry.eventIds = own.map Reading.eventId

/-- **A gold row sums up some readings of a ledger hash.** -/
structure SumsUp (ledgerHash : Text) (own : List (Reading F)) (row : Row F) : Prop where
  ledgerHash : row.get "ledger_commit_hash" = .text ledgerHash
  count : row.get "record_count" = .int own.length
  first : Earliest (own.map Reading.occurredAt) (row.get "first_occurred_at")
  last : Latest (own.map Reading.occurredAt) (row.get "last_occurred_at")
  systems : ∃ t, sortedJson (F := F) (own.map Reading.sourceSystem).dedup = .ok t ∧
    row.get "source_systems_json" = .text t
  eventIds : ∃ t, sortedJson (F := F) (own.map Reading.eventId) = .ok t ∧
    row.get "event_ids_json" = .text t

/-- **A snapshot conserves the silver rows.** -/
structure Conserves (silver gold : List (Row F)) : Prop where
  /-- No two rows have one ledger hash. -/
  distinct : (gold.map fun g => g.get "ledger_commit_hash").Nodup
  /-- Each hash of silver has a row, and no other. -/
  complete : ∀ ledgerHash, (∃ g ∈ gold, g.get "ledger_commit_hash" = .text ledgerHash) ↔
    ∃ r ∈ silver, (readSilver r).ledgerHash = ledgerHash
  /-- The record counts add up. -/
  counts : ∃ counts : List ℕ, gold.map (fun g => g.get "record_count") =
    counts.map (fun n => .int (n : ℕ)) ∧ counts.sum = silver.length
  sumsUp : ∀ g ∈ gold, ∃ ledgerHash, SumsUp ledgerHash (readingsOf silver ledgerHash) g

/-- The ledger hashes of silver, in order. -/
def hashes (rows : List (Row F)) : List Text :=
  (rows.map fun r => (readSilver r).ledgerHash).dedup.insertionSort (· ≤ ·)

/-- The columns of a snapshot but for the instant of its curation. -/
def contentColumns : List String :=
  ["ledger_commit_hash", "record_count", "first_occurred_at", "last_occurred_at",
    "source_systems_json", "event_ids_json"]

/-! ## One reading more -/

variable {cells : List (Cell F)} {before : ℤ → ℤ → Prop} {a b c c' : Cell F}

omit [PyFloat F] in
/-- A timestamp column holds an instant or null. -/
theorem timestamp_holds : ArrowType.timestamp.Holds c ↔ c = .null ∨ ∃ us, c = .instant us := by
  cases c <;> simp [ArrowType.Holds]

omit [PyFloat F] in
/-- The outermost of one cell is the cell. -/
theorem Outermost.singleton (hrefl : ∀ us, before us us) (c : Cell F) : Outermost before [c] c :=
  ⟨List.mem_singleton_self c, fun us hus => ⟨us, hrefl us, (List.mem_singleton.1 hus).symm⟩⟩

omit [PyFloat F] in
/-- **One instant more**: the outer of the two. -/
theorem Outermost.concat {x y z : ℤ} (h : Outermost before cells (.instant x))
    (hz : z = x ∨ z = y) (hx : ∀ us, before x us → before z us) (hy : before z y) :
    Outermost before (cells ++ [.instant y]) (.instant z) := by
  refine ⟨?_, fun us hus => ⟨z, ?_, rfl⟩⟩
  · obtain rfl | rfl := hz
    · exact List.mem_append_left _ h.1
    · exact List.mem_append_right _ (List.mem_singleton_self _)
  · obtain hus | hus := List.mem_append.1 hus
    · obtain ⟨x', hbefore, hx'⟩ := h.2 us hus
      cases hx'
      exact hx us hbefore
    · cases List.mem_singleton.1 hus
      exact hy

omit [PyFloat F] in
/-- There is one at most, in any order. -/
theorem Outermost.unique {cells' : List (Cell F)} (h : Outermost before cells c)
    (h' : Outermost before cells' c') (hmem : ∀ x, x ∈ cells ↔ x ∈ cells')
    (hanti : ∀ x y, before x y → before y x → x = y)
    (htyped : ∀ x ∈ cells, ArrowType.timestamp.Holds x) : c = c' := by
  have hc := timestamp_holds.1 (htyped c h.1)
  have hc' := timestamp_holds.1 (htyped c' ((hmem c').2 h'.1))
  obtain rfl | ⟨x, rfl⟩ := hc
  · obtain rfl | ⟨y, rfl⟩ := hc'
    · rfl
    · obtain ⟨_, -, hx⟩ := h.2 y ((hmem _).2 h'.1)
      cases hx
  · obtain ⟨y, hyx, rfl⟩ := h'.2 x ((hmem _).1 h.1)
    obtain ⟨z, hzy, hz⟩ := h.2 y ((hmem _).2 h'.1)
    cases hz
    rw [hanti x y hzy hyx]

/-- Two timestamps that compare are instants. -/
theorem cellLt_eq_ok {less : Bool} (ha : ArrowType.timestamp.Holds a)
    (hb : ArrowType.timestamp.Holds b) (h : cellLt a b = .ok less) :
    ∃ x y, a = .instant x ∧ b = .instant y ∧ less = decide (x < y) := by
  obtain rfl | ⟨x, rfl⟩ := timestamp_holds.1 ha
  · cases h
  · obtain rfl | ⟨y, rfl⟩ := timestamp_holds.1 hb
    · cases h
    · cases h
      exact ⟨x, y, rfl, rfl, rfl⟩

/-- The earlier of an instant and the earliest before. -/
theorem Outermost.cellMin (h : Earliest cells a) (ha : ArrowType.timestamp.Holds a)
    (hb : ArrowType.timestamp.Holds b) (hmin : cellMin a b = .ok c) :
    Earliest (cells ++ [b]) c := by
  obtain ⟨less, hlt, hmin⟩ := bind_eq_ok.1 hmin
  obtain ⟨y, x, rfl, rfl, rfl⟩ := cellLt_eq_ok hb ha hlt
  cases hmin
  split_ifs with hyx
  · have hyx := of_decide_eq_true hyx
    exact h.concat (.inr rfl) (fun us => hyx.le.trans) le_rfl
  · have hxy := not_lt.1 fun hyx' => hyx (decide_eq_true hyx')
    exact h.concat (.inl rfl) (fun _ => id) hxy

/-- The later of an instant and the latest before. -/
theorem Outermost.cellMax (h : Latest cells a) (ha : ArrowType.timestamp.Holds a)
    (hb : ArrowType.timestamp.Holds b) (hmax : cellMax a b = .ok c) :
    Latest (cells ++ [b]) c := by
  obtain ⟨less, hlt, hmax⟩ := bind_eq_ok.1 hmax
  obtain ⟨x, y, rfl, rfl, rfl⟩ := cellLt_eq_ok ha hb hlt
  cases hmax
  split_ifs with hxy
  · have hxy := of_decide_eq_true hxy
    exact h.concat (.inr rfl) (fun us hus => le_trans hus hxy.le) le_rfl
  · have hyx := not_lt.1 fun hxy' => hxy (decide_eq_true hxy')
    exact h.concat (.inl rfl) (fun _ => id) hyx

/-- Readings of a ledger hash in a column of timestamps. -/
def OfHash (ledgerHash : Text) (own : List (Reading F)) : Prop :=
  ∀ r ∈ own, r.ledgerHash = ledgerHash ∧ ArrowType.timestamp.Holds r.occurredAt

variable {ledgerHash : Text} {own : List (Reading F)} {r : Reading F}
  {entry entry' : Commitment F} {silver gold : List (Row F)}

/-- The first reading. -/
theorem gathers_singleton (hr : r.ledgerHash = ledgerHash)
    (h : joinCommitment none r = .ok entry) : Gathers ledgerHash [r] entry := by
  cases h
  exact {
    ledgerHash := hr
    count := rfl
    first := .singleton (fun us => le_refl us) _
    last := .singleton (fun us => show us ≥ us from le_rfl) _
    systemsNodup := List.nodup_singleton _
    systems := fun s => Iff.rfl
    eventIds := rfl }

/-- **One reading more.** -/
theorem Gathers.concat (h : Gathers ledgerHash own entry) (hown : OfHash ledgerHash own)
    (hr : ArrowType.timestamp.Holds r.occurredAt)
    (hjoin : joinCommitment (some entry) r = .ok entry') :
    Gathers ledgerHash (own ++ [r]) entry' := by
  have htyped : ∀ c ∈ own.map Reading.occurredAt, ArrowType.timestamp.Holds c := by
    rintro c hc
    obtain ⟨r', hr', rfl⟩ := List.mem_map.1 hc
    exact (hown r' hr').2
  obtain ⟨first, hfirst, hjoin⟩ := bind_eq_ok.1 hjoin
  obtain ⟨last, hlast, hjoin⟩ := bind_eq_ok.1 hjoin
  cases hjoin
  exact {
    ledgerHash := h.ledgerHash
    count := by simp [h.count]
    first := by
      rw [List.map_append]
      exact h.first.cellMin (htyped _ h.first.1) hr hfirst
    last := by
      rw [List.map_append]
      exact h.last.cellMax (htyped _ h.last.1) hr hlast
    systemsNodup := h.systemsNodup.insert
    systems := fun s => by simp [h.systems, or_comm]
    eventIds := by simp [h.eventIds] }

/-- **What the pass leaves of a ledger hash.** -/
theorem gathers_of_foldGroup {b : Option (Commitment F)} (hown : OfHash ledgerHash own)
    (h : foldGroup joinCommitment none own = .ok b) (hb : b = some entry) :
    Gathers ledgerHash own entry := by
  refine foldGroup_induct (P := fun own b => OfHash ledgerHash own →
    (b = none → own = []) ∧ ∀ entry, b = some entry → Gathers ledgerHash own entry)
    ?_ ?_ h hown |>.2 entry hb
  · exact fun _ => ⟨fun _ => rfl, nofun⟩
  · intro done b r d hP hjoin hdone
    have hprefix : OfHash ledgerHash done := fun r' hr' => hdone r' (List.mem_append_left _ hr')
    obtain ⟨hhash, hr⟩ := hdone r (List.mem_append_right _ (List.mem_singleton_self r))
    obtain ⟨hnone, hsome⟩ := hP hprefix
    refine ⟨nofun, fun entry' hd => ?_⟩
    cases hd
    cases b with
    | none =>
      rw [hnone rfl]
      exact gathers_singleton hhash hjoin
    | some entry => exact (hsome entry rfl).concat hprefix hr hjoin

/-- The silver rows of a hash are its readings. -/
theorem entriesOf_silver (rows : List (Row F)) (ledgerHash : Text) :
    entriesOf decodeSilver rows ledgerHash = readingsOf rows ledgerHash := by
  have hentries : entries decodeSilver rows =
      (rows.map readSilver).map fun r => (r.ledgerHash, r) := by
    rw [entries, List.map_map, ← List.filterMap_eq_map]
    rfl
  rw [entriesOf, hentries, List.filter_map, List.map_map, readingsOf]
  exact List.map_id _

/-- The readings of a hash are of the hash. -/
theorem ofHash_readingsOf (htimes : Timestamps silver) :
    OfHash ledgerHash (readingsOf silver ledgerHash) := by
  intro r hr
  obtain ⟨hr, hhash⟩ := List.mem_filter.1 hr
  obtain ⟨row, hrow, rfl⟩ := List.mem_map.1 hr
  exact ⟨of_decide_eq_true hhash, htimes row hrow⟩

/-! ## The rows of a snapshot -/

/-- What a loop over the entries returns. -/
theorem ends_curatedRows {w w' : World F} {entries : List (Text × Commitment F)}
    (h : (curatedRows entries).Ends World.Performs w (.ok gold) w') :
    w' = w ∧ List.Forall₂ (fun entry g => ∃ sourceSystemsJson eventIdsJson curatedAt,
      sortedJson (F := F) entry.2.distinctSourceSystems = .ok sourceSystemsJson ∧
      sortedJson (F := F) entry.2.eventIds = .ok eventIdsJson ∧
      g = goldRow entry.2 sourceSystemsJson eventIdsJson curatedAt) entries gold := by
  induction entries generalizing w gold with
  | nil =>
    obtain ⟨hgold, rfl⟩ := Prog.ends_ret.1 h
    cases hgold
    exact ⟨rfl, .nil⟩
  | cons p entries ih =>
    obtain ⟨ledgerHash, entry⟩ := p
    rw [curatedRows] at h
    obtain ⟨sourceSystemsJson, _, hsystems, h₁⟩ := Prog.ends_bind_ok h
    obtain ⟨hsystemsOk, rfl⟩ := Prog.ends_lift.1 hsystems
    obtain ⟨eventIdsJson, _, hids, h₂⟩ := Prog.ends_bind_ok h₁
    obtain ⟨hidsOk, rfl⟩ := Prog.ends_lift.1 hids
    obtain ⟨curatedAt, _, hnow, h₃⟩ := Prog.ends_bind_ok h₂
    obtain ⟨rfl, -⟩ := (Prog.ends_op.1 hnow).read rfl
    obtain ⟨rows, _, hrows, h₄⟩ := Prog.ends_bind_ok h₃
    obtain ⟨hgold, rfl⟩ := Prog.ends_ret.1 h₄
    cases hgold
    obtain ⟨rfl, hforall⟩ := ih hrows
    exact ⟨rfl, .cons ⟨_, _, curatedAt, hsystemsOk.symm, hidsOk.symm, rfl⟩ hforall⟩

/-- What an entry gathers of a hash, its row sums up. -/
theorem Gathers.sumsUp {sourceSystemsJson eventIdsJson : Text} {curatedAt : ℤ}
    (h : Gathers ledgerHash own entry)
    (hsystems : sortedJson (F := F) entry.distinctSourceSystems = .ok sourceSystemsJson)
    (hids : sortedJson (F := F) entry.eventIds = .ok eventIdsJson) :
    SumsUp ledgerHash own (goldRow entry sourceSystemsJson eventIdsJson curatedAt) := by
  have hset : entry.distinctSourceSystems.Perm (own.map Reading.sourceSystem).dedup := by
    refine (List.perm_ext_iff_of_nodup h.systemsNodup (List.nodup_dedup _)).2 fun s => ?_
    rw [h.systems, List.mem_dedup]
  exact {
    ledgerHash := congrArg Cell.text h.ledgerHash
    count := by
      rw [← h.count]
      rfl
    first := h.first
    last := h.last
    systems := ⟨_, by rw [sortedJson, ← insertionSort_perm hset]; exact hsystems, rfl⟩
    eventIds := ⟨_, by rw [← h.eventIds]; exact hids, rfl⟩ }

omit [PyFloat F] in
/-- Silver rows that read alike have the same hashes. -/
theorem hashes_perm {silver' : List (Row F)} [PyFloat F]
    (h : (silver.map readSilver).Perm (silver'.map readSilver)) : hashes silver = hashes silver' := by
  have hmap := (h.map Reading.ledgerHash).dedup
  rw [List.map_map, List.map_map] at hmap
  exact insertionSort_perm hmap

/-- The hashes are those with a reading. -/
theorem mem_hashes : ledgerHash ∈ hashes silver ↔ readingsOf silver ledgerHash ≠ [] := by
  rw [hashes, List.mem_insertionSort, List.mem_dedup, Ne, readingsOf, List.filter_eq_nil_iff]
  simp

/-- **A row for each hash, in order.** -/
theorem forall₂_sumsUp {curated : Members (Commitment F)} {w w' : World F}
    (htimes : Timestamps silver) (hcurated : curateRows silver = .ok curated)
    (hends : (curatedRows (sortBy Prod.fst curated)).Ends World.Performs w (.ok gold) w') :
    w' = w ∧ List.Forall₂ (fun ledgerHash g => SumsUp ledgerHash (readingsOf silver ledgerHash) g)
      (hashes silver) gold := by
  obtain ⟨rfl, hrows⟩ := ends_curatedRows hends
  refine ⟨rfl, ?_⟩
  have hdistinct : curated.Distinct := groupPass_distinct Members.distinct_nil hcurated
  have hgathers : ∀ p ∈ sortBy Prod.fst curated, Gathers p.1 (readingsOf silver p.1) p.2 := by
    intro p hp
    have hget := (Members.get_eq_some hdistinct).2 (mem_sortBy.1 hp)
    have hfold := groupPass_get hcurated p.1
    rw [entriesOf_silver] at hfold
    exact gathers_of_foldGroup (ofHash_readingsOf htimes) hfold hget
  have hkeys : hashes silver = (sortBy Prod.fst curated).map Prod.fst := by
    have hmap : sortBy id (curated.map Prod.fst) = (sortBy Prod.fst curated).map Prod.fst :=
      sortBy_map Prod.fst curated
    rw [← hmap]
    refine insertionSort_perm ((List.perm_ext_iff_of_nodup (List.nodup_dedup _) hdistinct).2
      fun ledgerHash => ?_)
    rw [← List.mem_insertionSort (· ≤ ·), ← not_iff_not, ← Members.get_eq_none,
      groupPass_get_eq_none hcurated, entriesOf_silver, ← not_iff_not, not_not]
    exact mem_hashes
  rw [hkeys, List.forall₂_map_left_iff]
  refine ((List.forall₂_and_left _ _).2 ⟨hgathers, hrows⟩).imp ?_
  rintro p g ⟨hp, sourceSystemsJson, eventIdsJson, curatedAt, hsystems, hids, rfl⟩
  exact hp.sumsUp hsystems hids

/-- The same readings in another order are summed up alike. -/
theorem SumsUp.perm {own' : List (Reading F)} {g : Row F} (hp : own.Perm own')
    (h : SumsUp ledgerHash own g) : SumsUp ledgerHash own' g := by
  have hmem : ∀ c, c ∈ own.map Reading.occurredAt ↔ c ∈ own'.map Reading.occurredAt :=
    fun c => (hp.map _).mem_iff
  have hsystems : sortedJson (F := F) (own'.map Reading.sourceSystem).dedup =
      sortedJson (F := F) (own.map Reading.sourceSystem).dedup := by
    rw [sortedJson, ← insertionSort_perm (hp.map _).dedup]
    rfl
  have hids : sortedJson (F := F) (own'.map Reading.eventId) =
      sortedJson (F := F) (own.map Reading.eventId) := by
    rw [sortedJson, ← insertionSort_perm (hp.map _)]
    rfl
  exact {
    ledgerHash := h.ledgerHash
    count := by rw [h.count, hp.length_eq]
    first := ⟨(hmem _).1 h.first.1, fun us hus => h.first.2 us ((hmem _).2 hus)⟩
    last := ⟨(hmem _).1 h.last.1, fun us hus => h.last.2 us ((hmem _).2 hus)⟩
    systems := by
      rw [hsystems]
      exact h.systems
    eventIds := by
      rw [hids]
      exact h.eventIds }

/-- **What sums up the same readings is the same**, but for the instant of
the curation. -/
theorem SumsUp.unique {g g' : Row F} (hown : OfHash ledgerHash own) (h : SumsUp ledgerHash own g)
    (h' : SumsUp ledgerHash own g') : g.project contentColumns = g'.project contentColumns := by
  have htyped : ∀ c ∈ own.map Reading.occurredAt, ArrowType.timestamp.Holds c := by
    intro c hc
    obtain ⟨r, hr, rfl⟩ := List.mem_map.1 hc
    exact (hown r hr).2
  have hfirst := h.first.unique h'.first (fun _ => Iff.rfl) (fun _ _ => le_antisymm) htyped
  have hlast := h.last.unique h'.last (fun _ => Iff.rfl) (fun _ _ hxy hyx => le_antisymm hyx hxy)
    htyped
  have hsystems : g.get "source_systems_json" = g'.get "source_systems_json" := by
    obtain ⟨t, ht, hg⟩ := h.systems
    obtain ⟨t', ht', hg'⟩ := h'.systems
    rw [hg, hg', Except.ok.inj (ht.symm.trans ht')]
  have hids : g.get "event_ids_json" = g'.get "event_ids_json" := by
    obtain ⟨t, ht, hg⟩ := h.eventIds
    obtain ⟨t', ht', hg'⟩ := h'.eventIds
    rw [hg, hg', Except.ok.inj (ht.symm.trans ht')]
  simp only [Row.project, contentColumns, List.map_cons, List.map_nil, h.ledgerHash, h'.ledgerHash,
    h.count, h'.count, hfirst, hlast, hsystems, hids]

/-- **A row for each hash conserves the silver rows.** -/
theorem conserves_of_forall₂ (h : List.Forall₂
    (fun ledgerHash g => SumsUp ledgerHash (readingsOf silver ledgerHash) g) (hashes silver) gold) :
    Conserves silver gold := by
  have hnodup : (hashes silver).Nodup :=
    (List.perm_insertionSort _ _).nodup_iff.2 (List.nodup_dedup _)
  have hcolumns : gold.map (fun g => g.get "ledger_commit_hash") = (hashes silver).map Cell.text := by
    rw [← List.forall₂_eq_eq_eq, List.forall₂_map_left_iff, List.forall₂_map_right_iff]
    exact h.flip.imp fun g ledgerHash hg => hg.ledgerHash
  have hcounts : gold.map (fun g => g.get "record_count") = ((hashes silver).map fun ledgerHash =>
      (readingsOf silver ledgerHash).length).map fun n => Cell.int (n : ℕ) := by
    rw [List.map_map, ← List.forall₂_eq_eq_eq, List.forall₂_map_left_iff,
      List.forall₂_map_right_iff]
    exact h.flip.imp fun g ledgerHash hg => hg.count
  refine ⟨?_, fun ledgerHash => ?_, ⟨_, hcounts, ?_⟩, fun g hg => ?_⟩
  · rw [hcolumns]
    exact hnodup.map fun _ _ => Cell.text.inj
  · have hmem : (∃ g ∈ gold, g.get "ledger_commit_hash" = .text ledgerHash) ↔
        ledgerHash ∈ hashes silver := by
      rw [← List.mem_map, hcolumns, List.mem_map_of_injective fun _ _ => Cell.text.inj]
    rw [hmem, hashes, List.mem_insertionSort, List.mem_dedup, List.mem_map]
  · have hmem : ∀ r ∈ silver.map readSilver, r.ledgerHash ∈ hashes silver := fun r hr =>
      mem_hashes.2 (List.ne_nil_of_mem (List.mem_filter.2 ⟨hr, decide_eq_true rfl⟩))
    have hreadings := (Dict.flatMap_filter_perm hnodup hmem).length_eq
    rw [List.length_flatMap, List.length_map] at hreadings
    exact hreadings
  · obtain ⟨ledgerHash, -, hsums⟩ := exists_of_forall₂ h hg
    exact ⟨ledgerHash, hsums⟩

/-! ## A curation -/

/-- The columns of a gold row. -/
def goldColumns : List String := contentColumns ++ ["curated_at"]

omit [PyFloat F] in
/-- A snapshot has the columns of its first row. -/
theorem project_snapshot (h : ∀ g ∈ gold, g.columns = goldColumns) :
    gold.map (Row.project ((gold.head?.map Row.columns).getD [])) = gold := by
  have hnodup : goldColumns.Nodup := by decide
  refine (List.map_congr_left fun g hg => ?_).trans (List.map_id _)
  have hhead : (gold.head?.map Row.columns).getD [] = g.columns := by
    cases gold with
    | nil => cases hg
    | cons first gold =>
      rw [h g hg]
      exact h first List.mem_cons_self
  rw [hhead, Row.project_columns_self (by rw [h g hg]; exact hnodup)]
  rfl

omit [PyFloat F] in
/-- A snapshot is stored as it is made. -/
theorem source_rows {source : ArrowTable F} (hcolumns : ∀ g ∈ gold, g.columns = goldColumns)
    (h : ArrowTable.fromPylist gold none = .ok source) : source.rows = gold := by
  unfold ArrowTable.fromPylist at h
  simp only at h
  split_ifs at h
  cases h
  exact project_snapshot hcolumns

omit [PyFloat F] in
/-- A gold row has the gold columns. -/
theorem columns_goldRow {sourceSystemsJson eventIdsJson : Text} {curatedAt : ℤ} :
    (goldRow entry sourceSystemsJson eventIdsJson curatedAt).columns =
      goldColumns := rfl

variable {writer} {silverUri goldUri : Text} {w w' : World F} {t : Table F}
  {older : List (Table F)}

/-- The two ways a written snapshot replaces the last. -/
theorem ends_writeGold {rows : List (Row F)} {version count : ℕ}
    (hcolumns : ∀ g ∈ rows, g.columns = goldColumns)
    (h : (writeGold goldUri rows).Ends World.Performs w (.ok (version, count)) w') :
    ∃ snapshot, w'.tables goldUri = snapshot :: w.tables goldUri ∧ snapshot.version = version ∧
      snapshot.rows.length = count ∧ snapshot.rows = rows := by
  obtain ⟨source, w₁, hsource, h₁⟩ := Prog.ends_bind_ok h
  obtain ⟨hstored, hw₁⟩ := Prog.ends_lift.1 hsource
  obtain ⟨⟨⟩, w₂, hwrite, h₂⟩ := Prog.ends_bind_ok h₁
  obtain ⟨snapshot, w₃, hopen, h₃⟩ := Prog.ends_bind_ok h₂
  obtain ⟨hw₃, hopened⟩ := (Prog.ends_op.1 hopen).read rfl
  obtain ⟨hreturned, hw'⟩ := Prog.ends_ret.1 h₃
  cases hreturned
  subst hw₁ hw₃ hw'
  have hrows := source_rows hcolumns hstored.symm
  have hpushed : ∃ version, w'.tables goldUri =
      World.overwritten source version :: w₁.tables goldUri := by
    cases (Prog.ends_op.1 hwrite).ok with
    | overwriteNew _ => exact ⟨0, World.push_tables_self _ _ _⟩
    | overwriteTable _ _ => exact ⟨_, World.push_tables_self _ _ _⟩
  obtain ⟨version, hpushed⟩ := hpushed
  cases hopened with
  | openTable htables =>
    rw [hpushed] at htables
    obtain ⟨rfl, rfl⟩ := List.cons.inj htables
    exact ⟨_, hpushed, rfl, congrArg List.length hrows, hrows⟩

/-- What is made of the rows read, where it returns. -/
theorem ends_curateRead {rows : List (Row F)} (hgold : writer.tableUri (lit "gold") = .ok goldUri)
    (htimes : Timestamps rows) {version count : ℕ}
    (h : (curateRead writer rows).Ends World.Performs w (.ok (version, count)) w') :
    ∃ snapshot, w'.tables goldUri = snapshot :: w.tables goldUri ∧ snapshot.version = version ∧
      snapshot.rows.length = count ∧
      List.Forall₂ (fun ledgerHash g => SumsUp ledgerHash (readingsOf rows ledgerHash) g)
        (hashes rows) snapshot.rows := by
  unfold curateRead at h
  split_ifs at h
  · cases (Prog.ends_raise.1 h).1
  obtain ⟨curated, w₁, hcurated, h₁⟩ := Prog.ends_bind_ok h
  obtain ⟨hcurated, hw₁⟩ := Prog.ends_lift.1 hcurated
  obtain ⟨gold, w₂, hrows, h₂⟩ := Prog.ends_bind_ok h₁
  obtain ⟨hw₂, hsums⟩ := forall₂_sumsUp htimes hcurated.symm hrows
  rw [hgold] at h₂
  have hcolumns : ∀ g ∈ gold, g.columns = goldColumns := by
    intro g hg
    obtain ⟨entry, -, _, _, _, -, -, rfl⟩ := exists_of_forall₂ (ends_curatedRows hrows).2 hg
    exact columns_goldRow
  obtain ⟨snapshot, hpushed, hversion, hcount, hstored⟩ := ends_writeGold hcolumns h₂
  subst hw₁ hw₂
  refine ⟨snapshot, hpushed, hversion, hcount, ?_⟩
  rw [hstored]
  exact hsums

/-- Rows read alike are summed up alike. -/
theorem sumsUp_of_perm {silver' : List (Row F)}
    (hp : (silver.map readSilver).Perm (silver'.map readSilver))
    (h : List.Forall₂ (fun ledgerHash g => SumsUp ledgerHash (readingsOf silver ledgerHash) g)
      (hashes silver) gold) :
    List.Forall₂ (fun ledgerHash g => SumsUp ledgerHash (readingsOf silver' ledgerHash) g)
      (hashes silver') gold := by
  rw [← hashes_perm hp]
  exact h.imp fun ledgerHash g hg => hg.perm (hp.filter _)

/-- **What a curation that returns has read and written.** -/
theorem ends_curateGold (hsilver : writer.tableUri (lit "silver") = .ok silverUri)
    (hgold : writer.tableUri (lit "gold") = .ok goldUri) (ht : w.tables silverUri = t :: older)
    (htimes : Timestamps t.rows) {version count : ℕ}
    (h : (curateGold writer).Ends World.Performs w (.ok (version, count)) w') :
    ∃ snapshot, w'.tables goldUri = snapshot :: w.tables goldUri ∧ snapshot.version = version ∧
      snapshot.rows.length = count ∧
      List.Forall₂ (fun ledgerHash g => SumsUp ledgerHash (readingsOf t.rows ledgerHash) g)
        (hashes t.rows) snapshot.rows := by
  unfold curateGold at h
  split_ifs at h
  · cases (Prog.ends_raise.1 h).1
  rw [hsilver] at h
  simp only [Script.pure, Prog.lift_ok, Prog.ret_bind] at h
  obtain ⟨isThere, w₁, hthere, h₁⟩ := Prog.ends_bind_ok h
  obtain rfl := ends_deltaTableExists hthere
  split_ifs at h₁
  swap
  · cases (Prog.ends_raise.1 h₁).1
  obtain ⟨table, w₂, hopen, h₂⟩ := Prog.ends_bind_ok h₁
  obtain ⟨rfl, hopened⟩ := (Prog.ends_op.1 hopen).read rfl
  obtain ⟨rows, w₃, hread, h₃⟩ := Prog.ends_bind_ok h₂
  obtain ⟨rfl, hrows⟩ := (Prog.ends_op.1 hread).read rfl
  have htable : table = t := by
    cases hopened with
    | openTable htables => exact (List.cons.inj (htables.symm.trans ht)).1
  subst htable
  have hperm : rows.Perm (table.rows.map (Row.project silverColumns)) := by
    cases hrows with
    | readRows _ hperm => rwa [Table.read_none] at hperm
  have hreadings : (rows.map readSilver).Perm (table.rows.map readSilver) := by
    have hmap := hperm.map readSilver
    rw [List.map_map] at hmap
    exact hmap
  have hread : Timestamps rows := by
    intro r hr
    obtain ⟨r', hr', rfl⟩ := List.mem_map.1 (hperm.mem_iff.1 hr)
    exact htimes r' hr'
  obtain ⟨snapshot, hpushed, hversion, hcount, hsums⟩ := ends_curateRead hgold hread h₃
  exact ⟨snapshot, hpushed, hversion, hcount, sumsUp_of_perm hreadings hsums⟩

/-! ## A curation returns -/

/-- A text Arrow stores. -/
def IsStoredText (c : Cell F) : Prop := ∃ t : Text, t.IsScalar ∧ c = .text t

/-- **A silver row as promotion makes it**, of what the curation reads. -/
structure Promoted (row : Row F) : Prop where
  ledgerHash : IsStoredText (row.get "ledger_commit_hash")
  eventId : IsStoredText (row.get "event_id")
  sourceSystem : IsStoredText (row.get "source_system")
  occurredAt : IsInstant (row.get "occurred_at")

/-- A reading of such a row. -/
structure Reading.Storable (r : Reading F) : Prop where
  ledgerHash : r.ledgerHash.IsScalar
  eventId : r.eventId.IsScalar
  sourceSystem : r.sourceSystem.IsScalar
  occurredAt : IsInstant r.occurredAt

/-- An entry gathered of such rows. -/
structure Commitment.Storable (entry : Commitment F) : Prop where
  ledgerHash : entry.ledgerCommitHash.IsScalar
  eventIds : ∀ id ∈ entry.eventIds, id.IsScalar
  systems : ∀ s ∈ entry.distinctSourceSystems, s.IsScalar
  first : IsInstant entry.firstOccurredAt
  last : IsInstant entry.lastOccurredAt

/-- A promoted row can be stored. -/
theorem Promoted.storable {row : Row F} (h : Promoted row) : (readSilver row).Storable := by
  have hstr : ∀ {c : Cell F}, IsStoredText c → c.str.IsScalar := by
    rintro c ⟨t, ht, rfl⟩
    exact ht
  exact ⟨hstr h.ledgerHash, hstr h.eventId, hstr h.sourceSystem, h.occurredAt⟩

/-- Instants have a minimum and a maximum. -/
theorem cellMin_cellMax_isOk (ha : IsInstant a) (hb : IsInstant b) :
    (∃ c, cellMin a b = .ok c ∧ IsInstant c) ∧ ∃ c, cellMax a b = .ok c ∧ IsInstant c := by
  obtain ⟨x, rfl⟩ := ha
  obtain ⟨y, rfl⟩ := hb
  refine ⟨⟨_, rfl, ?_⟩, ⟨_, rfl, ?_⟩⟩
  all_goals
    split_ifs
    · exact ⟨y, rfl⟩
    · exact ⟨x, rfl⟩

/-- A reading joins any entry. -/
theorem joinCommitment_isOk {b : Option (Commitment F)} (hb : ∀ entry ∈ b, entry.Storable)
    (hr : r.Storable) : ∃ entry, joinCommitment b r = .ok entry ∧ entry.Storable := by
  cases b with
  | none =>
    exact ⟨_, rfl, ⟨hr.ledgerHash, by simpa using hr.eventId, by simpa using hr.sourceSystem,
      hr.occurredAt, hr.occurredAt⟩⟩
  | some entry =>
    have hentry := hb entry rfl
    obtain ⟨⟨first, hmin, hfirst⟩, -⟩ := cellMin_cellMax_isOk hentry.first hr.occurredAt
    obtain ⟨-, last, hmax, hlast⟩ := cellMin_cellMax_isOk hentry.last hr.occurredAt
    have hids : ∀ id ∈ entry.eventIds ++ [r.eventId], id.IsScalar := by
      intro id hid
      obtain hid | hid := List.mem_append.1 hid
      · exact hentry.eventIds id hid
      · rw [List.mem_singleton.1 hid]
        exact hr.eventId
    have hsystems : ∀ s ∈ entry.distinctSourceSystems.insert r.sourceSystem, s.IsScalar := by
      intro s hs
      obtain rfl | hs := List.mem_insert_iff.1 hs
      · exact hr.sourceSystem
      · exact hentry.systems s hs
    exact ⟨_, bind_eq_ok.2 ⟨first, hmin, bind_eq_ok.2 ⟨last, hmax, rfl⟩⟩,
      ⟨hentry.ledgerHash, hids, hsystems, hfirst, hlast⟩⟩

/-- The pass goes over promoted rows. -/
theorem curateRows_isOk (h : ∀ row ∈ silver, Promoted row) :
    ∃ curated, curateRows silver = .ok curated ∧
      ∀ p ∈ sortBy Prod.fst curated, p.2.Storable := by
  have hdecodes : ∀ row ∈ silver, ∃ p, decodeSilver row = .ok p ∧ ∀ q ∈ p, q.2.Storable := by
    intro row hrow
    refine ⟨_, rfl, fun q hq => ?_⟩
    cases hq
    exact (h row hrow).storable
  have hempty : ∀ (key : Text) (entry : Commitment F), Members.get key [] = some entry →
      entry.Storable := fun _ _ => nofun
  obtain ⟨curated, hcurated, hstorable⟩ := groupPass_isOk_of (P := Commitment.Storable)
    (Q := Reading.Storable) (fun _ _ hb hr => joinCommitment_isOk hb hr) hempty hdecodes
  refine ⟨curated, hcurated, fun p hp => hstorable p.1 p.2 ?_⟩
  exact (Members.get_eq_some (groupPass_distinct Members.distinct_nil hcurated)).2 (mem_sortBy.1 hp)

/-- Scalar texts are written sorted. -/
theorem sortedJson_isOk {texts : List Text} (h : ∀ t ∈ texts, t.IsScalar) :
    ∃ t, sortedJson (F := F) texts = .ok t ∧ t.IsScalar := by
  refine exists_dumps _ ?_
  rw [Json.Valid, Json.validItems_iff]
  intro v hv
  obtain ⟨t, ht, rfl⟩ := List.mem_map.1 hv
  exact h t ((List.mem_insertionSort _).1 ht)

/-- A row Arrow stores. -/
def StoredRow (g : Row F) : Prop := ∀ c ∈ g, c.2.Encodable

/-- The rows of storable entries are made, and the world is left as it was. -/
theorem run_curatedRows (E : Engine F) (w : World F) {entries : List (Text × Commitment F)}
    (h : ∀ p ∈ entries, p.2.Storable) :
    ∃ gold, (curatedRows entries).run E.handle w = (.ok gold, w) ∧ ∀ g ∈ gold, StoredRow g := by
  induction entries with
  | nil => exact ⟨[], rfl, nofun⟩
  | cons p entries ih =>
    obtain ⟨ledgerHash, entry⟩ := p
    obtain ⟨hentry, hentries⟩ := List.forall_mem_cons.1 h
    obtain ⟨gold, hgold, hstored⟩ := ih hentries
    obtain ⟨systems, hsystems, hsystemsScalar⟩ := sortedJson_isOk (F := F) hentry.systems
    obtain ⟨ids, hids, hidsScalar⟩ := sortedJson_isOk (F := F) hentry.eventIds
    refine ⟨goldRow entry systems ids w.clock :: gold, ?_, List.forall_mem_cons.2 ⟨?_, hstored⟩⟩
    · have hnow : (Script.now : Script F ℤ).run E.handle w = (.ok w.clock, w) := rfl
      rw [curatedRows, hsystems, hids]
      simp only [Script.pure, Prog.lift_ok, Prog.ret_bind]
      rw [Prog.run_bind_ok _ hnow, Prog.run_bind_ok _ hgold]
      rfl
    · obtain ⟨first, hfirst⟩ := hentry.first
      obtain ⟨last, hlast⟩ := hentry.last
      intro c hc
      simp only [goldRow, List.mem_cons, List.not_mem_nil, or_false] at hc
      obtain rfl | rfl | rfl | rfl | rfl | rfl | rfl := hc
      · exact hentry.ledgerHash
      · trivial
      · rw [hfirst]
        trivial
      · rw [hlast]
        trivial
      · exact hsystemsScalar
      · exact hidsScalar
      · trivial

/-- A snapshot can be written where no append-only table is in its place. -/
theorem run_writeGold (E : Engine F) (hcolumns : ∀ g ∈ gold, g.columns = goldColumns)
    (hstored : ∀ g ∈ gold, StoredRow g)
    (hplace : ∀ snapshot ∈ (w.tables goldUri).head?, snapshot.appendOnly = false) :
    ∃ r w', (writeGold goldUri gold).run E.handle w = (.ok r, w') := by
  obtain ⟨source, hsource⟩ : ∃ source, ArrowTable.fromPylist gold none = .ok source := by
    refine ⟨_, if_pos ?_⟩
    simp only [Option.getD_none]
    rw [project_snapshot hcolumns]
    exact hstored
  obtain ⟨version, hwrite⟩ : ∃ version, (Script.overwriteTable goldUri
      (lit "cvff_gold_ledger_commitments")
      (lit "CVFF segregated gold table curated per ledger commitment") source).run E.handle w =
        (.ok (), w.push goldUri (World.overwritten source version)) := by
    rw [Prog.run_op, Engine.handle]
    cases htables : w.tables goldUri with
    | nil => exact ⟨0, rfl⟩
    | cons snapshot older =>
      have happend := hplace snapshot (by rw [htables]; rfl)
      refine ⟨snapshot.version + 1, ?_⟩
      simp only
      rw [if_neg (by simp [happend])]
  have hopen := E.run_openTable
    (World.push_tables_self w goldUri (World.overwritten source version))
  refine ⟨(version, gold.length), w.push goldUri (World.overwritten source version), ?_⟩
  rw [writeGold, hsource]
  simp only [Script.pure, Prog.lift_ok, Prog.ret_bind]
  rw [Prog.run_bind_ok _ hwrite, Prog.run_bind_ok _ hopen]
  rfl

/-- **A curation of promoted rows returns.** -/
theorem run_curateGold (E : Engine F) (hscope : writer.scope = .cvff)
    (hsilver : writer.tableUri (lit "silver") = .ok silverUri)
    (hgold : writer.tableUri (lit "gold") = .ok goldUri) (ht : w.tables silverUri = t :: older)
    (hne : t.rows ≠ []) (hcolumns : silverColumns ⊆ t.columns)
    (hpromoted : ∀ row ∈ t.rows, Promoted row)
    (hplace : ∀ snapshot ∈ (w.tables goldUri).head?, snapshot.appendOnly = false) :
    ∃ r w', (curateGold writer).run E.handle w = (.ok r, w') := by
  have hread : ∀ row ∈ E.order (t.read silverColumns none), Promoted row := by
    intro row hrow
    have hrow := (E.order_perm _).mem_iff.1 hrow
    rw [Table.read_none] at hrow
    obtain ⟨stored, hmem, rfl⟩ := List.mem_map.1 hrow
    have hp := hpromoted stored hmem
    exact ⟨hp.ledgerHash, hp.eventId, hp.sourceSystem, hp.occurredAt⟩
  have hrows : E.order (t.read silverColumns none) ≠ [] := by
    intro hnil
    have hlength := (E.order_perm (t.read silverColumns none)).length_eq
    rw [hnil, Table.read_none, List.length_map, List.length_nil] at hlength
    exact hne (List.length_eq_zero_iff.1 hlength.symm)
  obtain ⟨curated, hcurated, hstorable⟩ := curateRows_isOk hread
  obtain ⟨gold, hgoldRows, hstored⟩ := run_curatedRows E w hstorable
  have hgoldColumns : ∀ g ∈ gold, g.columns = goldColumns := by
    intro g hg
    obtain ⟨entry, -, _, _, _, -, -, rfl⟩ :=
      exists_of_forall₂ (ends_curatedRows (E.ends_of_run hgoldRows)).2 hg
    exact columns_goldRow
  obtain ⟨r, w', hwrite⟩ := run_writeGold E hgoldColumns hstored hplace
  refine ⟨r, w', ?_⟩
  rw [curateGold, if_neg (by simp [hscope]), hsilver]
  simp only [Script.pure, Prog.lift_ok, Prog.ret_bind]
  rw [Prog.run_bind_ok _ (run_deltaTableExists E silverUri w), ht]
  simp only [List.isEmpty_cons, Bool.not_false, if_true]
  rw [Prog.run_bind_ok _ (E.run_openTable ht), Prog.run_bind_ok _ (E.run_readRows hcolumns),
    curateRead, if_neg hrows, hcurated]
  simp only [Script.pure, Prog.lift_ok, Prog.ret_bind]
  rw [Prog.run_bind_ok _ hgoldRows, hgold]
  exact hwrite

/-- **A curation conserves the silver table.** Whenever it returns, each
ledger hash has one gold row that sums up the readings of the hash, and
the rows do not depend on the order of the silver table, but for the
instants of their curation. It does return over promoted rows. -/
theorem curateGold_conserves (writer : SegregatedDeltaWriter L)
    (hsilver : writer.tableUri (lit "silver") = .ok silverUri)
    (hgold : writer.tableUri (lit "gold") = .ok goldUri) (ht : w.tables silverUri = t :: older)
    (hne : t.rows ≠ []) :
    (writer.scope = .cvff → silverColumns ⊆ t.columns → (∀ row ∈ t.rows, Promoted row) →
      (∀ snapshot ∈ (w.tables goldUri).head?, snapshot.appendOnly = false) →
      ∀ E : Engine F, ∃ r w', (curateGold writer).run E.handle w = (.ok r, w')) ∧
    (Timestamps t.rows → ∀ {version count : ℕ} {w' : World F},
      (curateGold writer).Ends World.Performs w (.ok (version, count)) w' →
      ∃ snapshot, w'.tables goldUri = snapshot :: w.tables goldUri ∧ snapshot.version = version ∧
        snapshot.rows.length = count ∧ Conserves t.rows snapshot.rows ∧
        ∀ {u u' : World F} {s : Table F} {older' : List (Table F)} {version' count' : ℕ},
          u.tables silverUri = s :: older' → t.rows.Perm s.rows →
          (curateGold writer).Ends World.Performs u (.ok (version', count')) u' →
          ∃ snapshot', u'.tables goldUri = snapshot' :: u.tables goldUri ∧
            snapshot'.rows.map (Row.project contentColumns) =
              snapshot.rows.map (Row.project contentColumns)) := by
  refine ⟨fun hscope hcolumns hpromoted hplace E =>
    run_curateGold E hscope hsilver hgold ht hne hcolumns hpromoted hplace, ?_⟩
  intro htimes version count w' h
  obtain ⟨snapshot, hpushed, hversion, hcount, hsums⟩ :=
    ends_curateGold hsilver hgold ht htimes h
  refine ⟨snapshot, hpushed, hversion, hcount, conserves_of_forall₂ hsums, ?_⟩
  intro u u' s older' version' count' hs hp h'
  have htimes' : Timestamps s.rows := fun r hr => htimes r (hp.mem_iff.2 hr)
  obtain ⟨snapshot', hpushed', -, -, hsums'⟩ := ends_curateGold hsilver hgold hs htimes' h'
  refine ⟨snapshot', hpushed', ?_⟩
  refine forall₂_map_eq (fun ledgerHash g g' hg hg' => ?_)
    (sumsUp_of_perm (hp.symm.map readSilver) hsums') hsums
  exact hg.unique (ofHash_readingsOf htimes) hg'

/-! ### Three readings of two commitments -/

/-- A silver row. -/
def silverOf (ledgerHash eventId sourceSystem : String) (us : ℤ) : Row Decimal :=
  [("event_id", .text (lit eventId)), ("occurred_at", .instant us),
    ("source_system", .text (lit sourceSystem)), ("ledger_commit_hash", .text (lit ledgerHash))]

def silverTable : Table Decimal where
  version := 0
  appendOnly := true
  mergeWritten := false
  columns := ["event_id", "occurred_at", "source_system", "ledger_commit_hash"]
  rows := [silverOf "b" "event-2" "port" 5, silverOf "a" "event-1" "port" 3,
    silverOf "b" "event-0" "customs" 2]

def silverWorld : World Decimal :=
  { noTables with
    tables := fun uri => if uri = lit "/srv/cvff/cvff_silver/events" then [silverTable] else [] }

/-- What the curation of three readings leaves. -/
def silverCurated : Except PyError (ℕ × ℕ) × World Decimal :=
  (curateGold commitments).run (Engine.plain Decimal).handle silverWorld

/-- Three silver rows of two hashes. -/
theorem curateGold_three : silverCurated.1 = .ok (0, 2) ∧
    ∃ snapshot, silverCurated.2.tables (lit "/srv/cvff/cvff_gold/events") = [snapshot] ∧
      Conserves silverTable.rows snapshot.rows := by
  have hsilver : commitments.tableUri (lit "silver") =
      .ok (lit "/srv/cvff/cvff_silver/events") := toOption_eq_some.1 (by decide +kernel)
  have hgold : commitments.tableUri (lit "gold") = .ok (lit "/srv/cvff/cvff_gold/events") :=
    toOption_eq_some.1 (by decide +kernel)
  have ht : silverWorld.tables (lit "/srv/cvff/cvff_silver/events") = [silverTable] := rfl
  have hret : silverCurated.1 = .ok (0, 2) := toOption_eq_some.1 (by decide +kernel)
  have hends := (Engine.plain Decimal).ends_of_run (Prod.ext hret rfl :
    silverCurated = (.ok (0, 2), silverCurated.2))
  have htimes : Timestamps silverTable.rows := by
    intro r hr
    simp only [silverTable, List.mem_cons, List.not_mem_nil, or_false] at hr
    obtain rfl | rfl | rfl := hr <;> trivial
  obtain ⟨snapshot, hpushed, -, -, hconserves, -⟩ :=
    (curateGold_conserves commitments hsilver hgold ht (by simp [silverTable])).2 htimes hends
  exact ⟨hret, snapshot, hpushed, hconserves⟩

end Medallion

end Lakehouse

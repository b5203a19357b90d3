import Lakehouse.Common.Dict
import Lakehouse.Common.IsoDate
import Lakehouse.Retention.Removal
/-!
# The plan of a retention run

A plan puts every row in one tier and every expired row in the batch of
its UTC day, and from one reference time to a later one a row moves to a
later tier only (`planOf_partition`).
-/

namespace Lakehouse

/-- Setting a member by its value is an upsert. -/
theorem Members.set_eq_upsert {β : Type} {ms : Members β} {key : Text} (h : ms.Distinct)
    (f : Option β → β) : ms.set key (f (ms.get key)) = Dict.upsert key f ms := by
  rw [Members.get, Dict.get_eq_lookup]
  cases hget : Dict.get key ms with
  | none =>
    have hkey : key ∉ ms.map Prod.fst := by
      intro hmem
      obtain ⟨⟨k, v⟩, hkv, rfl⟩ := List.mem_map.1 hmem
      rw [(Dict.mem_iff_get h).1 hkv] at hget
      cases hget
    rw [Members.set_of_notMem hkey, Dict.upsert_eq_concat hget]
  | some v =>
    have hkey : key ∈ ms.map Prod.fst := List.mem_map.2 ⟨_, (Dict.mem_iff_get h).2 hget, rfl⟩
    rw [Members.set, if_pos hkey, Dict.upsert_eq_map h hget]

namespace Retention

open Ingest

variable {F : Type} [PyFloat F] {L : Library} {job : Job} {checked : ℤ}

/-! ## Tiers -/

/-- A row whose instant is in the calendar and no later than a reference
time. -/
def Occurred (job : Job) (checked : ℤ) (r : Row F) : Prop :=
  ∃ us, r.get job.timeColumn = .instant us ∧ IsoTime.InCalendar us ∧ us ≤ checked

/-- **A row is in a tier** at a reference time. -/
def InTier (job : Job) (checked : ℤ) (tier : Tier) (r : Row F) : Prop :=
  job.policy.tierFor (occurredAt job r) checked = .ok tier

instance (tier : Tier) (r : Row F) : Decidable (InTier job checked tier r) := by
  unfold InTier
  infer_instance

/-- The rows of one tier. -/
def rowsIn (job : Job) (checked : ℤ) (tier : Tier) (rows : List (Row F)) : List (Row F) :=
  rows.filter fun r => InTier job checked tier r

omit [PyFloat F] in
/-- A cold row is between the two horizons. -/
theorem inTier_cold {r : Row F} : InTier job checked .cold r ↔
    job.policy.hotHorizon < checked - occurredAt job r ∧
      checked - occurredAt job r ≤ job.policy.coldHorizon := by
  have hpos : 0 < job.policy.hotHorizon :=
    mul_pos (by have := job.policy.hot; omega) (by decide)
  unfold InTier RetentionPolicy.tierFor
  split_ifs with hlate hfresh hcold
  · exact iff_of_false nofun (by omega)
  · exact iff_of_false nofun (by omega)
  · exact iff_of_true rfl (by omega)
  · exact iff_of_false nofun (by omega)

omit [PyFloat F] in
/-- **A row moves to a later tier only.** -/
theorem InTier.later {later : ℤ} {r : Row F} (hle : checked ≤ later) :
    (InTier job checked .cold r → InTier job later .cold r ∨ InTier job later .expired r) ∧
      (InTier job checked .expired r → InTier job later .expired r) := by
  have hexpired : ∀ {at' : ℤ}, InTier job at' .expired r ↔
      job.policy.coldHorizon < at' - occurredAt job r := tierFor_expired
  rw [inTier_cold, inTier_cold, hexpired, hexpired]
  exact ⟨fun h => by omega, fun h => by omega⟩

/-- The tier of a row that is classified. -/
theorem classify_inTier {r : Row F} {p : Tier × Text × ℤ} (h : classify L job checked r = .ok p) :
    p.2 = keyed job r ∧ ∀ tier, InTier job checked tier r ↔ p.1 = tier := by
  refine ⟨(classify_eq_ok h).1, fun tier => ?_⟩
  unfold classify at h
  rw [InTier, occurredAt]
  cases hus : r.get job.timeColumn with
  | instant us =>
    rw [hus] at h
    obtain ⟨tier', htier, h⟩ := bind_eq_ok.1 h
    cases h
    simp only
    rw [htier]
    exact ⟨fun h => Except.ok.inj h, fun h => congrArg Except.ok h⟩
  | null | text _ | int _ | float _ | bool _ =>
    rw [hus] at h
    cases h

/-- **The tiers of a plan** are those of its rows, in their order. -/
theorem tierOf_eq {rows : List (Row F)} {tiers : List (Tier × Text × ℤ)}
    (h : collect (rows.map (classify L job checked)) = .ok tiers) (tier : Tier) :
    tierOf tier tiers = (rowsIn job checked tier rows).map (keyed job) := by
  have hall := collect_eq_ok.1 h
  rw [List.forall₂_map_left_iff] at hall
  clear h
  induction hall with
  | nil => rfl
  | @cons r p rows tiers hp _ ih =>
    obtain ⟨hk, htier⟩ := classify_inTier hp
    rw [tierOf, rowsIn] at ih ⊢
    by_cases hin : p.1 = tier
    · rw [List.filter_cons_of_pos (by simpa using hin),
        List.filter_cons_of_pos (by simpa using (htier tier).2 hin), List.map_cons, List.map_cons,
        ih, hk]
    · rw [List.filter_cons_of_neg (by simpa using hin),
        List.filter_cons_of_neg (by simpa using fun h => hin ((htier tier).1 h)), ih]

/-- The counts of the tiers are those of all rows. -/
theorem length_tierOf (rows : List (Tier × Text × ℤ)) :
    (tierOf .hot rows).length + (tierOf .cold rows).length + (tierOf .expired rows).length =
      rows.length := by
  simp only [tierOf, List.length_map]
  induction rows with
  | nil => rfl
  | cons p rows ih =>
    obtain ⟨tier, key, us⟩ := p
    cases tier <;> simp <;> omega

/-- A time up to the one checked has a tier. -/
theorem tierFor_of_le (policy : RetentionPolicy) {us : ℤ} (h : us ≤ checked) :
    ∃ tier, policy.tierFor us checked = .ok tier := by
  unfold RetentionPolicy.tierFor
  split_ifs with hlater
  · exact absurd hlater (by omega)
  all_goals exact ⟨_, rfl⟩

/-- A row that has occurred is classified. -/
theorem classify_of_le {r : Row F} {us : ℤ} (hus : r.get job.timeColumn = .instant us)
    (h : us ≤ checked) : ∃ p, classify L job checked r = .ok p := by
  obtain ⟨tier, htier⟩ := tierFor_of_le job.policy h
  unfold classify
  rw [hus]
  simp only
  rw [htier]
  exact ⟨_, rfl⟩

/-! ## Batches -/

/-- The day of a row, counted from the epoch. -/
def dayOf (job : Job) (r : Row F) : ℤ := occurredAt job r / RetentionPolicy.day

/-- The windows gather the expired keys by their dates. -/
theorem windows_eq (expired : List (Text × ℤ)) :
    windows L expired = Dict.gather (expired.map fun p => (dateIsoformat L p.2, p.1)) := by
  induction expired using List.reverseRecOn with
  | nil => rfl
  | append_singleton expired p ih =>
    rw [List.map_append, Dict.gather, List.map_singleton, Dict.accumulate_concat, ← Dict.gather, ← ih,
      windows, List.foldl_append, ← windows, ih]
    exact Members.set_eq_upsert (Dict.nodup_gather _) fun keys => keys.getD [] ++ [p.1]

omit [PyFloat F] in
/-- **The date of a row that has occurred.** -/
theorem dateIsoformat_eq (hL : L.WritesIso) {r : Row F} (h : Occurred job checked r) :
    dateIsoformat L (occurredAt job r) = IsoTime.isoDate (dayOf job r) := by
  obtain ⟨us, hus, hcalendar, -⟩ := h
  rw [dateIsoformat, dayOf, occurredAt, hus, hL us hcalendar]
  exact IsoTime.take_format hcalendar

omit [PyFloat F] in
/-- **Rows of one date are of one day.** -/
theorem dayOf_inj {r r' : Row F} (h : Occurred job checked r) (h' : Occurred job checked r')
    (hdate : IsoTime.isoDate (dayOf job r) = IsoTime.isoDate (dayOf job r')) :
    dayOf job r = dayOf job r' := by
  have hcalendar : ∀ {r : Row F}, Occurred job checked r →
      IsoTime.daysFromCivil 1 1 1 ≤ dayOf job r ∧
        dayOf job r ≤ IsoTime.daysFromCivil 9999 12 31 := by
    rintro r ⟨us, hus, hcalendar, -⟩
    rw [dayOf, occurredAt, hus]
    exact hcalendar.day
  obtain hlt | heq | hgt := lt_trichotomy (dayOf job r) (dayOf job r')
  · exact absurd hdate (IsoTime.isoDate_lt (hcalendar h).1 (hcalendar h').2 hlt).ne
  · exact heq
  · exact absurd hdate (IsoTime.isoDate_lt (hcalendar h').1 (hcalendar h).2 hgt).ne'

/-- **A plan parts its rows**: each is in one tier, and the expired ones
are in the batches of their UTC days. -/
structure RetentionPlan.Parts (job : Job) (checked : ℤ) (rows : List (Row F))
    (plan : RetentionPlan) : Prop where
  total : plan.totalRows = rows.length
  counts : plan.hotRows + plan.coldRows + plan.expiredRows = plan.totalRows
  hot : plan.hotRows = (rowsIn job checked .hot rows).length
  cold : plan.coldRows = (rowsIn job checked .cold rows).length
  expired : plan.expiredRows = (rowsIn job checked .expired rows).length
  keys : (plan.batches.flatMap RetentionBatch.keys).Perm
    ((rowsIn job checked .expired rows).map fun r => (r.get job.keyColumn).str)
  window : ∀ batch ∈ plan.batches, ∃ day, batch.windowDate = IsoTime.isoDate day ∧
    batch.keys.Perm (((rowsIn job checked .expired rows).filter fun r => dayOf job r = day).map
      fun r => (r.get job.keyColumn).str)
  covered : ∀ r ∈ rowsIn job checked .expired rows,
    ∃ batch ∈ plan.batches, batch.windowDate = IsoTime.isoDate (dayOf job r)
  increasing : plan.batches.Pairwise fun b b' => b.windowDate < b'.windowDate
  sorted : ∀ batch ∈ plan.batches, batch.keys.Pairwise (· ≤ ·)

/-- The batches of some expired rows. -/
def batchesOf (L : Library) (job : Job) (expired : List (Row F)) : List RetentionBatch :=
  (sortBy Prod.fst (windows L (expired.map (keyed job)))).map fun w =>
    ⟨w.1, w.2.insertionSort (· ≤ ·)⟩

/-- The batch of the date of a row. -/
def batchOf (L : Library) (job : Job) (expired : List (Row F)) (r : Row F) : RetentionBatch where
  windowDate := dateIsoformat L (occurredAt job r)
  keys := ((expired.filter fun r' => dateIsoformat L (occurredAt job r') =
    dateIsoformat L (occurredAt job r)).map fun r' => (r'.get job.keyColumn).str).insertionSort
      (· ≤ ·)

/-- The keys of the rows of one date. -/
theorem valuesOf_dates (expired : List (Row F)) (date : Text) :
    Dict.valuesOf date (expired.map ((fun p => (dateIsoformat L p.2, p.1)) ∘ keyed job)) =
      (expired.filter fun r => dateIsoformat L (occurredAt job r) = date).map
        fun r => (r.get job.keyColumn).str := by
  rw [Dict.valuesOf, List.filter_map, List.map_map]
  rfl

/-- **The batches are those of the dates.** -/
theorem mem_batchesOf {expired : List (Row F)} {batch : RetentionBatch} :
    batch ∈ batchesOf L job expired ↔ ∃ r ∈ expired, batchOf L job expired r = batch := by
  rw [batchesOf, List.mem_map, windows_eq, List.map_map]
  constructor
  · rintro ⟨⟨date, keys⟩, hmem, rfl⟩
    obtain ⟨hkeys, hne⟩ := Dict.mem_gather.1 (mem_sortBy.1 hmem)
    have hvalues := hkeys.trans (valuesOf_dates expired date)
    obtain ⟨key, hkey⟩ := List.exists_mem_of_ne_nil _ hne
    rw [hvalues] at hkey
    obtain ⟨r, hr, -⟩ := List.mem_map.1 hkey
    obtain ⟨hr, hdate⟩ := List.mem_filter.1 hr
    refine ⟨r, hr, ?_⟩
    rw [batchOf, of_decide_eq_true hdate, hvalues]
  · rintro ⟨r, hr, rfl⟩
    have hmem : (dateIsoformat L (occurredAt job r), (r.get job.keyColumn).str) ∈
        expired.map ((fun p => (dateIsoformat L p.2, p.1)) ∘ keyed job) :=
      List.mem_map.2 ⟨r, hr, rfl⟩
    refine ⟨_, mem_sortBy.2 (Dict.mem_gather.2
      ⟨rfl, List.ne_nil_of_mem (Dict.mem_valuesOf.2 hmem)⟩), ?_⟩
    rw [batchOf, ← valuesOf_dates]

/-- **Every expired key is in one batch**, as often as it occurs. -/
theorem batchesOf_keys (expired : List (Row F)) :
    ((batchesOf L job expired).flatMap RetentionBatch.keys).Perm
      (expired.map fun r => (r.get job.keyColumn).str) := by
  have hsorted : ∀ ws : Members (List Text), ((ws.map fun w : Text × List Text =>
      (⟨w.1, w.2.insertionSort (· ≤ ·)⟩ : RetentionBatch)).flatMap RetentionBatch.keys).Perm
        (ws.flatMap Prod.snd) := by
    intro ws
    rw [List.flatMap_map]
    exact List.Perm.flatMap_left ws fun w _ => List.perm_insertionSort _ w.2
  refine (hsorted _).trans (((perm_sortBy _ _).flatMap_right _).trans ?_)
  rw [windows_eq]
  refine (Dict.flatMap_gather _).trans ?_
  rw [List.map_map, List.map_map]
  rfl

/-- **The dates of the batches increase.** -/
theorem batchesOf_increasing (expired : List (Row F)) :
    (batchesOf L job expired).Pairwise fun b b' => b.windowDate < b'.windowDate := by
  have hdistinct : ((sortBy Prod.fst (windows L (expired.map (keyed job)))).map Prod.fst).Nodup := by
    rw [((perm_sortBy _ _).map _).nodup_iff, windows_eq]
    exact Dict.nodup_gather _
  rw [batchesOf, List.pairwise_map]
  exact ((pairwise_sortBy Prod.fst _).and (List.pairwise_map.1 hdistinct)).imp
    fun ⟨hle, hne⟩ => lt_of_le_of_ne hle hne

/-- The keys of a batch are sorted. -/
theorem batchesOf_sorted {expired : List (Row F)} {batch : RetentionBatch}
    (h : batch ∈ batchesOf L job expired) : batch.keys.Pairwise (· ≤ ·) := by
  obtain ⟨r, -, rfl⟩ := mem_batchesOf.1 h
  exact List.pairwise_insertionSort _ _

/-- **Each batch has the keys of its UTC day.** -/
theorem batchesOf_window (hL : L.WritesIso) {expired : List (Row F)}
    (hoccurred : ∀ r ∈ expired, Occurred job checked r) {batch : RetentionBatch}
    (h : batch ∈ batchesOf L job expired) : ∃ day, batch.windowDate = IsoTime.isoDate day ∧
      batch.keys.Perm ((expired.filter fun r => dayOf job r = day).map
        fun r => (r.get job.keyColumn).str) := by
  obtain ⟨r, hr, rfl⟩ := mem_batchesOf.1 h
  refine ⟨dayOf job r, dateIsoformat_eq hL (hoccurred r hr), ?_⟩
  have hfilter : (expired.filter fun r' => dateIsoformat L (occurredAt job r') =
      dateIsoformat L (occurredAt job r)) =
      expired.filter fun r' => dayOf job r' = dayOf job r := by
    refine List.filter_congr fun r' hr' => decide_eq_decide.2 ?_
    rw [dateIsoformat_eq hL (hoccurred r hr), dateIsoformat_eq hL (hoccurred r' hr')]
    exact ⟨dayOf_inj (hoccurred r' hr') (hoccurred r hr), fun h => congrArg _ h⟩
  rw [batchOf, hfilter]
  exact List.perm_insertionSort _ _

/-- **The plan of rows that have occurred.** -/
theorem planOf_parts (hL : L.WritesIso) {rows : List (Row F)}
    (hrows : ∀ r ∈ rows, Occurred job checked r) :
    ∃ plan, planOf L job checked rows = .ok plan ∧ plan.Parts job checked rows := by
  have hclassified : ∀ r ∈ rows, ∃ p, classify L job checked r = .ok p := by
    intro r hr
    obtain ⟨us, hus, -, hle⟩ := hrows r hr
    exact classify_of_le hus hle
  obtain ⟨tiers, htiers⟩ := exists_collect_map hclassified
  have hlen : tiers.length = rows.length := by
    rw [← (collect_eq_ok.1 htiers).length_eq, List.length_map]
  have htier := tierOf_eq htiers
  obtain ⟨expired, hexpired⟩ : ∃ expired, expired = rowsIn job checked .expired rows := ⟨_, rfl⟩
  have hoccurred : ∀ r ∈ expired, Occurred job checked r := by
    rintro r hr
    rw [hexpired] at hr
    exact hrows r (List.mem_of_mem_filter hr)
  refine ⟨_, by rw [planOf, htiers, ok_bind]; rfl, ?_⟩
  have hbatches : (sortBy Prod.fst (windows L (tierOf .expired tiers))).map
      (fun w => (⟨w.1, w.2.insertionSort (· ≤ ·)⟩ : RetentionBatch)) = batchesOf L job expired := by
    rw [htier, batchesOf, hexpired]
  have hkeyed : ∀ tier, (tierOf tier tiers).length = (rowsIn job checked tier rows).length := by
    intro tier
    rw [htier, List.length_map]
  constructor
  case total => rfl
  case counts => exact (length_tierOf tiers).trans hlen
  case hot => exact hkeyed .hot
  case cold => exact hkeyed .cold
  case expired => exact hkeyed .expired
  all_goals
    simp only
    rw [hbatches]
  case keys =>
    rw [← hexpired]
    exact batchesOf_keys expired
  case window =>
    rw [← hexpired]
    exact fun batch hbatch => batchesOf_window hL hoccurred hbatch
  case covered =>
    rw [← hexpired]
    intro r hr
    have hdate := dateIsoformat_eq hL (hoccurred r hr)
    exact ⟨_, mem_batchesOf.2 ⟨r, hr, rfl⟩, hdate⟩
  case increasing => exact batchesOf_increasing expired
  case sorted => exact fun batch hbatch => batchesOf_sorted hbatch

/-- **Retention plan is a partition, and monotone in time.** -/
theorem planOf_partition (hL : L.WritesIso) {rows : List (Row F)}
    (hrows : ∀ r ∈ rows, Occurred job checked r) :
    (∃ plan, planOf L job checked rows = .ok plan ∧ plan.Parts job checked rows) ∧
      ∀ later, checked ≤ later → ∀ r ∈ rows,
        (InTier job checked .cold r → InTier job later .cold r ∨ InTier job later .expired r) ∧
        (InTier job checked .expired r → InTier job later .expired r) :=
  ⟨planOf_parts hL hrows, fun _ hle _ _ => InTier.later hle⟩

/-- An aged table of three rows. -/
theorem planOf_partition_aged : ∃ plan,
    planOf Library.ascii (sevenYears true) (4015 * RetentionPolicy.day) agedTable.rows = .ok plan ∧
      plan.Parts (sevenYears true) (4015 * RetentionPolicy.day) agedTable.rows := by
  refine (planOf_partition Library.ascii_writesIso ?_).1
  intro r hr
  simp only [agedTable, List.mem_cons, List.not_mem_nil, or_false] at hr
  obtain rfl | rfl | rfl := hr
  all_goals exact ⟨_, rfl, by decide, by decide⟩

end Retention

end Lakehouse

import Lakehouse.Delta.Running
import Lakehouse.Medallion.Bronze
import Lakehouse.Retention.Partition
/-!
# Classifying the rows of bronze

The two functions that put every row of a table in its retention tier,
`plan_retention` and `retention_report`, over the tables that `append_events`
makes of normalized events. Both return unless an event occurred later than
the reference time, and then both raise what `tier_for` does
(`retention_of_ingested`).
-/

namespace Lakehouse

namespace Medallion

open Ingest Retention Segregation

variable {F : Type} [PyFloat F] (L : Library)

/-! ## The report -/

/-- The counts of a report. -/
structure TierCounts where
  hot : ℕ
  cold : ℕ
  expired : ℕ
  deriving DecidableEq, Repr

/-- `counts[tier] += 1`. -/
def TierCounts.add (counts : TierCounts) : Tier → TierCounts
  | .hot => { counts with hot := counts.hot + 1 }
  | .cold => { counts with cold := counts.cold + 1 }
  | .expired => { counts with expired := counts.expired + 1 }

/-- The loop of `retention_report`. -/
def countTiers (retention : RetentionPolicy) (checked : ℤ) :
    List (Row F) → TierCounts → Except PyError TierCounts
  | [], counts => .ok counts
  | r :: rows, counts =>
    match r.get "occurred_at" with
    | .instant occurredAt => do
      let tier ← retention.tierFor occurredAt checked
      countTiers retention checked rows (counts.add tier)
    | _ => .error .attributeError

/-- `reference or datetime.now(UTC)`. -/
def referenceOr (reference : Option ℤ) : Script F ℤ :=
  match reference with
  | some reference => .ret reference
  | none => Script.now

/-- The report of a table that is there. -/
def reportTable (bronzeUri : Text) (retention : RetentionPolicy) (reference : Option ℤ) :
    Script F TierCounts := do
  let checked ← referenceOr reference
  let table ← Script.openTable bronzeUri
  let rows ← Script.readRows table ["occurred_at"] none
  Script.pure (countTiers retention checked rows ⟨0, 0, 0⟩)

/-- **`retention_report`.** -/
def retentionReport (writer : SegregatedDeltaWriter L) (retention : RetentionPolicy)
    (reference : Option ℤ) : Script F TierCounts :=
  if writer.scope ≠ .cvff then
    .raise (.boundaryViolation (lit "retention reporting is only defined for the cvff boundary"))
  else do
    let bronzeUri ← Script.pure (writer.tableUri (lit "bronze"))
    let isThere ← deltaTableExists bronzeUri
    if isThere then reportTable bronzeUri retention reference
    else .raise (.valueError
      (lit "cannot report retention before the bronze table exists"))

/-! ## Ingested tables -/

/-- An event that `normalize_event` returns. -/
def Normalized (F : Type) [PyFloat F] (L : Library) (e : Event) : Prop :=
  ∃ (now : ℤ) (event : InternalEvent F), normalizeEvent L now event = .ok e

/-- **A table that `append_events` has populated** with normalized events,
whether or not each call returned. -/
inductive Ingested (E : Engine F) (L : Library) (uri : Text) (w₀ : World F) : World F → Prop
  | nil : Ingested E L uri w₀ w₀
  | append {w : World F} {events : List Event} (tableDescription : Option Text) :
      Ingested E L uri w₀ w → (∀ e ∈ events, Normalized F L e) →
      Ingested E L uri w₀
        ((appendEvents L uri (events.map Event.row) tableDescription).run E.handle w).2

/-- Some row of a table occurred later than a reference time. -/
def Later (checked : ℤ) (t : Table F) : Prop :=
  ∃ r ∈ t.rows, ∃ us, r.get "occurred_at" = .instant us ∧ checked < us

/-- What `tier_for` raises. -/
def laterError : PyError :=
  .valueError (lit "occurred_at must not be later than the retention reference time")

variable {L} {E : Engine F} {uri : Text} {w w₀ : World F} {t : Table F} {older : List (Table F)}
  {checked : ℤ}

/-- An instant. -/
def IsInstant (c : Cell F) : Prop := ∃ us, c = .instant us

/-- **What ingestion keeps of its table.** -/
theorem Ingested.columns (h₀ : w₀.tables uri = []) (h : Ingested E L uri w₀ w) :
    HasColumn IsText "event_id" uri w ∧ HasColumn IsInstant "occurred_at" uri w ∧
      (w.tables uri ≠ [] → Uri.validateTableUri L uri = .ok ()) := by
  induction h with
  | nil => simp [HasColumn, h₀]
  | @append w events tableDescription _ _ ih =>
    obtain ⟨hid, hoccurred, huri⟩ := ih
    have hends := ends_appendRows (E.ends_of_run (Prod.mk.eta :
      (_, ((appendEvents L uri (events.map Event.row) tableDescription).run E.handle w).2) = _).symm)
    have hrows : ∀ r ∈ (events.map Event.row : List (Row F)),
        IsText (r.get "event_id") ∧ IsInstant (r.get "occurred_at") := by
      intro r hr
      obtain ⟨e, -, rfl⟩ := List.mem_map.1 hr
      refine ⟨⟨_, e.get_eventId⟩, e.occurredAt, ?_⟩
      unfold Event.row
      cases e.recordClassification <;> rfl
    refine ⟨hends.hasColumn IsText.ne_null (fun r hr => (hrows r hr).1) hid,
      hends.hasColumn ?_ (fun r hr => (hrows r hr).2) hoccurred, fun hne => ?_⟩
    · rintro _ ⟨us, rfl⟩ ⟨⟩
    · exact hends.valid huri hne

/-! ## Tiers -/

/-- A time after the one checked has no tier. -/
theorem tierFor_of_lt (policy : RetentionPolicy) {us : ℤ} (h : checked < us) :
    policy.tierFor us checked = .error laterError := by
  unfold RetentionPolicy.tierFor
  exact if_pos h

/-- **What a plan makes of rows with an instant.** -/
theorem planOf_cases {job : Job} {rows : List (Row F)} (htime : job.timeColumn = "occurred_at")
    (hrows : ∀ r ∈ rows, IsInstant (r.get "occurred_at")) :
    ((∀ r ∈ rows, ∀ us, r.get "occurred_at" = .instant us → us ≤ checked) →
      ∃ plan, planOf L job checked rows = .ok plan ∧ plan.totalRows = rows.length ∧
        plan.hotRows + plan.coldRows + plan.expiredRows = plan.totalRows) ∧
    ((∃ r ∈ rows, ∃ us, r.get "occurred_at" = .instant us ∧ checked < us) →
      planOf L job checked rows = .error laterError) := by
  have hclassify : ∀ r ∈ rows, ∀ us, r.get "occurred_at" = .instant us →
      (us ≤ checked → ∃ p, classify L job checked r = .ok p) ∧
        (checked < us → classify L job checked r = .error laterError) := by
    intro r _ us hus
    refine ⟨classify_of_le (htime ▸ hus), fun h => ?_⟩
    unfold classify
    rw [htime, hus]
    simp only
    rw [tierFor_of_lt _ h, error_bind]
  constructor
  · intro h
    have hall : ∀ r ∈ rows, ∃ p, classify L job checked r = .ok p := by
      intro r hr
      obtain ⟨us, hus⟩ := hrows r hr
      exact (hclassify r hr us hus).1 (h r hr us hus)
    obtain ⟨tiers, htiers⟩ := exists_collect_map hall
    have hlen : tiers.length = rows.length := by
      rw [← (collect_eq_ok.1 htiers).length_eq, List.length_map]
    refine ⟨_, by rw [planOf, htiers, ok_bind]; rfl, rfl, ?_⟩
    simp only
    rw [length_tierOf, hlen]
  · rintro ⟨r, hr, us, hus, hlt⟩
    rw [planOf, collect_map_eq_error, error_bind]
    · intro r' hr'
      obtain ⟨us', hus'⟩ := hrows r' hr'
      obtain h | h := le_or_gt us' checked
      · exact Or.inl ((hclassify r' hr' us' hus').1 h)
      · exact Or.inr ((hclassify r' hr' us' hus').2 h)
    · exact ⟨r, hr, (hclassify r hr us hus).2 hlt⟩

omit [PyFloat F] in
/-- **What a report makes of them.** -/
theorem countTiers_cases (retention : RetentionPolicy) {rows : List (Row F)}
    (hrows : ∀ r ∈ rows, IsInstant (r.get "occurred_at")) (counts : TierCounts) :
    ((∀ r ∈ rows, ∀ us, r.get "occurred_at" = .instant us → us ≤ checked) →
      ∃ total, countTiers retention checked rows counts = .ok total ∧
        total.hot + total.cold + total.expired =
          counts.hot + counts.cold + counts.expired + rows.length) ∧
    ((∃ r ∈ rows, ∃ us, r.get "occurred_at" = .instant us ∧ checked < us) →
      countTiers retention checked rows counts = .error laterError) := by
  induction rows generalizing counts with
  | nil => exact ⟨fun _ => ⟨counts, rfl, rfl⟩, fun h => absurd h (by simp)⟩
  | cons r rows ih =>
    obtain ⟨us, hus⟩ := hrows r List.mem_cons_self
    obtain hle | hlt := le_or_gt us checked
    · obtain ⟨tier, htier⟩ := tierFor_of_le retention hle
      have hadd : (counts.add tier).hot + (counts.add tier).cold + (counts.add tier).expired =
          counts.hot + counts.cold + counts.expired + 1 := by
        cases tier <;> simp [TierCounts.add] <;> omega
      obtain ⟨ih₁, ih₂⟩ := ih (fun r' hr' => hrows r' (List.mem_cons_of_mem r hr')) (counts.add tier)
      simp only [countTiers, hus, htier, ok_bind]
      refine ⟨fun h => ?_, fun h => ih₂ ?_⟩
      · obtain ⟨total, htotal, hsum⟩ := ih₁ fun r' hr' => h r' (List.mem_cons_of_mem r hr')
        exact ⟨total, htotal, by rw [hsum, hadd, List.length_cons]; omega⟩
      · obtain ⟨r', hr', us', hus', hlt⟩ := h
        obtain rfl | hr' := List.mem_cons.1 hr'
        · rw [hus] at hus'
          cases hus'
          omega
        · exact ⟨r', hr', us', hus', hlt⟩
    · simp only [countTiers, hus, tierFor_of_lt retention hlt, error_bind]
      exact ⟨fun h => absurd (h r List.mem_cons_self us hus) (by omega), fun _ => trivial⟩

/-! ## The runs -/

/-- What a read of some columns shows of their rows. -/
theorem mem_order {columns : List String} {r : Row F} :
    r ∈ E.order (t.read columns none) ↔ ∃ u ∈ t.rows, u.project columns = r := by
  rw [(E.order_perm _).mem_iff, Table.read_none, List.mem_map]

/-- The rows a read shows occurred when the stored ones did. -/
theorem exists_later_iff {columns : List String} (hc : "occurred_at" ∈ columns) :
    (∃ r ∈ E.order (t.read columns none), ∃ us,
      r.get "occurred_at" = .instant us ∧ checked < us) ↔ Later checked t := by
  constructor
  · rintro ⟨r, hr, us, hus, hlt⟩
    obtain ⟨u, hu, rfl⟩ := mem_order.1 hr
    rw [Row.get_project_of_mem hc] at hus
    exact ⟨u, hu, us, hus, hlt⟩
  · rintro ⟨u, hu, us, hus, hlt⟩
    exact ⟨_, mem_order.2 ⟨u, hu, rfl⟩, us, by rwa [Row.get_project_of_mem hc], hlt⟩

/-- The plan reads the newest version of the table. -/
theorem run_planRetention {job : Job} (ht : w.tables job.tableUri = t :: older)
    (huri : Uri.validateTableUri L job.tableUri = .ok ())
    (hcolumns : [job.keyColumn, job.timeColumn] ⊆ t.columns) :
    (planRetention L job checked).run E.handle w =
      (planOf L job checked (E.order (t.read [job.keyColumn, job.timeColumn] none)), w) := by
  have hread : (readTable L job).run E.handle w =
      (.ok (E.order (t.read [job.keyColumn, job.timeColumn] none)), w) := by
    have hopen := E.run_openTable ht
    rw [readTable, Prog.run_bind, Prog.run_orElse, hopen]
    exact E.run_readRows hcolumns
  rw [planRetention, huri]
  simp only [Script.pure, Prog.lift_ok, Prog.ret_bind]
  rw [Prog.run_bind_ok _ hread, Prog.run_lift]

/-- The report reads the newest version of the table. -/
theorem run_retentionReport {writer : SegregatedDeltaWriter L} (retention : RetentionPolicy)
    (hscope : writer.scope = .cvff) (huri : writer.tableUri (lit "bronze") = .ok uri)
    (ht : w.tables uri = t :: older) (hcolumn : "occurred_at" ∈ t.columns) :
    (retentionReport L writer retention (some checked) : Script F TierCounts).run E.handle w =
      (countTiers retention checked (E.order (t.read ["occurred_at"] none)) ⟨0, 0, 0⟩, w) := by
  have hcolumns : ["occurred_at"] ⊆ t.columns := by simpa using hcolumn
  rw [retentionReport, if_neg (by simp [hscope]), huri]
  simp only [Script.pure, Prog.lift_ok, Prog.ret_bind]
  rw [Prog.run_bind_ok _ (run_deltaTableExists E uri w), ht]
  simp only [List.isEmpty_cons, Bool.not_false, if_true, reportTable, referenceOr, Prog.ret_bind]
  rw [Prog.run_bind_ok _ (E.run_openTable ht), Prog.run_bind_ok _ (E.run_readRows hcolumns),
    Prog.run_lift]

/-- **The tables that ingestion populates can be classified at every reference
time that no row is later than**, and both functions then count every row in
one tier; at any other they raise, and change nothing. -/
theorem retention_of_ingested (h₀ : w₀.tables uri = []) (h : Ingested E L uri w₀ w)
    (ht : w.tables uri = t :: older) (checked : ℤ) (job : Job) (huri : job.tableUri = uri)
    (hkey : job.keyColumn = "event_id") (htime : job.timeColumn = "occurred_at") :
    (¬Later checked t →
      (∃ plan, (planRetention L job checked).run E.handle w = (.ok plan, w) ∧
        plan.totalRows = t.rows.length ∧
        plan.hotRows + plan.coldRows + plan.expiredRows = plan.totalRows) ∧
      ∀ (writer : SegregatedDeltaWriter L) (retention : RetentionPolicy), writer.scope = .cvff →
        writer.tableUri (lit "bronze") = .ok uri → ∃ counts,
          (retentionReport L writer retention (some checked)).run E.handle w = (.ok counts, w) ∧
            counts.hot + counts.cold + counts.expired = t.rows.length) ∧
    (Later checked t →
      (planRetention L job checked).run E.handle w = (.error laterError, w) ∧
      ∀ (writer : SegregatedDeltaWriter L) (retention : RetentionPolicy), writer.scope = .cvff →
        writer.tableUri (lit "bronze") = .ok uri →
          (retentionReport L writer retention (some checked)).run E.handle w =
            (.error laterError, w)) := by
  obtain ⟨hids, hoccurred, hvalid⟩ := h.columns h₀
  have hnewest : t ∈ (w.tables uri).head? := by rw [ht]; rfl
  have hvalid := hvalid (by rw [ht]; exact List.cons_ne_nil _ _)
  obtain ⟨hidColumn, -⟩ := hids t hnewest
  obtain ⟨htimeColumn, hinstants⟩ := hoccurred t hnewest
  subst huri
  -- what is read of the table has instants as its times
  have hinstant : ∀ {columns}, "occurred_at" ∈ columns →
      ∀ r ∈ E.order (t.read columns none), IsInstant (r.get "occurred_at") := by
    intro columns hc r hr
    obtain ⟨u, hu, rfl⟩ := mem_order.1 hr
    rw [Row.get_project_of_mem hc]
    exact hinstants u hu
  have hlength : ∀ columns, (E.order (t.read columns none)).length = t.rows.length := by
    intro columns
    rw [(E.order_perm _).length_eq, Table.read_none, List.length_map]
  have hcolumns : [job.keyColumn, job.timeColumn] ⊆ t.columns := by
    rw [hkey, htime]
    simp [hidColumn, htimeColumn]
  have hboth : "occurred_at" ∈ [job.keyColumn, job.timeColumn] := by simp [htime]
  have hone : "occurred_at" ∈ ["occurred_at"] := List.mem_cons_self
  have hle : ∀ {columns}, "occurred_at" ∈ columns → ¬Later checked t →
      ∀ r ∈ E.order (t.read columns none), ∀ us, r.get "occurred_at" = .instant us →
        us ≤ checked := by
    intro columns hc hlater r hr us hus
    by_contra hlt
    exact hlater ((exists_later_iff hc).1 ⟨r, hr, us, hus, by omega⟩)
  -- both functions raise for a row later than the time checked, and only for it
  obtain ⟨hplan, hplanError⟩ := planOf_cases (L := L) htime (hinstant hboth)
  rw [run_planRetention ht hvalid hcolumns]
  refine ⟨fun hlater => ⟨?_, fun writer retention hscope hbronze => ?_⟩,
    fun hlater => ⟨?_, fun writer retention hscope hbronze => ?_⟩⟩
  · obtain ⟨plan, hplan, htotal, hsum⟩ := hplan (hle hboth hlater)
    exact ⟨plan, by rw [hplan], by rw [htotal, hlength], hsum⟩
  · obtain ⟨counts, hcounts, hsum⟩ :=
      (countTiers_cases retention (hinstant hone) ⟨0, 0, 0⟩).1 (hle hone hlater)
    refine ⟨counts, by rw [run_retentionReport retention hscope hbronze ht htimeColumn, hcounts], ?_⟩
    rw [hsum, hlength]
    exact Nat.zero_add _
  · rw [hplanError ((exists_later_iff hboth).2 hlater)]
  · rw [run_retentionReport retention hscope hbronze ht htimeColumn,
      (countTiers_cases retention (hinstant hone) ⟨0, 0, 0⟩).2 ((exists_later_iff hone).2 hlater)]

/-! ### One event -/

/-- An event of the year 2026. -/
def disbursement : InternalEvent Decimal where
  eventId := lit "e1"
  eventType := lit "cvff.disbursement.v1"
  producer := lit "cvff-core"
  occurredAt := .str (lit "2026-01-01T00:00:00Z")
  recordedAt := .str (lit "2026-01-01T00:00:00Z")
  dataClassification := lit "fiduciary_segregated"
  sourceSystem := lit "cvff-core"
  sourceRecordReference := lit "r1"
  correlationId := .null
  payload := []
  recordClassification := .null

/-- Its row. -/
def disbursed : Event where
  eventId := lit "e1"
  eventType := lit "cvff.disbursement.v1"
  producer := lit "cvff-core"
  occurredAt := 1767225600000000
  recordedAt := 1767225600000000
  dataClassification := lit "fiduciary_segregated"
  sourceSystem := lit "cvff-core"
  sourceRecordReference := lit "r1"
  correlationId := none
  payloadJson := lit "\x7b\x7d"
  ingestedAt := 0
  recordClassification := none

/-- The sample event is normalized. -/
theorem normalized_disbursed : ∀ e ∈ [disbursed], Normalized Decimal Library.ascii e := by
  intro e he
  rw [List.mem_singleton.1 he]
  exact ⟨0, disbursement, toOption_eq_some.1 (by decide +kernel)⟩

/-- The table it is appended to. -/
def disbursements : Table Decimal where
  version := 0
  appendOnly := true
  mergeWritten := false
  columns := (disbursed.row : Row Decimal).columns
  rows := [disbursed.row]

/-- What it is created with. -/
def disbursedSource : ArrowTable Decimal where
  columns := disbursements.columns
  rows := disbursements.rows

/-- The sample event is ingested. -/
theorem ingested_disbursed : ∃ w, Ingested (Engine.plain Decimal) Library.ascii commitmentsUri
    noTables w ∧ w.tables commitmentsUri = [disbursements] := by
  have hbatch : Batch (F := Decimal) "event_id" eventIdentityColumns
      ([disbursed].map Event.row) none :=
    Batch.events (List.cons_ne_nil disbursed []) (List.nodup_singleton (lit "e1"))
  have huri : Uri.validateTableUri Library.ascii commitmentsUri = .ok () :=
    toOption_eq_some.1 (by decide +kernel)
  have hsource : ArrowTable.fromPylist ([disbursed].map Event.row) none = .ok disbursedSource :=
    rfl
  have hrun : (appendEvents Library.ascii commitmentsUri ([disbursed].map Event.row) none).run
      (Engine.plain Decimal).handle noTables =
        (.ok ⟨0, 1, 0⟩, noTables.push commitmentsUri (World.created disbursedSource)) :=
    run_appendRows_create hbatch huri hsource rfl rfl
  have hnone : Ingested (Engine.plain Decimal) Library.ascii commitmentsUri noTables noTables :=
    .nil
  refine ⟨_, hnone.append none normalized_disbursed, ?_⟩
  rw [hrun]
  exact World.push_tables_self _ _ _

/-- Thirty days of hot and seven years of cold retention. -/
def commitmentJob : Job where
  tableUri := commitmentsUri
  policy := defaultPolicy
  auditTableUri := lit "/srv/audit"
  apply := false
  archiveUri := none
  operator := lit "ops"
  reference := none
  keyColumn := "event_id"
  timeColumn := "occurred_at"

/-- A microsecond after it. -/
def afterIt : ℤ := 1767225600000001

/-- The sample event is not later than the time checked. -/
theorem not_later_disbursements : ¬Later afterIt disbursements := by
  rintro ⟨r, hr, us, hus, hlt⟩
  obtain rfl := List.mem_singleton.1 hr
  have hus : (Cell.instant 1767225600000000 : Cell Decimal) = .instant us := hus
  cases hus
  exact absurd hlt (by decide)

/-- At that time its row is counted. -/
theorem retention_of_disbursed : ∃ w plan, w.tables commitmentsUri = [disbursements] ∧
    (planRetention Library.ascii commitmentJob afterIt).run (Engine.plain Decimal).handle w =
      (.ok plan, w) ∧ plan.totalRows = 1 := by
  obtain ⟨w, hingested, htables⟩ := ingested_disbursed
  obtain ⟨⟨plan, hplan, htotal, -⟩, -⟩ := (retention_of_ingested rfl hingested htables afterIt
    commitmentJob rfl rfl rfl).1 not_later_disbursements
  exact ⟨w, plan, htables, hplan, htotal⟩

/-- At a time before it, the row makes the plan fail. -/
theorem retention_not_always :
    ¬∀ (L : Library) (E : Engine Decimal) (uri : Text) (w₀ w : World Decimal) (job : Job)
      (checked : ℤ), w₀.tables uri = [] → Ingested E L uri w₀ w → w.tables uri ≠ [] →
        job.tableUri = uri → job.keyColumn = "event_id" → job.timeColumn = "occurred_at" →
          ∃ plan, (planRetention L job checked).run E.handle w = (.ok plan, w) := by
  intro h
  obtain ⟨w, hingested, htables⟩ := ingested_disbursed
  have hne : w.tables commitmentsUri ≠ [] := by
    rw [htables]
    exact List.cons_ne_nil _ _
  obtain ⟨plan, hplan⟩ :=
    h _ _ _ _ _ commitmentJob 0 rfl hingested hne rfl rfl rfl
  have huri : Uri.validateTableUri Library.ascii commitmentsUri = .ok () :=
    toOption_eq_some.1 (by decide +kernel)
  rw [run_planRetention htables huri (by decide)] at hplan
  have herror : planOf Library.ascii commitmentJob 0 [(disbursed.row : Row Decimal)] =
      (.error laterError : Except PyError RetentionPlan) := rfl
  cases (congrArg Prod.fst hplan).symm.trans herror

end Medallion

end Lakehouse

import Lakehouse.Delta.AppendRows
import Lakehouse.PyJson
/-!
# Retention

`enforce_retention`: the rows of a table are classified by their age, the
expired ones are deleted in batches of one day each, under an append-only
property lifted for the deletes, and every batch is recorded in an audit
table. Without `apply` the batches are only planned and recorded.
-/

namespace Lakehouse

namespace Retention

open Ingest

variable {F : Type} [PyFloat F] (L : Library)

/-! ## The policy -/

/-- **`RetentionPolicy`**: `__post_init__` refuses every other. -/
structure RetentionPolicy where
  hotDays : ℤ
  coldYears : ℤ
  hot : 1 ≤ hotDays ∧ hotDays ≤ 366
  cold : 1 ≤ coldYears ∧ coldYears ≤ 25
  ordered : hotDays < coldYears * 365

theorem hot_thirty : (1 : ℤ) ≤ 30 ∧ (30 : ℤ) ≤ 366 := by decide

theorem cold_seven : (1 : ℤ) ≤ 7 ∧ (7 : ℤ) ≤ 25 := by decide

theorem thirty_days_before_seven_years : (30 : ℤ) < 7 * 365 := by decide

inductive Tier where
  | hot | cold | expired
  deriving DecidableEq, Repr

namespace RetentionPolicy

/-- A day, in microseconds. -/
def day : ℤ := 86400000000

def hotHorizon (policy : RetentionPolicy) : ℤ := policy.hotDays * day

def coldHorizon (policy : RetentionPolicy) : ℤ := policy.coldYears * 365 * day

/-- **`tier_for`.** -/
def tierFor (policy : RetentionPolicy) (occurred checked : ℤ) : Except PyError Tier :=
  if checked < occurred then
    .error (.valueError
      (lit "occurred_at must not be later than the retention reference time"))
  else if checked - occurred ≤ policy.hotHorizon then .ok .hot
  else if checked - occurred ≤ policy.coldHorizon then .ok .cold
  else .ok .expired

end RetentionPolicy

/-- The arguments of `enforce_retention`. -/
structure Job where
  tableUri : Text
  policy : RetentionPolicy
  auditTableUri : Text
  apply : Bool
  archiveUri : Option Text
  operator : Text
  reference : Option ℤ
  keyColumn : String
  timeColumn : String

/-- One day of expired rows. -/
structure RetentionBatch where
  windowDate : Text
  keys : List Text
  deriving DecidableEq

structure RetentionPlan where
  tableUri : Text
  reference : ℤ
  totalRows : ℕ
  hotRows : ℕ
  coldRows : ℕ
  expiredRows : ℕ
  batches : List RetentionBatch
  coldKeys : List Text

/-! ## The plan -/

/-- A row, classified: its tier, its key and its instant. -/
def classify (job : Job) (checked : ℤ) (r : Row F) : Except PyError (Tier × Text × ℤ) :=
  match r.get job.timeColumn with
  | .instant occurredAt => do
    return (← job.policy.tierFor occurredAt checked, (r.get job.keyColumn).str, occurredAt)
  | _ => .error (.valueError (lit "retention time column " ++
      L.reprText (lit job.timeColumn) ++ lit " must be a timestamp"))

/-- `date().isoformat()`: the date an instant's `isoformat()` begins with. -/
def dateIsoformat (us : ℤ) : Text := (L.isoformat us).take 10

/-- The keys of the expired rows by their day. -/
def windows (expired : List (Text × ℤ)) : Members (List Text) :=
  expired.foldl (fun ms p => ms.set (dateIsoformat L p.2)
    ((ms.get (dateIsoformat L p.2)).getD [] ++ [p.1])) []

/-- The keys and instants of one tier. -/
def tierOf (tier : Tier) (rows : List (Tier × Text × ℤ)) : List (Text × ℤ) :=
  (rows.filter fun p => p.1 = tier).map Prod.snd

/-- The plan for the rows of a table. -/
def planOf (job : Job) (checked : ℤ) (rows : List (Row F)) : Except PyError RetentionPlan := do
  let tiers ← collect (rows.map (classify L job checked))
  return {
    tableUri := job.tableUri
    reference := checked
    totalRows := rows.length
    hotRows := (tierOf .hot tiers).length
    coldRows := (tierOf .cold tiers).length
    expiredRows := (tierOf .expired tiers).length
    batches := (sortBy Prod.fst (windows L (tierOf .expired tiers))).map fun w =>
      ⟨w.1, w.2.insertionSort (· ≤ ·)⟩
    coldKeys := ((tierOf .cold tiers).map Prod.fst).insertionSort (· ≤ ·) }

/-- `_read_rows`. -/
def readTable (job : Job) : Script F (List (Row F)) := do
  let table ← (Script.openTable job.tableUri).orElse fun e =>
    if e = .tableNotFound then
      .raise (.valueError (lit "retention target table " ++ L.reprText job.tableUri ++
        lit " does not exist"))
    else .raise e
  Script.readRows table [job.keyColumn, job.timeColumn] none

/-- **`plan_retention`**, at a reference time. -/
def planRetention (job : Job) (checked : ℤ) : Script F RetentionPlan := do
  Script.pure (Uri.validateTableUri L job.tableUri)
  let rows ← readTable L job
  Script.pure (planOf L job checked rows)

/-! ## One batch -/

/-- The rows of a batch, each of them still expired. -/
def checkRows (job : Job) (checked : ℤ) (batch : RetentionBatch) :
    List (Row F) → Except PyError Unit
  | [] => .ok ()
  | r :: rows =>
    let key := (r.get job.keyColumn).str
    if key ∉ batch.keys then checkRows job checked batch rows
    else match r.get job.timeColumn with
    | .instant occurredAt => do
      let tier ← job.policy.tierFor occurredAt checked
      if tier ≠ .expired then
        .error (.valueError (lit "refusing out-of-policy deletion: key " ++ L.reprText key ++
          lit " occurred at " ++ L.isoformat occurredAt ++
          lit " which is not beyond the cold horizon"))
      else checkRows job checked batch rows
    | _ => .error .attributeError

/-- The keys of a batch no row has. -/
def missingKeys (job : Job) (batch : RetentionBatch) (rows : List (Row F)) : List Text :=
  (batch.keys.filter fun key => key ∉ rows.map fun r => (r.get job.keyColumn).str).dedup

/-- Whether every key of a batch is still there. -/
def checkPresent (job : Job) (batch : RetentionBatch) (rows : List (Row F)) :
    Except PyError Unit :=
  if missingKeys job batch rows = [] then .ok ()
  else .error (.valueError (lit "batch keys no longer present in table: [" ++
    Text.join (lit ", ") ((((missingKeys job batch rows).insertionSort (· ≤ ·)).take 5).map
      L.reprText) ++ lit "]"))

/-- **`_assert_batch_in_policy`.** -/
def assertBatchInPolicy (job : Job) (checked : ℤ) (batch : RetentionBatch) : Script F Unit := do
  let rows ← readTable L job
  Script.pure (checkRows L job checked batch rows)
  Script.pure (checkPresent L job batch rows)

/-- `MAX_KEYS_PER_DELETE`. -/
def maxKeysPerDelete : ℕ := 1000

/-- The slices of a list at the multiples of `maxKeysPerDelete`. -/
def chunks {α : Type} (xs : List α) : List (List α) :=
  (List.range ((xs.length + maxKeysPerDelete - 1) / maxKeysPerDelete)).map fun i =>
    (xs.drop (i * maxKeysPerDelete)).take maxKeysPerDelete

/-- The deletes of a batch, with the number of keys deleted so far. -/
def deleteChunks (job : Job) : List (List Text) → ℕ → Script F ℕ
  | [], deleted => .ret deleted
  | chunk :: chunks, deleted => do
    Script.deleteIn job.tableUri job.keyColumn (Sql.literals chunk)
    deleteChunks job chunks (deleted + chunk.length)

/-- `set_table_properties`, where the table is append-only. -/
def setWhere (appendOnly : Bool) (tableUri : Text) (value : Bool) : Script F Unit :=
  if appendOnly then Script.setAppendOnly tableUri value else .ret ()

/-- **`_delete_batch`**: the property is lifted for the deletes and restored
whatever becomes of them. -/
def deleteBatch (job : Job) (batch : RetentionBatch) : Script F ℕ := do
  let table ← Script.openTable job.tableUri
  (setWhere table.appendOnly job.tableUri false >>= fun _ =>
    deleteChunks job (chunks batch.keys) 0).andFinally
      (setWhere table.appendOnly job.tableUri true)

/-! ## The audit log -/

def auditSchemaVersion : Text := lit "blueeconomy.lakehouse.retention-audit.v1"

def auditTableDescription : Text :=
  lit "Governed append-only retention audit log (every planned or executed deletion/tiering batch is evidence-recorded)"

/-- What an audit record is about. -/
structure RetentionAuditRecord where
  mode : Text
  windowDate : Text
  plannedRows : ℕ
  deletedRows : ℕ
  archivedRows : ℕ
  dryRun : Bool
  keys : List Text

/-- The material of `_audit_id`. -/
def auditMaterial (tableUri window : Text) (keys : List Text) (dryRun : Bool) : Doc F :=
  .obj [(lit "table", .str tableUri), (lit "window", .str window),
    (lit "keys", .arr (keys.map .str)), (lit "dry_run", .bool dryRun)]

/-- **`_audit_id`.** -/
def auditId (F : Type) [PyFloat F] (tableUri window : Text) (keys : List Text) (dryRun : Bool) :
    Except PyError Text := do
  let material ← dumps { sortKeys := true } (auditMaterial tableUri window keys dryRun : Doc F)
  return L.sha256 (← encodeUtf8 material)

/-- The row of an audit record. -/
def auditRow (job : Job) (auditId tableReferenceSha256 executedAt : Text)
    (record : RetentionAuditRecord) : Row F :=
  [("audit_id", .text auditId), ("event_id", .text auditId),
    ("schema_version", .text auditSchemaVersion),
    ("table_reference_sha256", .text tableReferenceSha256), ("mode", .text record.mode),
    ("window_date", .text record.windowDate), ("policy_hot_days", .int job.policy.hotDays),
    ("policy_cold_years", .int job.policy.coldYears), ("planned_rows", .int record.plannedRows),
    ("deleted_rows", .int record.deletedRows), ("archived_rows", .int record.archivedRows),
    ("operator", .text job.operator), ("dry_run", .bool record.dryRun),
    ("executed_at", .text executedAt)]

/-- `_record`. -/
def recordRow (job : Job) (record : RetentionAuditRecord) : Script F (Row F) := do
  let auditId ← Script.pure (auditId L F job.tableUri (record.mode ++ lit "/" ++ record.windowDate)
    record.keys record.dryRun)
  let reference ← Script.pure (encodeUtf8 job.tableUri)
  let now ← Script.now
  return auditRow job auditId (L.sha256 reference) (L.isoformat now) record

/-- **`_append_audit_record`** of a `_record`. -/
def appendAuditRecord (job : Job) (record : RetentionAuditRecord) : Script F Unit := do
  let row ← recordRow L job record
  let _ ← appendRows L job.auditTableUri [row] "audit_id" (some auditTableDescription) none
    (lit "blueeconomy_retention_audit")
  return ()

def planDeleteRecord (batch : RetentionBatch) : RetentionAuditRecord :=
  ⟨lit "plan-delete", batch.windowDate, batch.keys.length, 0, 0, true, batch.keys⟩

def deleteRecord (batch : RetentionBatch) (deleted : ℕ) : RetentionAuditRecord :=
  ⟨lit "delete", batch.windowDate, batch.keys.length, deleted, 0, false, batch.keys⟩

def archiveRecord (keys : List Text) : RetentionAuditRecord :=
  ⟨lit "tier-archive", lit "cold", keys.length, 0, keys.length, false, keys⟩

/-! ## The run -/

/-- The sorted keys of some rows. -/
def sortedKeys (job : Job) (rows : List (Row F)) : List Text :=
  (rows.map fun r => (r.get job.keyColumn).str).insertionSort (· ≤ ·)

/-- The chunks of the archive. -/
def archiveChunks (job : Job) (archiveUri : Text) : List (List (Row F)) → Script F Unit
  | [] => .ret ()
  | chunk :: chunks => do
    let _ ← appendRows L archiveUri chunk job.keyColumn
      (some (lit "Retention cold-tier archive (governed tiering target)")) none
      (lit "blueeconomy_retention_archive")
    appendAuditRecord L job (archiveRecord (sortedKeys job chunk))
    archiveChunks job archiveUri chunks

/-- **`_archive_cold_rows`.** -/
def archiveColdRows (job : Job) (archiveUri : Text) (plan : RetentionPlan) : Script F Unit := do
  Script.pure (Uri.validateTableUri L archiveUri)
  let table ← Script.openTable job.tableUri
  let source ← Script.readRows table table.columns none
  archiveChunks L job archiveUri
    (chunks (source.filter fun r => (r.get job.keyColumn).str ∈ plan.coldKeys))

/-- The planned batches of a dry run. -/
def recordPlan (job : Job) : List RetentionBatch → Script F Unit
  | [] => .ret ()
  | batch :: batches => do
    appendAuditRecord L job (planDeleteRecord batch)
    recordPlan job batches

/-- The batches of an applied run. -/
def executeBatches (job : Job) (checked : ℤ) : List RetentionBatch → Script F Unit
  | [] => .ret ()
  | batch :: batches => do
    assertBatchInPolicy L job checked batch
    let deleted ← deleteBatch job batch
    appendAuditRecord L job (deleteRecord batch deleted)
    executeBatches job checked batches

/-- What the table must hold after the deletes. -/
def verifyRemaining (plan remaining : RetentionPlan) : Except PyError Unit :=
  let expected : ℤ := plan.totalRows - plan.expiredRows
  if (remaining.totalRows : ℤ) ≠ expected then
    .error (.runtimeError (lit "post-deletion count mismatch: expected " ++ Text.ofInt expected ++
      lit " rows, found " ++ Text.ofNat remaining.totalRows))
  else if remaining.expiredRows ≠ 0 then
    .error (.runtimeError (lit "post-deletion verification found " ++
      Text.ofNat remaining.expiredRows ++ lit " expired rows remaining"))
  else .ok ()

/-- The tiering of an applied run. -/
def archivePlan (job : Job) (plan : RetentionPlan) : Script F Unit :=
  match job.archiveUri with
  | some archiveUri =>
    if plan.coldKeys ≠ [] then archiveColdRows L job archiveUri plan else .ret ()
  | none => .ret ()

/-- An applied run. -/
def applyPlan (job : Job) (checked : ℤ) (plan : RetentionPlan) : Script F Unit := do
  archivePlan L job plan
  executeBatches L job checked plan.batches
  let remaining ← planRetention L job checked
  Script.pure (verifyRemaining plan remaining)

/-- What a run does with its plan. -/
def carryOut (job : Job) (checked : ℤ) (plan : RetentionPlan) : Script F Unit :=
  if job.apply then applyPlan L job checked plan else recordPlan L job plan.batches

/-- A run at its reference time. -/
def enforceAt (job : Job) (checked : ℤ) : Script F RetentionPlan := do
  let plan ← planRetention L job checked
  carryOut L job checked plan
  return plan

/-- `reference or datetime.now(UTC)`. -/
def referenceTime (job : Job) : Script F ℤ :=
  match job.reference with
  | some reference => .ret reference
  | none => Script.now

/-- **`enforce_retention`.** -/
def enforceRetention (job : Job) : Script F RetentionPlan :=
  if job.operator = [] ∨ job.operator ≠ job.operator.strip then
    .raise (.valueError (lit "an operator identity is required for the retention audit log"))
  else do
    Script.pure (Uri.validateTableUri L job.auditTableUri)
    let checked ← referenceTime job
    enforceAt L job checked

end Retention

end Lakehouse

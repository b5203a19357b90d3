import Lakehouse.World
import Lakehouse.Storage.Uri
import Mathlib.Data.List.Lex
import Mathlib.Data.List.Sort
/-!
# The insert-only merge

`append_rows` and the replay guard around its merge: the batch is compared
with the rows the table retains under its keys before the merge and after
it, and a merge that lost its race is tried again.
-/

namespace Lakehouse

namespace Ingest

variable {F : Type} [PyFloat F]

/-- `REPLAY_GUARD_EXCLUDED_COLUMNS`. -/
def replayGuardExcludedColumns : List String :=
  ["ingested_at", "promoted_at", "record_classification", "executed_at", "computed_at"]

/-- The columns of a row the guard compares. -/
def guarded (r : Row F) : List String := r.columns.filter (· ∉ replayGuardExcludedColumns)

/-- **`replay_guard_columns`.** -/
def replayGuardColumns : List (Row F) → Except PyError (List String)
  | [] => .error (.valueError (lit "cannot derive replay-guard columns from an empty batch"))
  | r :: rows =>
    if ∀ s ∈ rows, guarded s = guarded r then .ok (guarded r)
    else .error (.valueError (lit "batch rows do not share an identical column shape"))

/-- `[str(row[key_column]) for row in rows]`. -/
def rowKeys (keyColumn : String) (rows : List (Row F)) : Except PyError (List Text) :=
  if ∀ r ∈ rows, keyColumn ∈ r.columns then .ok (rows.map fun r => (r.get keyColumn).str)
  else .error (.keyError (lit keyColumn))

/-- `existing_by_key.get(key)`: the last of the rows read under a key. -/
def existingFor (keyColumn : String) (existing : List (Row F)) (r : Row F) : Option (Row F) :=
  existing.reverse.find? fun u => (u.get keyColumn).str = (r.get keyColumn).str

/-- Whether a retained row differs in a guarded column. -/
def differs (columns : List String) (u r : Row F) : Bool :=
  columns.any fun c => !(u.get c).eq (r.get c)

/-- The keys of the batch whose retained row differs. -/
def conflictingKeys (columns : List String) (keyColumn : String) (rows existing : List (Row F)) :
    List Text :=
  (rows.filter fun r => (existingFor keyColumn existing r).any (differs columns · r)).map
    fun r => (r.get keyColumn).str

/-- The comparison of `reject_conflicting_replays`. -/
def checkReplays (site : CheckSite) (columns : List String) (keyColumn : String)
    (rows existing : List (Row F)) : Except PyError Unit :=
  if existing ≠ [] ∧ keyColumn ∉ columns then .error (.keyError (lit keyColumn))
  else if conflictingKeys columns keyColumn rows existing = [] then .ok ()
  else
    .error (.reuseConflict keyColumn
      ((conflictingKeys columns keyColumn rows existing).insertionSort (· ≤ ·)) site)

/-- **`read_identity_rows`**: where the filtered read is not implemented, an
unfiltered one, filtered here. -/
def readIdentityRows (table : Table F) (columns : List String) (keyColumn : String)
    (keys : List Text) : Script F (List (Row F)) :=
  (Script.readRows table columns (some (.isIn keyColumn keys))).orElse fun e =>
    if e = .arrowNotImplemented then do
      let rows ← Script.readRows table columns none
      return rows.filter fun r => (r.get keyColumn).str ∈ keys
    else .raise e

/-- **`reject_conflicting_replays`**, from the check it is called at. -/
def rejectConflictingReplays (site : CheckSite) (table : Table F) (rows : List (Row F))
    (keyColumn : String) : Script F Unit := do
  let columns ← Script.pure (replayGuardColumns rows)
  let keys ← Script.pure (rowKeys keyColumn rows)
  let existing ← readIdentityRows table columns keyColumn keys
  Script.pure (checkReplays site columns keyColumn rows existing)

/-- `delta_table_exists`. -/
def deltaTableExists (tableUri : Text) : Script F Bool :=
  (Script.openTable tableUri >>= fun _ => .ret true).orElse fun e =>
    if e = .tableNotFound then .ret false else .raise e

/-- What an append returns: the version it leaves, and the numbers of rows
written and already present. -/
structure Appended where
  version : ℕ
  written : ℕ
  present : ℤ
  deriving DecidableEq, Repr

/-- One attempt: merge over the table it read, and check again what the
table then retains. -/
def mergeOnce (tableUri : Text) (source : ArrowTable F) (rows : List (Row F))
    (keyColumn : String) (table : Table F) : Script F Appended := do
  let recordsWritten ← Script.mergeInsert tableUri table keyColumn source
  let retained ← Script.openTable tableUri
  rejectConflictingReplays .afterMerge retained rows keyColumn
  return ⟨retained.version, recordsWritten, rows.length - recordsWritten⟩

/-- The retry loop, by the attempts left. -/
def mergeAttempts (tableUri : Text) (source : ArrowTable F) (rows : List (Row F))
    (keyColumn : String) : ℕ → Script F Appended
  | 0 => .raise (.runtimeError (lit "Delta commit retry loop exhausted unexpectedly"))
  | attempts + 1 => do
    let table ← Script.openTable tableUri
    if table.appendOnly = false then
      .raise (.valueError
        (lit "existing Delta table is not configured with delta.appendOnly=true"))
    else do
      rejectConflictingReplays .beforeMerge table rows keyColumn
      (mergeOnce tableUri source rows keyColumn table).orElse fun e =>
        if e = .commitFailed ∧ attempts ≠ 0 then
          mergeAttempts tableUri source rows keyColumn attempts
        else .raise e

/-- `MAX_COMMIT_ATTEMPTS`. -/
def maxCommitAttempts : ℕ := 3

def eventTableDescription : Text :=
  lit "Governed append-only Blue Economy Platform event envelope table"

/-- The description of a new table. -/
def tableDescriptionOr (tableDescription : Option Text) : Except PyError Text :=
  match tableDescription with
  | none => .ok eventTableDescription
  | some d =>
    if d = [] ∨ d ≠ d.strip then
      .error (.valueError (lit "table description must be canonical non-empty text"))
    else .ok d

/-- The first write of a table. -/
def createTable (tableUri : Text) (source : ArrowTable F) (rows : List (Row F))
    (tableDescription : Option Text) (tableName : Text) : Script F Appended := do
  let description ← Script.pure (tableDescriptionOr tableDescription)
  Script.createTable tableUri tableName description source
  let table ← Script.openTable tableUri
  return ⟨table.version, rows.length, 0⟩

/-- **`append_rows`.** -/
def appendRows (L : Library) (tableUri : Text) (rows : List (Row F)) (keyColumn : String)
    (tableDescription : Option Text) (arrowSchema : Option (List String)) (tableName : Text) :
    Script F Appended :=
  if rows = [] then .raise (.valueError (lit "refusing to append an empty row batch"))
  else do
    Script.pure (Uri.validateTableUri L tableUri)
    let source ← Script.pure (ArrowTable.fromPylist rows arrowSchema)
    let isThere ← deltaTableExists tableUri
    if isThere then mergeAttempts tableUri source rows keyColumn maxCommitAttempts
    else createTable tableUri source rows tableDescription tableName

/-- **`append_events`.** -/
def appendEvents (L : Library) (tableUri : Text) (events : List (Row F))
    (tableDescription : Option Text) : Script F Appended :=
  appendRows L tableUri events "event_id" tableDescription none (lit "blueeconomy_event_envelope")

end Ingest

end Lakehouse

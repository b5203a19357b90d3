import Lakehouse.Common.PyFloat
import Lakehouse.Error
/-!
# Rows, Arrow tables and Delta snapshots

A row is a Python dict, its columns in insertion order. `ArrowTable` is
what `pyarrow.Table.from_pylist` makes of a batch: the columns of the
schema, or of the first row when there is none, a missing value read as
null and an extra one dropped. A `Table` is one version of a Delta
table; `Table.mergeInsert` is the insert-only merge.
-/

namespace Lakehouse

/-- One value of a row. -/
inductive Cell (F : Type) where
  | null
  | text (s : Text)
  | int (n : ℤ)
  | float (x : F)
  /-- A UTC timestamp, in microseconds. -/
  | instant (us : ℤ)
  | bool (b : Bool)
  deriving DecidableEq

namespace Cell

variable {F : Type} [PyFloat F]

/-- Python's `==`. Columns are typed, so cells of two kinds are never
equal; a NaN is not equal to itself. -/
def eq : Cell F → Cell F → Bool
  | null, null => true
  | text s, text t => s == t
  | int m, int n => m == n
  | float x, float y => PyFloat.eq x y
  | instant s, instant t => s == t
  | bool a, bool b => a == b
  | _, _ => false

/-- `str(value)`. No timestamp column is ever used as a key, so an
instant is left as its number. -/
def str : Cell F → Text
  | null => lit "None"
  | text s => s
  | int n => Text.ofInt n
  | float x => PyFloat.repr x
  | instant us => Text.ofInt us
  | bool b => if b then lit "True" else lit "False"

/-- Every float is finite. -/
def Finite : Cell F → Prop
  | float x => PyFloat.isFinite x = true
  | _ => True

/-- A text Arrow can store: no lone surrogate. -/
def Encodable : Cell F → Prop
  | text s => s.IsScalar
  | _ => True

instance : DecidablePred (Encodable (F := F)) := fun c => by
  cases c <;> unfold Encodable <;> infer_instance

instance : DecidablePred (Finite (F := F)) := fun c => by
  cases c <;> unfold Finite <;> infer_instance

end Cell

/-- A row: a dict from column names to values. -/
abbrev Row (F : Type) : Type := List (String × Cell F)

namespace Row

variable {F : Type}

/-- `row[column]`; a missing column reads as null. -/
def get (r : Row F) (column : String) : Cell F := (r.lookup column).getD .null

/-- The columns, in insertion order. -/
def columns (r : Row F) : List String := r.map Prod.fst

/-- The row as a table with the given columns holds it. -/
def project (columns : List String) (r : Row F) : Row F := columns.map fun c => (c, r.get c)

/-- A projected row has the columns asked for. -/
@[simp] theorem project_columns (cs : List String) (r : Row F) : (r.project cs).columns = cs := by
  simp [project, columns, Function.comp_def]

/-- A projected row keeps the cells asked for. -/
theorem get_project_of_mem {cs : List String} {r : Row F} {c : String} (h : c ∈ cs) :
    (r.project cs).get c = r.get c := by
  have hl : (r.project cs).lookup c = some (r.get c) := by
    induction cs with
    | nil => cases h
    | cons d cs ih =>
      rw [project, List.map_cons, List.lookup_cons]
      by_cases hd : c = d
      · simp [hd]
      · have hb : (c == d) = false := by simpa using hd
        rw [hb]
        exact ih ((List.mem_cons.1 h).resolve_left hd)
  rw [get, hl]
  rfl

/-- A row in its own columns. -/
theorem project_columns_self {r : Row F} (h : r.columns.Nodup) : r.project r.columns = r := by
  have hget : ∀ p ∈ r, r.get p.1 = p.2 := by
    intro p hp
    induction r with
    | nil => cases hp
    | cons q r ih =>
      have hq := List.nodup_cons.1 h
      rw [get, List.lookup_cons]
      obtain rfl | hp := List.mem_cons.1 hp
      · rw [beq_self_eq_true]
        rfl
      · have hne : p.1 ≠ q.1 := fun he => hq.1 (he ▸ List.mem_map_of_mem hp)
        rw [beq_eq_false_iff_ne.2 hne]
        exact ih hq.2 hp
  rw [project, columns, List.map_map]
  conv_rhs => rw [← List.map_id r]
  exact List.map_congr_left fun p hp => Prod.ext rfl (hget p hp)

/-- A column that is not null is there. -/
theorem mem_columns_of_get {r : Row F} {c : String} (h : r.get c ≠ .null) : c ∈ r.columns := by
  induction r with
  | nil => exact absurd rfl h
  | cons p r ih =>
    by_cases hc : c = p.1
    · exact List.mem_cons.2 (Or.inl hc)
    · refine List.mem_cons_of_mem _ (ih ?_)
      rwa [get, List.lookup_cons, beq_eq_false_iff_ne.2 hc] at h

/-- A column that a row lacks is null in it. -/
theorem get_of_notMem {r : Row F} {c : String} (h : c ∉ r.columns) : r.get c = .null := by
  by_contra hne
  exact h (mem_columns_of_get hne)

end Row

/-- What `pyarrow.Table.from_pylist` builds. -/
structure ArrowTable (F : Type) where
  columns : List String
  rows : List (Row F)

/-- `pa.Table.from_pylist(rows, schema)`: without a schema the first
row names the columns. A text with a lone surrogate cannot be stored. -/
def ArrowTable.fromPylist {F : Type} (rows : List (Row F)) (schema : Option (List String)) :
    Except PyError (ArrowTable F) :=
  let columns := schema.getD ((rows.head?.map Row.columns).getD [])
  let stored := rows.map (Row.project columns)
  if ∀ r ∈ stored, ∀ c ∈ r, Cell.Encodable (F := F) c.2 then .ok ⟨columns, stored⟩
  else .error .unicodeError

/-- **The filter of a read**: `(column, "=", value)`, or
`(column, "in", values)`. -/
inductive RowFilter where
  | equals (column : String) (value : Text)
  | isIn (column : String) (values : List Text)

namespace RowFilter

variable {F : Type} [PyFloat F]

/-- Whether a row passes. The columns filtered on hold texts. -/
def admits : RowFilter → Row F → Bool
  | equals column value, r => (r.get column).str = value
  | isIn column values, r => (r.get column).str ∈ values

/-- The filter `=` admits the rows with the value. -/
@[simp] theorem admits_equals {column : String} {value : Text} {r : Row F} :
    (equals column value).admits r = true ↔ (r.get column).str = value := decide_eq_true_iff

/-- The filter `in` admits the rows with one of the values. -/
@[simp] theorem admits_isIn {column : String} {values : List Text} {r : Row F} :
    (isIn column values).admits r = true ↔ (r.get column).str ∈ values := decide_eq_true_iff

/-- Whether the filter is an `in`. -/
def isMembership : RowFilter → Bool
  | equals _ _ => false
  | isIn _ _ => true

end RowFilter

/-- **One version of a Delta table.** -/
structure Table (F : Type) where
  version : ℕ
  /-- `delta.appendOnly=true` in the table's configuration. -/
  appendOnly : Bool
  /-- Whether a merge has written one of its files. -/
  mergeWritten : Bool
  columns : List String
  rows : List (Row F)

namespace Table

variable {F : Type} [PyFloat F]

/-- Whether the merge predicate `target.key = source.key` matches: SQL
equality, so a null matches nothing. -/
def keyMatches (keyColumn : String) (target source : Row F) : Bool :=
  match target.get keyColumn, source.get keyColumn with
  | .null, _ => false
  | _, .null => false
  | a, b => a.eq b

/-- The source rows `when_not_matched_insert_all` inserts: those whose
key no target row has. -/
def unmatched (keyColumn : String) (t : Table F) (source : List (Row F)) : List (Row F) :=
  source.filter fun r => !t.rows.any fun u => keyMatches keyColumn u r

/-- The table after an insert-only merge that read `snapshot`. -/
def mergeInsert (keyColumn : String) (t snapshot : Table F) (source : List (Row F)) : Table F :=
  { t with
    version := t.version + 1
    mergeWritten := t.mergeWritten || !(unmatched keyColumn snapshot source).isEmpty
    rows := t.rows ++ (unmatched keyColumn snapshot source).map (Row.project t.columns) }

/-- Whether SQL's `column IN (keys)` is true of a row. -/
def isIn (column : String) (keys : List Text) (r : Row F) : Bool :=
  match r.get column with
  | .text s => s ∈ keys
  | _ => false

/-- The table without the rows whose column is one of the texts. -/
def deleteIn (column : String) (keys : List Text) (t : Table F) : Table F :=
  { t with version := t.version + 1, rows := t.rows.filter fun r => !isIn column keys r }

/-- The rows a read returns, restricted to `columns`: every row, or the
rows that pass its filter. -/
def read (columns : List String) (filter : Option RowFilter) (t : Table F) : List (Row F) :=
  (t.rows.filter fun r => filter.all (·.admits r)).map (Row.project columns)

/-- A read without a filter projects every row. -/
@[simp] theorem read_none (columns : List String) (t : Table F) :
    t.read columns none = t.rows.map (Row.project columns) := by
  simp [read]

end Table

end Lakehouse

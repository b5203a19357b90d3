import Lakehouse.Delta.Table
/-!
# Declared schemas

A gold table is written under a declared Arrow schema: each column has a
type and may refuse nulls. What a row needs to be written is checked only
then, for all rows at once.
-/

namespace Lakehouse

/-- The Arrow types of the gold columns. -/
inductive ArrowType where
  | string | int32 | int64 | float64 | timestamp
  deriving DecidableEq, Repr

/-- `pa.field(name, type, nullable)`. -/
structure SchemaField where
  name : String
  type : ArrowType
  nullable : Bool := true

variable {F : Type}

/-- A cell a column of a type can hold. -/
def ArrowType.Holds : ArrowType → Cell F → Prop
  | _, .null => True
  | .string, .text _ => True
  | .int32, .int n => -2 ^ 31 ≤ n ∧ n < 2 ^ 31
  | .int64, .int n => -2 ^ 63 ≤ n ∧ n < 2 ^ 63
  | .float64, .float _ => True
  | .timestamp, .instant _ => True
  | _, _ => False

/-- A cell a column can hold. -/
def SchemaField.Holds (field : SchemaField) (cell : Cell F) : Prop :=
  field.type.Holds cell ∧ (field.nullable = false → cell ≠ .null)

/-- **A row that can be written under a schema.** -/
def Row.Fits (schema : List SchemaField) (row : Row F) : Prop :=
  ∀ field ∈ schema, field.Holds (row.get field.name)

/-! ## Cells -/

variable {name : String} {nullable : Bool}

theorem SchemaField.holds_text (t : Text) :
    (⟨name, .string, nullable⟩ : SchemaField).Holds (.text t : Cell F) := ⟨trivial, nofun⟩

theorem SchemaField.holds_instant (us : ℤ) :
    (⟨name, .timestamp, nullable⟩ : SchemaField).Holds (.instant us : Cell F) := ⟨trivial, nofun⟩

theorem SchemaField.holds_float (x : F) :
    (⟨name, .float64, nullable⟩ : SchemaField).Holds (.float x) := ⟨trivial, nofun⟩

theorem SchemaField.holds_null {type : ArrowType} :
    (⟨name, type, true⟩ : SchemaField).Holds (.null : Cell F) := ⟨by cases type <;> trivial, nofun⟩

end Lakehouse

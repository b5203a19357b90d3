import Lakehouse.Delta.History
/-!
# The replay guard

Over a keyed table the guard decides one thing: whether every stored row
with a key of the batch agrees with the batch's row on the guarded columns
(`Agrees`), in whatever order the rows are read back.
-/

namespace Lakehouse

namespace Ingest

variable {F : Type} [PyFloat F]

/-- **The batch contradicts no stored row.** -/
def Agrees (keyColumn : String) (columns : List String) (rows : List (Row F)) (t : Table F) :
    Prop :=
  ∀ r ∈ rows, ∀ u ∈ t.rows, u.get keyColumn = r.get keyColumn →
    ∀ c ∈ columns, (u.get c).eq (r.get c) = true

variable {keyColumn : String} {columns : List String} {rows existing : List (Row F)}
  {schema : Option (List String)} {t : Table F} {r u : Row F} {site : CheckSite}

theorem rowKeys_batch (hb : Batch keyColumn columns rows schema) :
    rowKeys keyColumn rows = .ok (rows.map fun r => (r.get keyColumn).str) :=
  if_pos fun _ hr => hb.columns_subset hr hb.key

/-- The rows the guard reads. -/
theorem mem_read_batch (ht : Keyed keyColumn columns t) (hb : Batch keyColumn columns rows schema)
    {v : Row F} :
    v ∈ t.read columns (some (.isIn keyColumn (rows.map fun r => (r.get keyColumn).str))) ↔
      ∃ u ∈ t.rows, (∃ r ∈ rows, u.get keyColumn = r.get keyColumn) ∧ u.project columns = v := by
  simp only [Table.read, List.mem_map, List.mem_filter, Option.all_some, RowFilter.admits_isIn,
    and_assoc]
  refine exists_congr fun u => and_congr_right fun hu => and_congr_left fun _ => ?_
  refine exists_congr fun r => and_congr_right fun hr => ?_
  rw [eq_comm, str_inj_text (ht.text u hu) (hb.text r hr)]

section

variable (ht : Keyed keyColumn columns t) (hb : Batch keyColumn columns rows schema)
  (he : existing.Perm (t.read columns
    (some (.isIn keyColumn (rows.map fun r => (r.get keyColumn).str)))))

include ht hb he

/-- The row read back under a key is the stored one. -/
theorem existingFor_eq_some (hr : r ∈ rows) (hu : u ∈ t.rows)
    (hk : u.get keyColumn = r.get keyColumn) :
    existingFor keyColumn existing r = some (u.project columns) := by
  have hproj : ∀ w : Row F, (w.project columns).get keyColumn = w.get keyColumn := fun w =>
    Row.get_project_of_mem hb.key
  have hmem : u.project columns ∈ existing.reverse := by
    rw [List.mem_reverse, he.mem_iff, mem_read_batch ht hb]
    exact ⟨u, hu, ⟨r, hr, hk⟩, rfl⟩
  obtain ⟨v, hv⟩ : ∃ v, existingFor keyColumn existing r = some v := by
    refine Option.isSome_iff_exists.1 (List.find?_isSome.2 ⟨_, hmem, ?_⟩)
    rw [hproj, hk, decide_eq_true_iff]
  rw [hv]
  have hvk := List.find?_some hv
  have hvm := List.mem_of_find?_eq_some hv
  rw [List.mem_reverse, he.mem_iff, mem_read_batch ht hb] at hvm
  obtain ⟨w, hw, -, rfl⟩ := hvm
  rw [hproj, decide_eq_true_iff, str_inj_text (ht.text w hw) (hb.text r hr)] at hvk
  obtain rfl := ht.eq_of_key hw hu (hvk.trans hk.symm)
  rfl

/-- Nothing is read back under a key that is not stored. -/
theorem existingFor_eq_none (hr : r ∈ rows)
    (hk : ∀ u ∈ t.rows, u.get keyColumn ≠ r.get keyColumn) :
    existingFor keyColumn existing r = none := by
  refine List.find?_eq_none.2 fun v hv => ?_
  rw [List.mem_reverse, he.mem_iff, mem_read_batch ht hb] at hv
  obtain ⟨w, hw, -, rfl⟩ := hv
  rw [Row.get_project_of_mem hb.key, decide_eq_true_iff,
    str_inj_text (ht.text w hw) (hb.text r hr)]
  exact hk w hw

/-- **The guard finds a conflict exactly where a stored row disagrees.** -/
theorem conflictingKeys_eq_nil :
    conflictingKeys columns keyColumn rows existing = [] ↔
      Agrees keyColumn columns rows t := by
  rw [conflictingKeys, List.map_eq_nil_iff, List.filter_eq_nil_iff]
  refine forall₂_congr fun r hr => ?_
  constructor
  · intro h u hu hk c hc
    rw [existingFor_eq_some ht hb he hr hu hk, Option.any_some, differs] at h
    have h := List.any_eq_false.1 (Bool.eq_false_iff.2 h) c hc
    rw [Row.get_project_of_mem hc] at h
    simpa using h
  · intro h
    by_cases hk : ∃ u ∈ t.rows, u.get keyColumn = r.get keyColumn
    · obtain ⟨u, hu, hk⟩ := hk
      rw [existingFor_eq_some ht hb he hr hu hk, Option.any_some, differs]
      refine Bool.eq_false_iff.1 (List.any_eq_false.2 fun c hc => ?_)
      rw [Row.get_project_of_mem hc, h u hu hk c hc]
      decide
    · rw [existingFor_eq_none ht hb he hr fun u hu h => hk ⟨u, hu, h⟩, Option.any_none]
      decide

/-- **What the guard says of a keyed table.** -/
theorem checkReplays_eq (site : CheckSite) :
    (Agrees keyColumn columns rows t ∧
        checkReplays site columns keyColumn rows existing = .ok ()) ∨
      ¬Agrees keyColumn columns rows t ∧
        ∃ keys, checkReplays site columns keyColumn rows existing =
          .error (.reuseConflict keyColumn keys site) := by
  have hc := conflictingKeys_eq_nil ht hb he
  unfold checkReplays
  rw [if_neg fun h => h.2 hb.key]
  by_cases ha : Agrees keyColumn columns rows t
  · exact Or.inl ⟨ha, if_pos (hc.2 ha)⟩
  · exact Or.inr ⟨ha, _, if_neg (hc.not.2 ha)⟩

end

/-- A batch whose keys are all stored and which contradicts nothing is held. -/
theorem Agrees.held (ha : Agrees keyColumn columns rows t)
    (hk : ∀ r ∈ rows, r.get keyColumn ∈ t.rows.map (·.get keyColumn)) {h : List (Table F)}
    (ht : t ∈ h.head?) : ∀ r ∈ rows, Held keyColumn columns r h := by
  intro r hr
  obtain ⟨u, hu, hur⟩ := List.mem_map.1 (hk r hr)
  exact ⟨t, ht, u, hu, hur, ha r hr u hu hur⟩

end Ingest

end Lakehouse

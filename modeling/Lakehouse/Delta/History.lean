import Lakehouse.Delta.AppendRows
/-!
# The history of an append-only table

A table's versions, newest first. A `Keyed` table stores a text key in
every row and no key twice; a `Lineage` is a history whose newest version
is keyed. Nothing is asked of the rows of older versions, some of which
retention may have deleted since. What other writers of the table do is
`Grows`: they add versions to a lineage, and the newest begins with what
it was. A row is `Held` when a stored row has its key and agrees with it
on the guarded columns, and a held row stays held however the history
grows.
-/

namespace Lakehouse

variable {F : Type}

/-- **A table identified by its key column**, with the guarded columns. -/
structure Keyed (keyColumn : String) (columns : List String) (t : Table F) : Prop where
  columns : columns ⊆ t.columns
  text : ∀ u ∈ t.rows, ∃ s, u.get keyColumn = .text s
  nodup : (t.rows.map (·.get keyColumn)).Nodup

/-- **A history whose newest version is keyed**, its versions numbered in
their order. -/
structure Lineage (keyColumn : String) (columns : List String) (h : List (Table F)) : Prop where
  keyed : ∀ t ∈ h.head?, Keyed keyColumn columns t
  versions : h.Pairwise fun newer older => older.version < newer.version

/-- The newest version begins with the rows of what was the newest. -/
def Extends (h' h : List (Table F)) : Prop := ∀ t ∈ h.head?, ∀ t' ∈ h'.head?, t.rows <+: t'.rows

/-- **What a writer of the table may do to its history.** -/
def Grows (keyColumn : String) (columns : List String) (h h' : List (Table F)) : Prop :=
  h <:+ h' ∧ (Lineage keyColumn columns h → Lineage keyColumn columns h' ∧ Extends h' h)

variable {keyColumn : String} {columns : List String} {h h' h'' : List (Table F)}
  {t : Table F} {r : Row F}

/-- One stored row under a key. -/
theorem Keyed.eq_of_key (ht : Keyed keyColumn columns t) {u v : Row F} (hu : u ∈ t.rows)
    (hv : v ∈ t.rows) (hk : u.get keyColumn = v.get keyColumn) : u = v :=
  List.inj_on_of_nodup_map ht.nodup hu hv hk

/-- A history that grew has a newest version. -/
theorem head?_of_suffix (hs : h <:+ h') (ht : t ∈ h.head?) : ∃ t', t' ∈ h'.head? := by
  obtain ⟨newer, rfl⟩ := hs
  cases newer with
  | nil => exact ⟨t, ht⟩
  | cons b newer => exact ⟨b, rfl⟩

/-- A history extends itself. -/
theorem Extends.refl (h : List (Table F)) : Extends h h := by
  intro t ht t' ht'
  obtain rfl := Option.mem_unique ht ht'
  exact List.prefix_refl _

/-- A history grows into itself. -/
theorem Grows.refl (h : List (Table F)) : Grows keyColumn columns h h :=
  ⟨List.suffix_refl h, fun hl => ⟨hl, .refl h⟩⟩

/-- What grew and grows again grew. -/
theorem Grows.trans (h₁ : Grows keyColumn columns h h') (h₂ : Grows keyColumn columns h' h'') :
    Grows keyColumn columns h h'' := by
  refine ⟨h₁.1.trans h₂.1, fun hl => ?_⟩
  obtain ⟨hl', he⟩ := h₁.2 hl
  obtain ⟨hl'', he'⟩ := h₂.2 hl'
  refine ⟨hl'', fun t ht t'' ht'' => ?_⟩
  obtain ⟨t', ht'⟩ := head?_of_suffix h₁.1 ht
  exact (he t ht t' ht').trans (he' t' ht' t'' ht'')

/-- A lineage that grows stays one. -/
theorem Grows.lineage (hg : Grows keyColumn columns h h') (hl : Lineage keyColumn columns h) :
    Lineage keyColumn columns h' :=
  (hg.2 hl).1

/-- What the newest version held the newest version holds. -/
theorem Grows.exists_head (hg : Grows keyColumn columns h h') (hl : Lineage keyColumn columns h)
    (ht : t ∈ h.head?) : ∃ t' ∈ h'.head?, t.rows <+: t'.rows := by
  obtain ⟨t', ht'⟩ := head?_of_suffix hg.1 ht
  exact ⟨t', ht', (hg.2 hl).2 t ht t' ht'⟩

/-- One version of a lineage by its number. -/
theorem Lineage.eq_of_version (hl : Lineage keyColumn columns (t :: h)) {t' : Table F}
    (ht : t' ∈ t :: h) (hv : t.version = t'.version) : t' = t := by
  obtain rfl | ht := List.mem_cons.1 ht
  · rfl
  · exact absurd hv ((List.pairwise_cons.1 hl.versions).1 t' ht).ne'

/-! ## A batch -/

/-- **A batch of rows to append**: the columns its rows share once the
excluded ones are dropped, among them the key, which is a text and is not
repeated; a schema, where there is one, has these columns. -/
structure Batch (keyColumn : String) (columns : List String) (rows : List (Row F))
    (schema : Option (List String)) : Prop where
  guard : Ingest.replayGuardColumns rows = .ok columns
  key : keyColumn ∈ columns
  text : ∀ r ∈ rows, ∃ s, r.get keyColumn = .text s
  nodup : (rows.map (·.get keyColumn)).Nodup
  schema : ∀ cs ∈ schema, columns ⊆ cs

/-- **What Arrow makes of a batch** keeps the guarded columns. -/
structure Stored (keyColumn : String) (columns : List String) (rows : List (Row F))
    (source : ArrowTable F) : Prop where
  columns : columns ⊆ source.columns
  rows : source.rows = rows.map (Row.project source.columns)

variable {rows : List (Row F)} {schema : Option (List String)} {source : ArrowTable F}

/-- The columns of the replay guard are those of every row. -/
theorem replayGuardColumns_eq_ok (hb : Ingest.replayGuardColumns rows = .ok columns) :
    rows ≠ [] ∧ ∀ r ∈ rows, Ingest.guarded r = columns := by
  cases rows with
  | nil => cases hb
  | cons r rows =>
    rw [Ingest.replayGuardColumns] at hb
    split_ifs at hb with hs
    cases hb
    refine ⟨List.cons_ne_nil _ _, fun s hs' => ?_⟩
    obtain rfl | hs' := List.mem_cons.1 hs'
    · rfl
    · exact hs s hs'

/-- Every row of a batch has the guarded columns. -/
theorem Batch.columns_subset (hb : Batch keyColumn columns rows schema) (hr : r ∈ rows) :
    columns ⊆ r.columns := by
  rw [← (replayGuardColumns_eq_ok hb.guard).2 r hr]
  exact List.filter_subset_self _

/-- A batch that converts is stored. -/
theorem Batch.stored (hb : Batch keyColumn columns rows schema)
    (hs : ArrowTable.fromPylist rows schema = .ok source) :
    Stored keyColumn columns rows source := by
  unfold ArrowTable.fromPylist at hs
  simp only at hs
  split_ifs at hs
  cases hs
  refine ⟨?_, rfl⟩
  cases schema with
  | some cs => exact hb.schema cs rfl
  | none =>
    have hne := (replayGuardColumns_eq_ok hb.guard).1
    cases rows with
    | nil => exact absurd rfl hne
    | cons r rows => exact hb.columns_subset List.mem_cons_self

/-- A stored row keeps its cells. -/
theorem Stored.get (hs : Stored keyColumn columns rows source) {c : String} (hc : c ∈ columns) :
    (Row.project source.columns r).get c = r.get c :=
  Row.get_project_of_mem (hs.columns hc)

/-- The first write of a table starts a lineage. -/
theorem Lineage.created (hb : Batch keyColumn columns rows schema)
    (hs : Stored keyColumn columns rows source) :
    Lineage keyColumn columns [World.created source] := by
  refine ⟨?_, List.pairwise_singleton _ _⟩
  rintro _ ⟨⟩
  refine ⟨hs.columns, fun u hu => ?_, ?_⟩
  · rw [World.created, hs.rows] at hu
    obtain ⟨r, hr, rfl⟩ := List.mem_map.1 hu
    rw [hs.get hb.key]
    exact hb.text r hr
  · rw [World.created, hs.rows, List.map_map]
    simpa [Function.comp_def, hs.get hb.key] using hb.nodup

/-- The first write grows an empty history. -/
theorem Grows.created (hb : Batch keyColumn columns rows schema)
    (hs : Stored keyColumn columns rows source) :
    Grows keyColumn columns [] [World.created source] :=
  ⟨List.suffix_cons _ _, fun _ => ⟨.created hb hs, fun _ h => nomatch h⟩⟩

variable [PyFloat F]

/-! ## Text keys -/

/-- On text keys the merge predicate is equality. -/
theorem keyMatches_text {u r : Row F} {s t : Text} (hu : u.get keyColumn = .text s)
    (hr : r.get keyColumn = .text t) :
    Table.keyMatches keyColumn u r = true ↔ u.get keyColumn = r.get keyColumn := by
  rw [Table.keyMatches, hu, hr]
  simp [Cell.eq]

/-- On text keys `str` is injective. -/
theorem str_inj_text {u r : Row F} (hu : ∃ s, u.get keyColumn = .text s)
    (hr : ∃ s, r.get keyColumn = .text s) :
    (u.get keyColumn).str = (r.get keyColumn).str ↔ u.get keyColumn = r.get keyColumn := by
  obtain ⟨s, hs⟩ := hu
  obtain ⟨t, ht⟩ := hr
  rw [hs, ht]
  simp [Cell.str]

/-- The rows inserted are those with a key that the table has not. -/
theorem mem_unmatched {source : List (Row F)} (hk : ∀ u ∈ t.rows, ∃ s, u.get keyColumn = .text s)
    (hr : ∃ s, r.get keyColumn = .text s) :
    r ∈ Table.unmatched keyColumn t source ↔
      r ∈ source ∧ r.get keyColumn ∉ t.rows.map (·.get keyColumn) := by
  obtain ⟨s, hs⟩ := hr
  rw [Table.unmatched, List.mem_filter, Bool.not_eq_true', List.any_eq_false]
  refine and_congr_right fun _ => ?_
  simp only [List.mem_map, not_exists, not_and]
  refine forall₂_congr fun u hu => ?_
  obtain ⟨s', hs'⟩ := hk u hu
  rw [keyMatches_text hs' hs]

/-! ## Held rows -/

/-- **A row's content is stored.** -/
def Held (keyColumn : String) (columns : List String) (r : Row F) (h : List (Table F)) : Prop :=
  ∃ t ∈ h.head?, ∃ u ∈ t.rows, u.get keyColumn = r.get keyColumn ∧
    ∀ c ∈ columns, (u.get c).eq (r.get c) = true

/-- **What is held stays held.** -/
theorem Held.grows (hr : Held keyColumn columns r h) (hl : Lineage keyColumn columns h)
    (hg : Grows keyColumn columns h h') : Held keyColumn columns r h' := by
  obtain ⟨t, ht, u, hu, hk, hc⟩ := hr
  obtain ⟨t', ht', hpre⟩ := hg.exists_head hl ht
  exact ⟨t', ht', u, hpre.subset hu, hk, hc⟩

/-! ## One merge -/

/-- **The insert-only merge keeps a table keyed.** -/
theorem Keyed.mergeInsert (ht : Keyed keyColumn columns t)
    (hb : Batch keyColumn columns rows schema) (hs : Stored keyColumn columns rows source) :
    Keyed keyColumn columns (t.mergeInsert keyColumn t source.rows) := by
  have hkey : ∀ r : Row F, (Row.project t.columns r).get keyColumn = r.get keyColumn := fun r =>
    Row.get_project_of_mem (ht.columns hb.key)
  have hsource : ∀ r ∈ source.rows, ∃ s, r.get keyColumn = .text s := by
    intro r hr
    rw [hs.rows] at hr
    obtain ⟨r₀, hr₀, rfl⟩ := List.mem_map.1 hr
    rw [hs.get hb.key]
    exact hb.text r₀ hr₀
  have hnodup : (source.rows.map (·.get keyColumn)).Nodup := by
    rw [hs.rows, List.map_map]
    simpa [Function.comp_def, hs.get hb.key] using hb.nodup
  refine ⟨ht.columns, fun u hu => ?_, ?_⟩
  · obtain hu | hu := List.mem_append.1 hu
    · exact ht.text u hu
    · obtain ⟨r, hr, rfl⟩ := List.mem_map.1 hu
      rw [hkey]
      exact hsource r (List.mem_filter.1 hr).1
  · rw [Table.mergeInsert, List.map_append, List.map_map]
    refine List.nodup_append'.2 ⟨ht.nodup, ?_, ?_⟩
    · simp only [Function.comp_def, hkey]
      exact hnodup.sublist ((List.filter_sublist).map _)
    · simp only [Function.comp_def, hkey]
      intro k hk hk'
      obtain ⟨r, hr, rfl⟩ := List.mem_map.1 hk'
      exact ((mem_unmatched ht.text (hsource r (List.mem_filter.1 hr).1)).1 hr).2 hk

/-- The insert-only merge grows the history of the table it read. -/
theorem Grows.mergeInsert (hb : Batch keyColumn columns rows schema)
    (hs : Stored keyColumn columns rows source) :
    Grows keyColumn columns (t :: h) (t.mergeInsert keyColumn t source.rows :: t :: h) := by
  refine ⟨List.suffix_cons _ _, fun hl => ⟨⟨?_, List.pairwise_cons.2 ⟨fun t' ht' => ?_,
    hl.versions⟩⟩, ?_⟩⟩
  · rintro _ ⟨⟩
    exact (hl.keyed t rfl).mergeInsert hb hs
  · obtain rfl | ht' := List.mem_cons.1 ht'
    · exact Nat.lt_succ_self _
    · exact ((List.pairwise_cons.1 hl.versions).1 t' ht').trans (Nat.lt_succ_self _)
  · rintro _ ⟨⟩ _ ⟨⟩
    exact List.prefix_append _ _

/-- After a merge every key of the batch is stored. -/
theorem mem_keys_mergeInsert (ht : Keyed keyColumn columns t)
    (hb : Batch keyColumn columns rows schema) (hs : Stored keyColumn columns rows source)
    (hr : r ∈ rows) :
    r.get keyColumn ∈ (t.mergeInsert keyColumn t source.rows).rows.map (·.get keyColumn) := by
  rw [Table.mergeInsert, List.map_append, List.mem_append]
  by_cases hk : r.get keyColumn ∈ t.rows.map (·.get keyColumn)
  · exact Or.inl hk
  · refine Or.inr ?_
    have hm : Row.project source.columns r ∈ Table.unmatched keyColumn t source.rows := by
      rw [mem_unmatched ht.text (by rw [hs.get hb.key]; exact hb.text r hr), hs.get hb.key, hs.rows]
      exact ⟨List.mem_map_of_mem hr, hk⟩
    refine List.mem_map.2 ⟨_, List.mem_map_of_mem hm, ?_⟩
    rw [Row.get_project_of_mem (ht.columns hb.key), hs.get hb.key]

end Lakehouse

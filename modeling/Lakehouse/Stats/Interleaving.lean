import Lakehouse.Stats.Serving
import Lakehouse.Delta.Interleaving
import Lakehouse.Delta.Writes
/-!
# Serving while publishing

A run publishes its manifest before its values, and a request reads the
manifests before the values, so both commits of a run may fall between the
two reads: a request so `Overtaken` finds a value of a run it does not
know. `serving_interleaved` says that this is the only way, over any
interleaving of requests and publications.
-/

namespace Lakehouse

namespace Stats

open Ingest

variable {F : Type} [PyFloat F] (L : Library)

/-! ## The two gold tables -/

/-- The rows an unfiltered read of a table returns, in the order stored. -/
def snapshotRows (uri : Text) (w : World F) : List (Row F) :=
  ((w.tables uri).head?.map fun t => t.read t.columns none).getD []

section

variable {L} {tableRoot : Text} {s t u : World F}

/-- The table of the manifests, and the table of the values. -/
abbrev runsUri (tableRoot : Text) : Text := goldTableUri tableRoot runsTableName

abbrev valuesUri (tableRoot : Text) : Text := goldTableUri tableRoot valuesTableName

omit [PyFloat F] in
/-- The two gold tables are different ones. -/
theorem runsUri_ne_valuesUri : runsUri tableRoot ≠ valuesUri tableRoot := by
  intro h
  have h := List.append_cancel_left h
  revert h
  decide

/-- What is read of a row: its columns in the table. -/
theorem mem_snapshotRows {uri : Text} {r : Row F} :
    r ∈ snapshotRows uri s ↔
      ∃ table ∈ (s.tables uri).head?, ∃ r₀ ∈ table.rows, r = r₀.project table.columns := by
  unfold snapshotRows
  cases h : (s.tables uri).head? with
  | none => simp
  | some table =>
    have hread : table.read table.columns none = table.rows.map (Row.project table.columns) := by
      simp [Table.read]
    rw [Option.map_some, Option.getD_some, hread]
    simp [eq_comm]

omit [PyFloat F] in
/-- The rows stored are those of the newest version. -/
theorem mem_storedRows {uri : Text} {r : Row F} :
    r ∈ storedRows uri s ↔ ∃ table ∈ (s.tables uri).head?, r ∈ table.rows := by
  unfold storedRows
  cases (s.tables uri).head? <;> simp

/-- **The gold tables agree**: every value has the manifest of its run. -/
structure Consistent (tableRoot : Text) (w : World F) : Prop where
  manifests : Lineage "run_id" runIdentityColumns (w.tables (runsUri tableRoot))
  columns : ∀ table ∈ (w.tables (valuesUri tableRoot)).head?, "run_id" ∈ table.columns
  published : ∀ v ∈ storedRows (valuesUri tableRoot) w,
    ∃ m ∈ storedRows (runsUri tableRoot) w, m.get "run_id" = v.get "run_id"

/-- **What requests and publications do**: both tables grow, and agree
where they did. -/
def Advances (tableRoot : Text) (s t : World F) : Prop :=
  Grows "run_id" runIdentityColumns (s.tables (runsUri tableRoot)) (t.tables (runsUri tableRoot)) ∧
    (Consistent tableRoot s → Consistent tableRoot t)

omit [PyFloat F] in
/-- Nothing happening is allowed. -/
theorem Advances.refl (s : World F) : Advances tableRoot s s := ⟨Grows.refl _, id⟩

omit [PyFloat F] in
/-- What is allowed twice is allowed. -/
theorem Advances.trans (h₁ : Advances tableRoot s t) (h₂ : Advances tableRoot t u) :
    Advances tableRoot s u :=
  ⟨h₁.1.trans h₂.1, h₂.2 ∘ h₁.2⟩

/-- The setting of a request or a publication among others. -/
def serving (F : Type) [PyFloat F] (tableRoot : Text) : Setting (Op F) Op.Res PyError (World F) :=
  ⟨World.Performs, Advances tableRoot, Advances.refl, Advances.trans⟩

omit [PyFloat F] in
/-- The manifests stay. -/
theorem manifests_retained (hs : Consistent tableRoot s)
    (hg : Grows "run_id" runIdentityColumns (s.tables (runsUri tableRoot))
      (t.tables (runsUri tableRoot))) :
    storedRows (runsUri tableRoot) s ⊆ storedRows (runsUri tableRoot) t := by
  intro m hm
  obtain ⟨table, htable, hm⟩ := mem_storedRows.1 hm
  obtain ⟨table', htable', hpre⟩ := hg.exists_head hs.manifests htable
  exact mem_storedRows.2 ⟨table', htable', hpre.subset hm⟩

/-! ## A publication -/

/-- **The crash condition of a publication**: it has added values of its run
only, and only where its manifest is held. -/
structure Publishing (tableRoot : Text) (p : Publication F) (own : Trail (World F))
    (s : World F) : Prop where
  consistent : Consistent tableRoot s
  ofRun : ∀ m ∈ own, ∀ v ∈ appended (valuesUri tableRoot) m.1 m.2,
    v.get "run_id" = .text p.manifest.runId
  held : (∃ m ∈ own, appended (valuesUri tableRoot) m.1 m.2 ≠ []) →
    Held "run_id" runIdentityColumns p.manifest.row (s.tables (runsUri tableRoot))

variable {p : Publication F} {own : Trail (World F)}

/-- What the others do keeps a publication's condition. -/
theorem Publishing.advances (h : Publishing tableRoot p own s) (hst : Advances tableRoot s t) :
    Publishing tableRoot p own t :=
  ⟨hst.2 h.consistent, h.ofRun, fun hv => (h.held hv).grows h.consistent.manifests hst.1⟩

/-- A transition that leaves the values as they are. -/
theorem Publishing.append_of_eq (h : Publishing tableRoot p own s) (hst : Advances tableRoot s t)
    (hv : t.tables (valuesUri tableRoot) = s.tables (valuesUri tableRoot)) :
    Publishing tableRoot p (own ++ [(s, t)]) t := by
  have hnil : appended (valuesUri tableRoot) s t = [] := (retains_of_eq hv).2
  refine ⟨hst.2 h.consistent, fun m hm => ?_, fun hex => ?_⟩
  · obtain hm | hm := List.mem_append.1 hm
    · exact h.ofRun m hm
    · rw [List.mem_singleton.1 hm, hnil]
      exact nofun
  · obtain ⟨m, hm, hne⟩ := hex
    obtain hm | hm := List.mem_append.1 hm
    · exact (h.held ⟨m, hm, hne⟩).grows h.consistent.manifests hst.1
    · rw [List.mem_singleton.1 hm] at hne
      exact absurd hnil hne

omit [PyFloat F] in
/-- An append of a manifest is allowed and leaves the values. -/
theorem advances_of_manifestMove
    (h : TableMove (runsUri tableRoot) "run_id" runIdentityColumns s t) :
    Advances tableRoot s t ∧ t.tables (valuesUri tableRoot) = s.tables (valuesUri tableRoot) := by
  have hv : t.tables (valuesUri tableRoot) = s.tables (valuesUri tableRoot) := by
    rw [h.frame]
    exact Function.update_of_ne runsUri_ne_valuesUri.symm _ _
  refine ⟨⟨h.grows, fun hs => ⟨h.grows.lineage hs.manifests, by rw [hv]; exact hs.columns, fun v hv' => ?_⟩⟩,
    hv⟩
  rw [storedRows, hv] at hv'
  obtain ⟨m, hm, hk⟩ := hs.published v hv'
  exact ⟨m, manifests_retained hs h.grows hm, hk⟩

/-- Where the manifest is held, values of its run may be added. -/
theorem advances_of_values (hs : Consistent tableRoot s)
    (hheld : Held "run_id" runIdentityColumns (p.manifest.row : Row F)
      (s.tables (runsUri tableRoot)))
    (h : Adds (valuesUri tableRoot) (fun r => r.get "run_id" = .text p.manifest.runId) s t) :
    Advances tableRoot s t ∧ ∀ v ∈ appended (valuesUri tableRoot) s t,
      v.get "run_id" = .text p.manifest.runId := by
  have hruns : t.tables (runsUri tableRoot) = s.tables (runsUri tableRoot) :=
    h.tables_of_ne runsUri_ne_valuesUri
  have hmanifest : ∃ m ∈ storedRows (runsUri tableRoot) s,
      m.get "run_id" = .text p.manifest.runId := by
    obtain ⟨table, htable, m, hm, hk, -⟩ := hheld
    exact ⟨m, mem_storedRows.2 ⟨table, htable, hm⟩, hk⟩
  obtain he | ⟨newest, added, ht, hv⟩ := h.rows
  · refine ⟨⟨by rw [hruns]; exact Grows.refl _, fun _ => ⟨by rw [hruns]; exact hs.manifests,
      by rw [he]; exact hs.columns, ?_⟩⟩,
      by rw [(retains_of_eq he).2]; exact List.forall_mem_nil _⟩
    rw [storedRows, he, storedRows, hruns]
    exact hs.published
  -- a first version takes the columns of the batch, a later one keeps them
  have hcolumns : "run_id" ∈ newest.columns := by
    cases hold : s.tables (valuesUri tableRoot) with
    | nil =>
      obtain ⟨r, hr, hcols⟩ := hv.first hold
      rw [← hcols]
      exact Row.mem_columns_of_get (by rw [hr]; rintro ⟨⟩)
    | cons table older =>
      rw [hv.columns table (by rw [hold]; rfl)]
      exact hs.columns table (by rw [hold]; rfl)
  have hadded : ∀ v ∈ added, v.get "run_id" = .text p.manifest.runId := by
    intro v hmem
    obtain ⟨r, hr, rfl⟩ := hv.added v hmem
    rw [Row.get_project_of_mem hcolumns]
    exact hr
  have hst : storedRows (valuesUri tableRoot) t = storedRows (valuesUri tableRoot) s ++ added := by
    rw [storedRows, ht]
    exact hv.rows
  refine ⟨⟨by rw [hruns]; exact Grows.refl _, fun _ => ⟨by rw [hruns]; exact hs.manifests, ?_, ?_⟩⟩, ?_⟩
  · rw [ht]
    rintro _ ⟨⟩
    exact hcolumns
  · rw [hst]
    intro v hmem
    have hr : storedRows (runsUri tableRoot) t = storedRows (runsUri tableRoot) s := by
      rw [storedRows, storedRows, hruns]
    rw [hr]
    obtain hmem | hmem := List.mem_append.1 hmem
    · exact hs.published v hmem
    · rw [hadded v hmem]
      exact hmanifest
  · rw [appended, hst, List.drop_left]
    exact hadded

/-- A publication appends its manifest in this setting. -/
theorem hosts_manifests (p : Publication F) : Hosts (serving F tableRoot) (Advances tableRoot)
    (Publishing tableRoot p) (runsUri tableRoot) "run_id" runIdentityColumns where
  sem := id
  rely h := h.1
  guarantee h := (advances_of_manifestMove h).1
  crash_rely hC h := hC.advances h
  crash_move hC h := hC.append_of_eq (advances_of_manifestMove h).1 (advances_of_manifestMove h).2

omit [PyFloat F] in
/-- A manifest is a batch of one row. -/
theorem batch_manifest (m : RunManifest) :
    Batch "run_id" runIdentityColumns [(m.row : Row F)] (some portKpiRunsSchema) where
  guard := rfl
  key := by decide
  text r hr := ⟨m.runId, by rw [List.mem_singleton.1 hr]; rfl⟩
  nodup := List.nodup_singleton _
  schema := by
    rintro cs ⟨⟩
    decide

/-- No column of a manifest differs from itself. -/
theorem eq_manifest_self (m : RunManifest) :
    ∀ c ∈ runIdentityColumns, ((m.row : Row F).get c).eq ((m.row : Row F).get c) = true := by
  simp [runIdentityColumns, RunManifest.row, Row.get, List.lookup_cons, Cell.eq]

omit [PyFloat F] in
/-- The value rows are of the run. -/
theorem get_runId_values {valueRows : List (Row F)} {source : ArrowTable F}
    (h : collect (p.values.map fun v => do return v.row (← valueRowKey L v)) = .ok valueRows)
    (hsource : ArrowTable.fromPylist valueRows (some portKpiValuesSchema) = .ok source) :
    ∀ r ∈ source.rows, r.get "run_id" = .text p.manifest.runId := by
  rw [fromPylist_rows hsource, fromPylist_columns hsource]
  intro r hr
  obtain ⟨r, hr', rfl⟩ := List.mem_map.1 hr
  rw [Row.get_project_of_mem (by decide)]
  obtain ⟨v, hv, hvr⟩ := List.mem_map.1 (mem_of_collect h hr')
  obtain ⟨key, -, hkey⟩ := bind_eq_ok.1 hvr
  cases hkey
  exact congrArg Cell.text (p.ofRun v hv)

/-- **The contract of a publication.** -/
theorem meets_publish (hs : Consistent tableRoot s) :
    (publish L (runsUri tableRoot) (valuesUri tableRoot) p).Meets (serving F tableRoot)
      (Advances tableRoot) (Publishing tableRoot p) (fun _ _ _ => True) (fun _ _ _ => True) [] s := by
  have hstart : Publishing tableRoot p [] s :=
    ⟨hs, nofun, fun ⟨m, hm, _⟩ => absurd hm List.not_mem_nil⟩
  unfold publish
  refine Prog.Meets.lift_bind (fun valueRows hrows => ?_) fun e _ =>
    meets_raise (hosts_manifests p) hstart fun _ _ _ => trivial
  refine Prog.Meets.bind ((meets_appendRows (hosts_manifests p) (batch_manifest p.manifest)
    (fun _ r hr => ?_) hs.manifests hstart).mono (fun _ _ => id) (fun a own t hC hret => ?_)
    fun _ _ _ _ _ => trivial)
  · rw [List.mem_singleton.1 hr]
    exact eq_manifest_self p.manifest
  -- the manifest is held: from here on values of its run may be added
  have hvalues : Only (Adds (valuesUri tableRoot) fun r => r.get "run_id" = .text p.manifest.runId)
      (appendRows L (valuesUri tableRoot) valueRows "value_key" (some valuesTableDescription)
        (some portKpiValuesSchema) (lit "platform_gold_port_kpi_values") >>= fun values =>
        (pure (a, values) : Script F (Appended × Appended))) :=
    .bind (only_adds_appendRows L _ _ _ _ _ _ fun _ => get_runId_values hrows) fun _ => trivial
  refine Prog.Meets.mono (fun _ _ h => h.1) (fun _ _ _ _ _ => trivial) (fun _ _ _ _ _ => trivial)
    (Prog.Obeys.meets (S := serving F tableRoot) (C := fun own t => Publishing tableRoot p own t ∧
      Held "run_id" runIdentityColumns p.manifest.row (t.tables (runsUri tableRoot)))
      (fun h hr => ?_) (fun h hadds => ?_) hvalues ⟨hC, hret.1 _ List.mem_cons_self⟩)
  · exact ⟨h.1.advances hr, h.2.grows h.1.consistent.manifests hr.1⟩
  · obtain ⟨hadv, hadded⟩ := advances_of_values h.1.consistent h.2 hadds
    have hheld := h.2.grows h.1.consistent.manifests hadv.1
    refine ⟨hadv, ⟨hadv.2 h.1.consistent, fun m hm => ?_, fun _ => hheld⟩, hheld⟩
    obtain hm | hm := List.mem_append.1 hm
    · exact h.1.ofRun m hm
    · rw [List.mem_singleton.1 hm]
      exact hadded

/-! ## A request -/

/-- **A request is overtaken** between two states of the store: a value that
passes its filters is of a run both of whose commits fall between them. -/
def Overtaken (tableRoot : Text) (filters : Members Text) (s t : World F) : Prop :=
  ∃ u ∈ snapshotRows (valuesUri tableRoot) t, passes u filters = .ok true ∧
    (∃ m ∈ storedRows (runsUri tableRoot) t, m.get "run_id" = u.get "run_id") ∧
    (∀ m ∈ storedRows (runsUri tableRoot) s, m.get "run_id" ≠ u.get "run_id") ∧
    ∀ v ∈ storedRows (valuesUri tableRoot) s, v.get "run_id" ≠ u.get "run_id"

/-- A served value is a value of the second snapshot joined with the
manifest of its run in the first. -/
def Joined (L : Library) (tableRoot : Text) (filters : Members Text) (s t : World F)
    (item : ServedValue F) : Prop :=
  ∃ u ∈ snapshotRows (valuesUri tableRoot) t, ∃ m ∈ snapshotRows (runsUri tableRoot) s,
    passes u filters = .ok true ∧ m.get "run_id" = u.get "run_id" ∧ serve L u m = .ok item

/-- The states a request opened the two tables in. -/
def Snapshots (own : Trail (World F)) (s t : World F) : Prop :=
  ∃ a b, own = [(s, s), (a, a), (t, t), (b, b)]

/-- What a stored manifest's row is read as. -/
theorem Consistent.manifest_read (hs : Consistent tableRoot s) {r : Row F}
    (hr : r ∈ snapshotRows (runsUri tableRoot) s) : ∃ m ∈ storedRows (runsUri tableRoot) s,
      ∀ c ∈ runIdentityColumns, r.get c = m.get c := by
  obtain ⟨table, htable, m, hm, rfl⟩ := mem_snapshotRows.1 hr
  refine ⟨m, mem_storedRows.2 ⟨table, htable, hm⟩, fun c hc => ?_⟩
  exact Row.get_project_of_mem ((hs.manifests.keyed table htable).columns hc)

/-- A manifest that is stored is read. -/
theorem Consistent.manifest_stored (hs : Consistent tableRoot s) {m : Row F}
    (hm : m ∈ storedRows (runsUri tableRoot) s) : ∃ r ∈ snapshotRows (runsUri tableRoot) s,
      r.get "run_id" = m.get "run_id" := by
  obtain ⟨table, htable, hm⟩ := mem_storedRows.1 hm
  refine ⟨m.project table.columns, mem_snapshotRows.2 ⟨table, htable, m, hm, rfl⟩, ?_⟩
  exact Row.get_project_of_mem
    ((hs.manifests.keyed table htable).columns (by decide))

omit [PyFloat F] in
/-- A run's id is a text. -/
theorem Consistent.text (hs : Consistent tableRoot s) {m : Row F}
    (hm : m ∈ storedRows (runsUri tableRoot) s) : ∃ id, m.get "run_id" = .text id := by
  obtain ⟨table, htable, hm⟩ := mem_storedRows.1 hm
  exact (hs.manifests.keyed table htable).text m hm

/-- A value read has its run's manifest stored. -/
theorem Consistent.published_read (hs : Consistent tableRoot s) {u : Row F}
    (hu : u ∈ snapshotRows (valuesUri tableRoot) s) :
    ∃ m ∈ storedRows (runsUri tableRoot) s, m.get "run_id" = u.get "run_id" := by
  obtain ⟨table, htable, v, hv, rfl⟩ := mem_snapshotRows.1 hu
  rw [Row.get_project_of_mem (hs.columns table htable)]
  exact hs.published v (mem_storedRows.2 ⟨table, htable, hv⟩)

/-- Ids that Python compares equal are equal. -/
theorem eq_of_runId (hs : Consistent tableRoot s) {m u : Row F}
    (hm : m ∈ snapshotRows (runsUri tableRoot) s)
    (hu : ∃ id, u.get "run_id" = .text id) :
    (m.get "run_id").eq (u.get "run_id") = true ↔ m.get "run_id" = u.get "run_id" := by
  obtain ⟨m', hm', hget⟩ := hs.manifest_read hm
  obtain ⟨id, hid⟩ := hs.text hm'
  obtain ⟨id', hid'⟩ := hu
  rw [hget _ (by decide), hid, hid']
  simp [Cell.eq]

section

variable {filters : Members Text} {runs : List (Cell F × Row F)} {manifests rows : List (Row F)}
  (hs : Consistent tableRoot s) (hst : Advances tableRoot s t)
  (hmanifests : manifests.Perm (snapshotRows (runsUri tableRoot) s))
  (hruns : runsById manifests = .ok runs)
  (hrows : rows.Perm (snapshotRows (valuesUri tableRoot) t))

include hs hst hmanifests hruns hrows

/-- **An unknown run has overtaken the request.** -/
theorem overtaken_of_unknownRun {runId : Cell F}
    (h : serveRows L filters runs rows = .error (unknownRun L runId)) :
    Overtaken tableRoot filters s t := by
  obtain ⟨u, hu, hp, hnone⟩ := serveRows_unknown h
  have hut := hrows.mem_iff.1 hu
  obtain ⟨m, hm, hmu⟩ := (hst.2 hs).published_read hut
  obtain ⟨id, hid⟩ := (hst.2 hs).text hm
  rw [runsById_eq_ok hruns] at hnone
  have hmissing : ∀ m ∈ storedRows (runsUri tableRoot) s, m.get "run_id" ≠ u.get "run_id" := by
    intro m' hm' he
    obtain ⟨r, hr, hrm⟩ := hs.manifest_stored hm'
    have hne := findManifest_eq_none hnone r (hmanifests.mem_iff.2 hr)
    rw [(eq_of_runId hs hr ⟨id, hmu ▸ hid⟩).2 (hrm.trans he)] at hne
    cases hne
  refine ⟨u, hut, hp, ⟨m, hm, hmu⟩, hmissing, fun v hv he => ?_⟩
  -- its values were not there either: the store was consistent
  obtain ⟨m', hm', hmv⟩ := hs.published v hv
  exact hmissing m' hm' (hmv.trans he)

/-- **An answer was not overtaken**, and joins each value with its run. -/
theorem joined_of_served {items : List (ServedValue F)}
    (h : serveRows L filters runs rows = .ok items) :
    ¬Overtaken tableRoot filters s t ∧ ∀ item ∈ items, Joined L tableRoot filters s t item := by
  obtain ⟨hall, hitems⟩ := serveRows_served h
  have hfound : ∀ u ∈ rows, ∀ m, findManifest runs (u.get "run_id") = some m →
      m ∈ snapshotRows (runsUri tableRoot) s ∧ m.get "run_id" = u.get "run_id" := by
    intro u hu m hm
    rw [runsById_eq_ok hruns] at hm
    obtain ⟨hmem, heq⟩ := findManifest_eq_some hm
    have hms := hmanifests.mem_iff.1 hmem
    obtain ⟨m', hm', hmu⟩ := (hst.2 hs).published_read (hrows.mem_iff.1 hu)
    obtain ⟨id, hid⟩ := (hst.2 hs).text hm'
    exact ⟨hms, (eq_of_runId hs hms ⟨id, hmu ▸ hid⟩).1 heq⟩
  refine ⟨?_, fun item hi => ?_⟩
  · rintro ⟨u, hu, hp, -, hmissing, -⟩
    obtain ⟨m, hm⟩ := hall u (hrows.mem_iff.2 hu) hp
    obtain ⟨hms, hmu⟩ := hfound u (hrows.mem_iff.2 hu) m hm
    obtain ⟨m', hm', hget⟩ := hs.manifest_read hms
    exact hmissing m' hm' ((hget "run_id" (by decide)).symm.trans hmu)
  · obtain ⟨u, hu, m, hp, hm, hserve⟩ := hitems item hi
    obtain ⟨hms, hmu⟩ := hfound u hu m hm
    exact ⟨u, hrows.mem_iff.1 hu, m, hms, hp, hmu, hserve⟩

end

/-- **What a request has seen**: two snapshots its filters were applied to,
each before what the store holds now. -/
def Opened (tableRoot : Text) (query : Members (List Text)) (own : Trail (World F)) (now : World F)
    (P : Members Text → World F → World F → Prop) : Prop :=
  ∃ filters s t, queryFilters query = .ok filters ∧ Snapshots own s t ∧ Consistent tableRoot s ∧
    Advances tableRoot s t ∧ Advances tableRoot t now ∧ P filters s t

omit [PyFloat F] in
/-- What a request has seen stays before what the store holds. -/
theorem Opened.advances {query : Members (List Text)} {P : Members Text → World F → World F → Prop}
    (h : Opened tableRoot query own s P) (hst : Advances tableRoot s t) :
    Opened tableRoot query own t P := by
  obtain ⟨filters, s₁, s₂, hf, hsnap, hs₁, h₁₂, hnow, hP⟩ := h
  exact ⟨filters, s₁, s₂, hf, hsnap, hs₁, h₁₂, hnow.trans hst, hP⟩

/-- A request reads in this setting. -/
theorem hosts_reading : Hosts (serving F tableRoot) (Advances tableRoot)
    (fun _ => Consistent tableRoot) (runsUri tableRoot) "run_id" runIdentityColumns where
  sem := id
  rely h := h.1
  guarantee h := (advances_of_manifestMove h).1
  crash_rely hs h := h.2 hs
  crash_move hs h := (advances_of_manifestMove h).1.2 hs

omit [PyFloat F] in
/-- The state between two reads of a request. -/
theorem Consistent.between (hs : Consistent tableRoot s) :
    Between (fun _ => Consistent tableRoot) (runsUri tableRoot) "run_id" runIdentityColumns
      (inserted (runsUri tableRoot) own) own s :=
  ⟨hs.manifests, hs, rfl⟩

/-- No failure but an unknown run names one. -/
theorem unavailable_ne_unknownRun (detail : Text) (runId : Cell F) :
    PyError.statsApiError 503 (lit "gold table " ++ detail) ≠ unknownRun L runId := by
  intro h
  injection h with _ h
  have h : some 0x67 = some 0x76 := congrArg List.head? h
  cases h

/-- No failure of the store is an unknown run. -/
theorem foreign_ne_unknownRun {e : PyError} (he : e.isForeign = true) (runId : Cell F) :
    e ≠ unknownRun L runId := by
  rintro rfl
  cases he

/-- **`_read_gold_table`** reads the rows of the table it opened. -/
theorem meets_readGoldTable {α : Type} {name : Text} {f : List (Row F) → Script F α}
    {Q : α → Trail (World F) → World F → Prop} {E : PyError → Trail (World F) → World F → Prop}
    (hs : Consistent tableRoot s)
    (hok : ∀ t a u rows, Advances tableRoot s t →
      rows.Perm (snapshotRows (goldTableUri tableRoot name) t) → Advances tableRoot t u →
      Consistent tableRoot u →
      (f rows).Meets (serving F tableRoot) (Advances tableRoot) (fun _ => Consistent tableRoot) Q E
        (own ++ [(t, t), (a, a)]) u)
    (herr : ∀ own' t e, (∀ runId : Cell F, e ≠ unknownRun L runId) → E e own' t) :
    (readGoldTable L tableRoot name >>= f).Meets (serving F tableRoot) (Advances tableRoot)
      (fun _ => Consistent tableRoot) Q E own s := by
  have raises : ∀ {β : Type} {Q' : β → Trail (World F) → World F → Prop} {own' t e},
      Consistent tableRoot t → (∀ runId : Cell F, e ≠ unknownRun L runId) →
      (Prog.raise e : Script F β).Meets (serving F tableRoot) (Advances tableRoot)
        (fun _ => Consistent tableRoot) Q' E own' t := fun ht he =>
    meets_raise hosts_reading ht fun _ _ _ => herr _ _ _ he
  -- a table that cannot be opened is answered as unavailable
  have failed : ∀ {e : PyError} {own' t}, Consistent tableRoot t →
      (if e = .tableNotFound then unavailable (lit "gold table " ++ name ++
          lit " does not exist yet; no statistics run has been published")
        else unavailable (lit "gold table " ++ name ++ lit " is unreadable: " ++ e.text) :
          Script F (Table F)).Meets (serving F tableRoot) (Advances tableRoot)
        (fun _ => Consistent tableRoot) (fun table own t =>
          (Script.readRows table table.columns none >>= f).Meets (serving F tableRoot)
            (Advances tableRoot) (fun _ => Consistent tableRoot) Q E own t) E own' t := by
    intro e own' t ht
    split_ifs
    · refine raises ht fun runId => ?_
      rw [List.append_assoc]
      exact unavailable_ne_unknownRun _ runId
    · refine raises ht fun runId => ?_
      rw [List.append_assoc, List.append_assoc]
      exact unavailable_ne_unknownRun _ runId
  rw [readGoldTable, Prog.bind_assoc]
  refine Prog.Meets.bind (Prog.Meets.orElse (Prog.Meets.lift_bind (fun _ _ => ?_) fun e _ => ?_))
  swap
  · exact meets_raise hosts_reading hs fun t _ ht => failed ht
  rw [← Prog.bind_pure (Script.openTable _)]
  refine meets_read hosts_reading rfl hs.between (fun t table hst hopen hbt => ?_)
    fun t e _ _ _ hbt => meets_raise hosts_reading hbt.crash fun u _ hu => failed hu
  have hhead : table ∈ (t.tables (goldTableUri tableRoot name)).head? := by
    cases hopen with
    | openTable h =>
      rw [h]
      rfl
  refine Prog.Meets.ret_of (fun u hu => hu.2 hbt.crash) fun u hu => ?_
  refine meets_read hosts_reading rfl (hu.2 hbt.crash).between (fun a rows hua hread hba => ?_)
    fun a e _ hf _ hba => raises hba.crash (foreign_ne_unknownRun hf)
  cases hread with
  | readRows _ hperm =>
    rw [List.append_assoc] at *
    refine hok t a a rows hst ?_ (hu.trans hua) hba.crash
    rw [snapshotRows, hhead]
    exact hperm

/-- Bad filters are no unknown run. -/
theorem queryFilters_raises (query : Members (List Text)) (runId : Cell F) :
    OnlyRaises (· ≠ unknownRun L runId) (queryFilters query) := by
  have bad : ∀ {α : Type} (detail : Text),
      OnlyRaises (· ≠ unknownRun L runId) (badRequest detail : Except PyError α) := fun detail =>
    .error nofun
  have filters : ∀ parameters, OnlyRaises (· ≠ unknownRun L runId)
      (readFilters query parameters) := by
    intro parameters
    induction parameters with
    | nil => exact .ok _
    | cons parameter parameters ih =>
      rw [readFilters]
      split
      · exact ih
      · exact .bind ih fun _ _ => .ok _
      · exact bad _
  unfold queryFilters
  refine .bind (filters _) fun _ _ => ?_
  dsimp only
  split_ifs
  · exact bad _
  · exact bad _
  · exact bad _
  · exact bad _
  · exact .ok _

/-- **The contract of a request.** -/
theorem meets_queryValues (query : Members (List Text)) (hs : Consistent tableRoot s) :
    (queryValues L tableRoot query).Meets (serving F tableRoot) (Advances tableRoot)
      (fun _ => Consistent tableRoot)
      (fun items own now => Opened tableRoot query own now fun filters s t =>
        ¬Overtaken tableRoot filters s t ∧ ∀ item ∈ items, Joined L tableRoot filters s t item)
      (fun e own now => ∀ runId : Cell F, e = unknownRun L runId →
        Opened tableRoot query own now (Overtaken tableRoot)) [] s := by
  have known : ∀ {own' : Trail (World F)} {t : World F} {e : PyError},
      (∀ runId : Cell F, e ≠ unknownRun L runId) → ∀ runId : Cell F, e = unknownRun L runId →
        Opened tableRoot query own' t (Overtaken tableRoot) := fun he runId h => absurd h (he runId)
  unfold queryValues
  refine Prog.Meets.lift_bind (fun filters hfilters => ?_) fun e he =>
    meets_raise hosts_reading hs fun _ _ _ => known fun runId => queryFilters_raises query runId e he
  refine meets_readGoldTable hs (fun s₁ a u manifests hss₁ hmanifests hu hsu => ?_)
    fun _ _ _ he => known he
  refine Prog.Meets.lift_bind (fun runs hruns => ?_) fun e he =>
    meets_raise hosts_reading hsu fun _ _ _ => known ?_
  swap
  · have hapi : OnlyRaises NoApiError (runsById manifests) :=
      .collect fun x hx => by
        obtain ⟨m, -, rfl⟩ := List.mem_map.1 hx
        exact .bind (cell_raises _ _) fun _ _ => .ok _
    exact (hapi e he).ne_unknownRun
  refine meets_readGoldTable hsu (fun s₂ b v rows hus₂ hrows hv hsv => ?_) fun _ _ _ he => known he
  have hs₁ := hss₁.2 hs
  have h₁₂ := hu.trans hus₂
  have opened : ∀ {P : Members Text → World F → World F → Prop} {now : World F},
      Advances tableRoot v now → P filters s₁ s₂ →
      Opened tableRoot query ([] ++ [(s₁, s₁), (a, a)] ++ [(s₂, s₂), (b, b)]) now P :=
    fun hnow hP => ⟨filters, s₁, s₂, hfilters, ⟨a, b, rfl⟩, hs₁, h₁₂, hv.trans hnow, hP⟩
  refine Prog.Meets.lift_bind (fun items hitems => ?_) fun e he => ?_
  · obtain ⟨hnot, hjoined⟩ := joined_of_served hs₁ h₁₂ hmanifests hruns hrows hitems
    refine Prog.Meets.ret_of (fun now hnow => hnow.2 hsv) fun now hnow => opened hnow ⟨hnot, ?_⟩
    intro item hi
    exact hjoined item (mem_sortBy.1 hi)
  · refine Prog.Meets.raise_of (fun now hnow => hnow.2 hsv) fun now hnow runId hrunId => ?_
    subst hrunId
    exact opened hnow (overtaken_of_unknownRun hs₁ h₁₂ hmanifests hruns hrows he)

end

/-! ## Any number of requests and publications -/

/-- One party at the gold tables. -/
inductive Party (F : Type) where
  | publication (p : Publication F)
  | request (query : Members (List Text))

namespace Party

/-- What a party runs: a request answers with the values it serves. -/
def prog (tableRoot : Text) : Party F → Script F (Option (List (ServedValue F)))
  | publication p => publish L (runsUri tableRoot) (valuesUri tableRoot) p >>= fun _ => .ret none
  | request query => queryValues L tableRoot query >>= fun items => .ret (some items)

/-- What holds wherever a party is stopped. -/
def Stopped (tableRoot : Text) : Party F → Trail (World F) → World F → Prop
  | publication p => Publishing tableRoot p
  | request _ => fun _ => Consistent tableRoot

/-- What holds of an answer. -/
def Answers (tableRoot : Text) :
    Party F → Option (List (ServedValue F)) → Trail (World F) → World F → Prop
  | publication _ => fun _ _ _ => True
  | request query => fun answer own now => ∃ items, answer = some items ∧
      Opened tableRoot query own now fun filters s t =>
        ¬Overtaken tableRoot filters s t ∧ ∀ item ∈ items, Joined L tableRoot filters s t item

/-- What holds of a failure. -/
def Fails (tableRoot : Text) : Party F → PyError → Trail (World F) → World F → Prop
  | publication _ => fun _ _ _ => True
  | request query => fun e own now => ∀ runId : Cell F, e = unknownRun L runId →
      Opened tableRoot query own now (Overtaken tableRoot)

/-- **The contract of a party.** -/
theorem meets {tableRoot : Text} {s : World F} (hs : Consistent tableRoot s) (party : Party F) :
    (party.prog L tableRoot).Meets (serving F tableRoot) (Advances tableRoot)
      (party.Stopped tableRoot) (party.Answers L tableRoot) (party.Fails L tableRoot) [] s := by
  cases party with
  | publication p =>
    exact Prog.Meets.mono (fun _ _ => id) (fun _ _ _ _ _ => trivial) (fun _ _ _ _ => id)
      (meets_publish hs).map
  | request query => exact (meets_queryValues query hs).map

end Party

/-- **Serving while publishing.** Over any interleaving of requests and
publications, each of which may stop anywhere: a request fails for an
unknown run only where it was overtaken, and an answer is of a request that
was not, each of its values joined with the manifest of every publication
that added values under its run's id. -/
theorem serving_interleaved {ι : Type} [DecidableEq ι] (tableRoot : Text) (party : ι → Party F)
    (w : World F) (hw : Consistent tableRoot w)
    (c : Fleet ι (Op F) Op.Res PyError (Option (List (ServedValue F))) (World F))
    (hc : Fleet.Reach World.Performs (Fleet.start w fun i => (party i).prog L tableRoot) c)
    (i : ι) (query : Members (List Text)) (hi : party i = .request query) :
    (∀ runId : Cell F, c.prog i = .raise (unknownRun L runId) → ∃ filters s t,
      queryFilters query = .ok filters ∧ Snapshots (c.own i) s t ∧
        Overtaken tableRoot filters s t) ∧
    ∀ items, c.prog i = .ret (some items) → ∃ filters s t,
      queryFilters query = .ok filters ∧ Snapshots (c.own i) s t ∧
        ¬Overtaken tableRoot filters s t ∧
        ∀ item ∈ items, ∃ u ∈ snapshotRows (valuesUri tableRoot) t,
          ∃ m ∈ snapshotRows (runsUri tableRoot) s, passes u filters = .ok true ∧
            m.get "run_id" = u.get "run_id" ∧ serve L u m = .ok item ∧
            ∀ j p, party j = .publication p → (∃ step ∈ c.own j,
              ∃ v ∈ appended (valuesUri tableRoot) step.1 step.2,
                v.get "run_id" = u.get "run_id") →
              ∀ column ∈ runIdentityColumns,
                (m.get column).eq (p.manifest.row.get column) = true := by
  have hmeets := (Fleet.meets (fun i => Party.meets L hw (party i)) hc).2
  have hmi := hmeets i
  rw [hi] at hmi
  refine ⟨fun runId hraise => ?_, fun items hret => ?_⟩
  -- a request that finds no run was overtaken by a publication
  · rw [hraise] at hmi
    obtain ⟨filters, s, t, hf, hsnap, -, -, -, hover⟩ := hmi.raise_here runId rfl
    exact ⟨filters, s, t, hf, hsnap, hover⟩
  rw [hret] at hmi
  obtain ⟨items', hitems, filters, s, t, hf, hsnap, hs, hst, htc, hnot, hjoined⟩ := hmi.ret_here
  obtain rfl := Option.some.inj hitems
  refine ⟨filters, s, t, hf, hsnap, hnot, fun item hitem => ?_⟩
  obtain ⟨u, hu, m, hm, hp, hmu, hserve⟩ := hjoined item hitem
  refine ⟨u, hu, m, hm, hp, hmu, hserve, fun j p hj hadded column hcolumn => ?_⟩
  have hmj := hmeets j
  rw [hj] at hmj
  obtain ⟨step, hstep, v, hv, hvu⟩ := hadded
  have hpublishing : Publishing tableRoot p (c.own j) c.store := hmj.here
  -- the manifest held for the publication and the one joined are one row
  obtain ⟨table, htable, m₁, hm₁, hk₁, hcols⟩ := hpublishing.held ⟨step, hstep, List.ne_nil_of_mem hv⟩
  obtain ⟨m₂, hm₂, hget⟩ := hs.manifest_read hm
  have hgrows := (hst.trans htc).1
  obtain ⟨table', htable', hm₂'⟩ := mem_storedRows.1 (manifests_retained hs hgrows hm₂)
  obtain rfl := Option.mem_unique htable htable'
  have hkey : m₂.get "run_id" = m₁.get "run_id" := by
    rw [← hget _ (by decide), hmu, ← hvu, hpublishing.ofRun step hstep v hv, hk₁]
    rfl
  obtain rfl := ((hgrows.lineage hs.manifests).keyed table htable).eq_of_key hm₂'
    hm₁ hkey
  rw [hget column hcolumn]
  exact hcols column hcolumn

/-! ## Two runs and a reader -/

/-- What a run without observations publishes. -/
def emptyRun (runId : String) : Publication Decimal where
  manifest := {
    runId := lit runId
    computedAt := 0
    period := lit "2026-06"
    periodStart := 1780272000000000
    periodEnd := 1782864000000000
    sourceTableVersionsJson := lit "\x7b\"platform_silver.events\":3\x7d"
    queryDefinitionsSha256 := lit "9c56"
    kpiCount := 9
    rowsEmitted := 1
    rowsNoData := 1
    reportSha256 := lit "41d2" }
  values := [{
    runId := lit runId
    kpiId := lit "vessel_calls"
    period := lit "2026-06"
    portCode := some (lit "NGLOS")
    shipClass := none
    value := none
    unit := lit "calls"
    nObservations := 0
    percentile := none
    coverageNote := none
    definitionVersion := lit "1.0"
    sourceTable := lit "platform_silver.events"
    tableVersion := 3
    queryHash := lit "9c56"
    computedAt := 0 }]
  ofRun v hv := by rw [List.mem_singleton.1 hv]

inductive Guest where
  | first | second | reader
  deriving DecidableEq

def guests : Guest → Party Decimal
  | .first => .publication (emptyRun "run-1")
  | .second => .publication (emptyRun "run-2")
  | .reader => .request []

def goldRoot : Text := lit "/srv/lakehouse/platform/platform_gold"

/-- No table is there yet. -/
def unpublished : World Decimal where
  tables _ := []
  deadLetters := []
  commits := []
  files _ := none
  clock := 0

/-- Without the tables nothing disagrees. -/
theorem unpublished_consistent : Consistent goldRoot unpublished :=
  ⟨⟨nofun, .nil⟩, nofun, fun _ h => absurd h List.not_mem_nil⟩

def guestsStart : Fleet Guest (Op Decimal) Op.Res PyError (Option (List (ServedValue Decimal)))
    (World Decimal) :=
  Fleet.start unpublished fun i => (guests i).prog Library.ascii goldRoot

/-- The parties after a schedule of their calls. -/
def scheduled (schedule : List Guest)
    (c : Fleet Guest (Op Decimal) Op.Res PyError (Option (List (ServedValue Decimal)))
      (World Decimal)) : Fleet Guest (Op Decimal) Op.Res PyError
    (Option (List (ServedValue Decimal))) (World Decimal) :=
  schedule.foldl (Fleet.move (Engine.plain Decimal).handle) c

/-- A schedule of calls is an interleaving. -/
theorem reach_scheduled (schedule : List Guest)
    (c : Fleet Guest (Op Decimal) Op.Res PyError (Option (List (ServedValue Decimal)))
      (World Decimal)) : Fleet.Reach World.Performs c (scheduled schedule c) :=
  Fleet.reach_moves _ (Engine.plain Decimal).performs_handle schedule c

/-- The first run's six calls: both its tables are there. -/
def firstPublished : Fleet Guest (Op Decimal) Op.Res PyError
    (Option (List (ServedValue Decimal))) (World Decimal) :=
  scheduled (List.replicate 6 .first) guestsStart

/-- A second run publishes between the two reads of a request, which fails
though both tables were there before it began. -/
theorem serving_interleaved_overtaken :
    (firstPublished.store.tables (runsUri goldRoot)).isEmpty = false ∧
    (firstPublished.store.tables (valuesUri goldRoot)).isEmpty = false ∧
    (firstPublished.own .reader).isEmpty = true ∧
    ∃ c, Fleet.Reach World.Performs guestsStart firstPublished ∧
      Fleet.Reach World.Performs firstPublished c ∧
      c.prog .reader = .raise (unknownRun Library.ascii (.text (lit "run-2") : Cell Decimal)) := by
  have hends : ((firstPublished.store.tables (runsUri goldRoot)).isEmpty = false ∧
      (firstPublished.store.tables (valuesUri goldRoot)).isEmpty = false ∧
      (firstPublished.own .reader).isEmpty = true) ∧
      ((scheduled (List.replicate 2 .reader ++ List.replicate 20 .second ++
        List.replicate 2 .reader) firstPublished).prog .reader).raised =
        some (unknownRun Library.ascii (.text (lit "run-2") : Cell Decimal)) := by decide +kernel
  exact ⟨hends.1.1, hends.1.2.1, hends.1.2.2, _, reach_scheduled _ _, reach_scheduled _ _,
    Prog.eq_raise hends.2⟩

/-- A second run has published its manifest only: the request serves the
first run's value. -/
theorem serving_interleaved_stopped : ∃ c items filters s t,
    Fleet.Reach World.Performs guestsStart c ∧ c.prog .reader = .ret (some items) ∧
      items.length = 1 ∧ queryFilters [] = .ok filters ∧ Snapshots (c.own .reader) s t ∧
      ¬Overtaken goldRoot filters s t := by
  have hlength : ((scheduled (List.replicate 5 .second ++ List.replicate 4 .reader)
      firstPublished).prog .reader).returned.map (·.map List.length) = some (some 1) := by
    decide +kernel
  obtain ⟨answer, hanswer, hlength⟩ := Option.map_eq_some_iff.1 hlength
  obtain ⟨items, rfl, hitems⟩ := Option.map_eq_some_iff.1 hlength
  have hret := Prog.eq_ret hanswer
  have hreach := (reach_scheduled (List.replicate 6 .first) guestsStart).trans
    (reach_scheduled (List.replicate 5 .second ++ List.replicate 4 .reader) firstPublished)
  obtain ⟨filters, s, t, hf, hsnap, hnot, -⟩ := (serving_interleaved Library.ascii goldRoot guests
    unpublished unpublished_consistent _ hreach .reader [] rfl).2 items hret
  exact ⟨_, items, filters, s, t, hreach, hret, hitems, hf, hsnap, hnot⟩

end Stats

end Lakehouse

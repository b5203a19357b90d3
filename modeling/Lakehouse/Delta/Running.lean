import Lakehouse.Delta.Interleaving
/-!
# Appending alone

What `append_rows` does against a store that never fails on its own, while
nobody else writes: it creates the table (`run_appendRows_create`), merges
the rows whose keys are new (`run_appendRows_merge`), or refuses a batch
that contradicts a stored row and changes nothing
(`run_appendRows_conflict`).
-/

namespace Lakehouse

namespace Ingest

variable {F : Type} [PyFloat F] {E : Engine F} {w : World F} {uri : Text} {keyColumn : String}
  {columns : List String} {rows : List (Row F)} {schema : Option (List String)} {t : Table F}
  {older : List (Table F)} {source : ArrowTable F} {site : CheckSite}

theorem run_deltaTableExists (E : Engine F) (uri : Text) (w : World F) :
    (deltaTableExists uri).run E.handle w = (.ok (!(w.tables uri).isEmpty), w) := by
  rw [deltaTableExists, Prog.run_orElse, Prog.run_bind, Prog.run_op, Engine.handle]
  cases h : w.tables uri with
  | nil => simp
  | cons t older => simp

/-- **`read_identity_rows`** returns the rows under the keys, whichever way
it has to read them. -/
theorem run_readIdentityRows (keys : List Text) (hcolumns : columns ⊆ t.columns)
    (hkey : keyColumn ∈ columns) : ∃ existing,
      (readIdentityRows t columns keyColumn keys).run E.handle w = (.ok existing, w) ∧
        existing.Perm (t.read columns (some (.isIn keyColumn keys))) := by
  rw [readIdentityRows, Prog.run_orElse, Prog.run_op, Engine.handle]
  by_cases hf : E.refusesIn = true ∧ t.mergeWritten = true ∧
      (some (RowFilter.isIn keyColumn keys)).any (·.isMembership) = true
  · rw [if_pos hf]
    simp only [if_true]
    rw [Prog.run_bind_ok _ (E.run_readRows hcolumns)]
    exact ⟨_, rfl, perm_read_filter hkey (E.order_perm _)⟩
  · rw [if_neg hf, if_pos hcolumns]
    exact ⟨_, rfl, E.order_perm _⟩

/-- The replay guard over a keyed table. -/
theorem run_reject (ht : Keyed keyColumn columns t) (hb : Batch keyColumn columns rows schema)
    (site : CheckSite) :
    (Agrees keyColumn columns rows t ∧
        (rejectConflictingReplays site t rows keyColumn).run E.handle w = (.ok (), w)) ∨
      ¬Agrees keyColumn columns rows t ∧ ∃ keys,
        (rejectConflictingReplays site t rows keyColumn).run E.handle w =
          (.error (.reuseConflict keyColumn keys site), w) := by
  obtain ⟨existing, hread, hperm⟩ := run_readIdentityRows (E := E) (w := w)
    (rows.map fun r => (r.get keyColumn).str) ht.columns hb.key
  have hrun : (rejectConflictingReplays site t rows keyColumn).run E.handle w =
      (checkReplays site columns keyColumn rows existing, w) := by
    unfold rejectConflictingReplays
    rw [hb.guard, rowKeys_batch hb]
    simp only [Script.pure, Prog.lift_ok, Prog.ret_bind]
    rw [Prog.run_bind_ok _ hread, Prog.run_lift]
  rw [hrun]
  obtain ⟨ha, hc⟩ | ⟨ha, keys, hc⟩ := checkReplays_eq ht hb hperm site
  · exact Or.inl ⟨ha, by rw [hc]⟩
  · exact Or.inr ⟨ha, keys, by rw [hc]⟩

theorem run_reject_agrees (ht : Keyed keyColumn columns t)
    (hb : Batch keyColumn columns rows schema) (ha : Agrees keyColumn columns rows t) :
    (rejectConflictingReplays site t rows keyColumn).run E.handle w = (.ok (), w) :=
  (run_reject ht hb site).elim And.right fun h => absurd ha h.1

/-- What a batch inserts contradicts none of it. -/
theorem Agrees.mergeInsert (ht : Keyed keyColumn columns t)
    (hb : Batch keyColumn columns rows schema) (hs : Stored keyColumn columns rows source)
    (hrefl : ∀ r ∈ rows, ∀ c ∈ columns, (r.get c).eq (r.get c) = true)
    (ha : Agrees keyColumn columns rows t) :
    Agrees keyColumn columns rows (t.mergeInsert keyColumn t source.rows) := by
  intro r hr u hu hk c hc
  obtain hu | hu := List.mem_append.1 hu
  · exact ha r hr u hu hk c hc
  obtain ⟨v, hv, rfl⟩ := List.mem_map.1 hu
  obtain ⟨hv, -⟩ := List.mem_filter.1 hv
  rw [hs.rows] at hv
  obtain ⟨r', hr', rfl⟩ := List.mem_map.1 hv
  rw [Row.get_project_of_mem (ht.columns hb.key), hs.get hb.key] at hk
  obtain rfl := List.inj_on_of_nodup_map hb.nodup hr' hr hk
  rw [Row.get_project_of_mem (ht.columns hc), hs.get hc]
  exact hrefl r' hr c hc

section

variable {L : Library} {tableDescription : Option Text} {tableName : Text}
  (hb : Batch keyColumn columns rows schema) (huri : Uri.validateTableUri L uri = .ok ())
  (hsource : ArrowTable.fromPylist rows schema = .ok source)

include hb huri hsource

/-- The first write of a table. -/
theorem run_appendRows_create {description : Text}
    (hdescription : tableDescriptionOr tableDescription = .ok description)
    (hw : w.tables uri = []) :
    (appendRows L uri rows keyColumn tableDescription schema tableName).run E.handle w =
      (.ok ⟨0, rows.length, 0⟩, w.push uri (World.created source)) := by
  have hcreate : (Script.createTable uri tableName description source).run E.handle w =
      (.ok (), w.push uri (World.created source)) := by
    rw [Prog.run_op, Engine.handle, hw]
  have hopen : (Script.openTable uri).run E.handle (w.push uri (World.created source)) =
      (.ok (World.created source), w.push uri (World.created source)) :=
    E.run_openTable (World.push_tables_self _ _ _)
  unfold appendRows
  rw [if_neg (replayGuardColumns_eq_ok hb.guard).1, huri, hsource]
  simp only [Script.pure, Prog.lift_ok, Prog.ret_bind]
  rw [Prog.run_bind_ok _ (run_deltaTableExists E uri w), hw, createTable, hdescription]
  simp only [List.isEmpty_nil, Bool.not_true, Bool.false_eq_true, if_false, Script.pure,
    Prog.lift_ok, Prog.ret_bind]
  rw [Prog.run_bind_ok _ hcreate, Prog.run_bind_ok _ hopen]
  rfl

omit hb huri hsource in
/-- **An append that has created its table.** -/
theorem created_of_run {a : Appended} {w' : World F} (hw : w.tables uri = [])
    (h : (appendRows L uri rows keyColumn tableDescription schema tableName).run E.handle w =
      (.ok a, w')) :
    ∃ source, ArrowTable.fromPylist rows schema = .ok source ∧
      w' = w.push uri (World.created source) := by
  unfold appendRows at h
  split_ifs at h
  · cases h
  obtain ⟨-, -, h₁⟩ := Prog.run_lift_bind_eq_ok h
  obtain ⟨source, hsource, h₂⟩ := Prog.run_lift_bind_eq_ok h₁
  rw [Prog.run_bind_ok _ (run_deltaTableExists E uri w), hw] at h₂
  obtain ⟨description, -, h₃⟩ := Prog.run_lift_bind_eq_ok h₂
  obtain ⟨_, w₁, hcreate, h₄⟩ := Prog.run_bind_eq_ok _ h₃
  obtain ⟨table, w₂, hopen, h₅⟩ := Prog.run_bind_eq_ok _ h₄
  have hw₂ : w₂ = w₁ := (E.succeeds_of_run hopen).read rfl
  have hw' : w₂ = w' := congrArg Prod.snd h₅
  refine ⟨source, hsource, ?_⟩
  rw [← hw', hw₂]
  cases E.succeeds_of_run hcreate with
  | createTable _ => rfl

variable (ht : w.tables uri = t :: older) (hkeyed : Keyed keyColumn columns t)
  (happend : t.appendOnly = true)

include ht hkeyed happend

omit hkeyed in
/-- What an append to a table is, up to its guard. -/
theorem run_appendRows_attempt :
    (appendRows L uri rows keyColumn tableDescription schema tableName).run E.handle w =
      ((rejectConflictingReplays .beforeMerge t rows keyColumn >>= fun _ =>
        (mergeOnce uri source rows keyColumn t).orElse fun e =>
          if e = .commitFailed ∧ 2 ≠ 0 then mergeAttempts uri source rows keyColumn 2
          else .raise e).run E.handle w) := by
  unfold appendRows
  rw [if_neg (replayGuardColumns_eq_ok hb.guard).1, huri, hsource]
  simp only [Script.pure, Prog.lift_ok, Prog.ret_bind]
  rw [Prog.run_bind_ok _ (run_deltaTableExists E uri w), ht]
  simp only [List.isEmpty_cons, Bool.not_false, if_true]
  rw [maxCommitAttempts, mergeAttempts, Prog.run_bind_ok _ (E.run_openTable ht),
    if_neg (by simp [happend])]

/-- A batch that contradicts a stored row is refused. -/
theorem run_appendRows_conflict (ha : ¬Agrees keyColumn columns rows t) : ∃ keys,
    (appendRows L uri rows keyColumn tableDescription schema tableName).run E.handle w =
      (.error (.reuseConflict keyColumn keys .beforeMerge), w) := by
  rw [run_appendRows_attempt hb huri hsource ht happend]
  obtain ⟨h, -⟩ | ⟨-, keys, hrun⟩ := run_reject (E := E) (w := w) hkeyed hb .beforeMerge
  · exact absurd h ha
  · exact ⟨keys, Prog.run_bind_error _ hrun⟩

/-- **A batch that contradicts nothing is merged.** -/
theorem run_appendRows_merge (ha : Agrees keyColumn columns rows t)
    (hrefl : ∀ r ∈ rows, ∀ c ∈ columns, (r.get c).eq (r.get c) = true)
    (hextra : E.refusesExtra = true → source.columns ⊆ t.columns) :
    ∃ version, (appendRows L uri rows keyColumn tableDescription schema tableName).run E.handle w =
      (.ok ⟨version, (Table.unmatched keyColumn t source.rows).length,
        rows.length - (Table.unmatched keyColumn t source.rows).length⟩,
        E.merged w uri t t keyColumn source) := by
  have hs := hb.stored hsource
  have hmerge : (Script.mergeInsert uri t keyColumn source).run E.handle w =
      (.ok (Table.unmatched keyColumn t source.rows).length, E.merged w uri t t keyColumn source) := by
    rw [Prog.run_op, Engine.handle, ht]
    simp only
    rw [if_neg fun h => h.2 (hextra h.1), if_pos trivial]
  -- the table the merge leaves, whether or not it made a version
  obtain ⟨t', older', ht', hkeyed', ha'⟩ : ∃ t' older',
      (E.merged w uri t t keyColumn source).tables uri = t' :: older' ∧
      Keyed keyColumn columns t' ∧ Agrees keyColumn columns rows t' := by
    rw [Engine.merged]
    split_ifs
    · exact ⟨t, older, ht, hkeyed, ha⟩
    · exact ⟨_, _, World.push_tables_self _ _ _, hkeyed.mergeInsert hb hs,
        ha.mergeInsert hkeyed hb hs hrefl⟩
  rw [run_appendRows_attempt hb huri hsource ht happend,
    Prog.run_bind_ok _ (run_reject_agrees hkeyed hb ha), Prog.run_orElse, mergeOnce,
    Prog.run_bind_ok _ hmerge, Prog.run_bind_ok _ (E.run_openTable ht'),
    Prog.run_bind_ok _ (run_reject_agrees hkeyed' hb ha')]
  exact ⟨t'.version, rfl⟩

end

end Ingest

end Lakehouse

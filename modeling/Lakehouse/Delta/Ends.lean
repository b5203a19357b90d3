import Lakehouse.Delta.History
import Lakehouse.Delta.Writes
/-!
# Where an append alone may end

While nobody else writes, `append_rows` merges its batch over the version it
read, creates the table with the batch, or leaves the tables as they are,
whatever the store's calls answer (`ends_appendRows`).
-/

namespace Lakehouse

/-- A run against a deterministic store is one against any. -/
theorem Engine.ends_of_run {F : Type} [PyFloat F] (E : Engine F) {α : Type} {p : Script F α}
    {w w' : World F} {x : Except PyError α} (h : p.run E.handle w = (x, w')) :
    p.Ends World.Performs w x w' := by
  refine (Prog.ends_handler.2 h).mono fun o s r t ho => ?_
  have hp := E.performs_handle o s
  rwa [ho] at hp

namespace Ingest

variable {F : Type} [PyFloat F]

/-- **How an append may end**: what it reports where it returns, and what
it leaves. -/
inductive AppendEnds (L : Library) (uri : Text) (rows : List (Row F)) (keyColumn : String)
    (schema : Option (List String)) (w : World F) : Except PyError Appended → World F → Prop
  /-- It raised before any of its writes. -/
  | raised {e : PyError} : AppendEnds L uri rows keyColumn schema w (.error e) w
  | created {x : Except PyError Appended} {source : ArrowTable F} :
      Uri.validateTableUri L uri = .ok () → rows ≠ [] →
      ArrowTable.fromPylist rows schema = .ok source → w.tables uri = [] →
      (∀ a, x = .ok a → a.written = rows.length) →
      AppendEnds L uri rows keyColumn schema w x (w.push uri (World.created source))
  | merged {x : Except PyError Appended} {source : ArrowTable F} {t : Table F}
      {older : List (Table F)} :
      ArrowTable.fromPylist rows schema = .ok source → w.tables uri = t :: older →
      (∀ a, x = .ok a → a.written = (Table.unmatched keyColumn t source.rows).length) →
      AppendEnds L uri rows keyColumn schema w x (w.push uri (t.mergeInsert keyColumn t source.rows))
  /-- Every row of the batch was there, and no version was made. -/
  | present {x : Except PyError Appended} {source : ArrowTable F} {t : Table F}
      {older : List (Table F)} :
      ArrowTable.fromPylist rows schema = .ok source → w.tables uri = t :: older →
      Table.unmatched keyColumn t source.rows = [] → (∀ a, x = .ok a → a.written = 0) →
      AppendEnds L uri rows keyColumn schema w x w

variable {L : Library} {uri : Text} {rows : List (Row F)} {keyColumn : String}
  {schema : Option (List String)} {source : ArrowTable F} {w w' : World F}

/-- A call that only reads, where it ends. -/
theorem ends_read {α : Type} {o : Op F} {f : o.Res → Script F α} {x : Except PyError α}
    (ho : o.isRead = true) (h : (Prog.op o >>= f).Ends World.Performs w x w') :
    (∃ a, World.Succeeds o w a w ∧ (f a).Ends World.Performs w x w') ∨
      ∃ e, x = .error e ∧ e.isForeign = true ∧ e ≠ .commitFailed ∧ w' = w := by
  obtain ⟨a, w₁, hop, hf⟩ | ⟨e, rfl, hop⟩ := Prog.ends_bind h
  · obtain ⟨rfl, hs⟩ := (Prog.ends_op.1 hop).read ho
    exact Or.inl ⟨a, hs, hf⟩
  · obtain ⟨rfl, hf, hne⟩ := (Prog.ends_op.1 hop).read ho
    exact Or.inr ⟨e, rfl, hf, hne, rfl⟩

/-- The replay guard reads, and raises no commit failure. -/
theorem obeys_rejectConflictingReplays (site : CheckSite) (table : Table F) :
    (rejectConflictingReplays site table rows keyColumn).Obeys World.Performs (fun s t => s = t)
      (fun _ => True) (· ≠ .commitFailed) := by
  have hread : ∀ columns filter, (Script.readRows table columns filter).Obeys World.Performs
      (fun s t => s = t) (fun _ => True) (· ≠ .commitFailed) := by
    intro columns filter
    refine Prog.Obeys.op fun s r t h => ?_
    obtain ⟨rfl, hr⟩ := h.read rfl
    refine ⟨rfl, fun _ _ => trivial, fun e he => ?_⟩
    subst he
    exact hr.2
  have hcolumns : ∀ e, replayGuardColumns rows = .error e → e ≠ .commitFailed := by
    unfold replayGuardColumns
    split
    · rintro _ ⟨⟩
      nofun
    · split_ifs
      · nofun
      · rintro _ ⟨⟩
        nofun
  have hkeys : ∀ e, rowKeys keyColumn rows = .error e → e ≠ .commitFailed := by
    unfold rowKeys
    split_ifs
    · nofun
    · rintro _ ⟨⟩
      nofun
  refine .bind (.lift (fun columns _ => .bind (.lift (fun keys _ => .bind ?_) hkeys)) hcolumns)
  have hcheck : ∀ existing : List (Row F),
      (Script.pure (checkReplays site columns keyColumn rows existing) : Script F Unit).Obeys
        World.Performs (fun s t => s = t) (fun _ => True) (· ≠ .commitFailed) := by
    intro existing
    refine .lift (fun _ _ => trivial) ?_
    unfold checkReplays
    split_ifs
    · rintro _ ⟨⟩
      nofun
    · nofun
    · rintro _ ⟨⟩
      nofun
  refine .orElse (.mono (fun _ _ => id) (fun _ _ => hcheck _) (fun e he => ?_) (hread _ _))
  split_ifs
  · exact .bind (.mono (fun _ _ => id) (fun _ _ => hcheck _) (fun _ => id) (hread _ _))
  · exact he

/-- The replay check reads, and leaves the world as it was. -/
theorem ends_rejectConflictingReplays {site : CheckSite} {table : Table F}
    {x : Except PyError Unit}
    (h : (rejectConflictingReplays site table rows keyColumn).Ends World.Performs w x w') :
    w' = w ∧ ∀ e, x = .error e → e ≠ .commitFailed :=
  ⟨(Prog.Obeys.ends (fun _ => rfl) Eq.trans (obeys_rejectConflictingReplays site table) h).symm,
    Prog.Obeys.ends_error (obeys_rejectConflictingReplays site table) h⟩

/-- **One attempt**: it lost its race and did nothing, or ends the append. -/
theorem ends_mergeOnce {t : Table F} {older : List (Table F)} {x : Except PyError Appended}
    (hsource : ArrowTable.fromPylist rows schema = .ok source) (ht : w.tables uri = t :: older)
    (h : (mergeOnce uri source rows keyColumn t).Ends World.Performs w x w') :
    (x = .error .commitFailed ∧ w' = w) ∨
      x ≠ .error .commitFailed ∧ AppendEnds L uri rows keyColumn schema w x w' := by
  have hmerged : ∀ {n w₁}, World.Succeeds (.mergeInsert uri t keyColumn source) w n w₁ →
      (∀ a, x = .ok a → a.written = n) → AppendEnds L uri rows keyColumn schema w x w₁ := by
    intro n w₁ hs hn
    cases hs with
    | mergeInsert ht' _ =>
      rw [ht] at ht'
      cases ht'
      exact .merged hsource ht hn
    | mergeNothing _ _ hnone => exact .present hsource ht hnone hn
  obtain ⟨n, w₁, hmerge, hrest⟩ | ⟨e, rfl, hmerge⟩ := Prog.ends_bind h
  · -- The merge returned: what follows only reads.
    have hread : w' = w₁ ∧ x ≠ .error .commitFailed ∧ ∀ a, x = .ok a → a.written = n := by
      obtain ⟨retained, -, hcheck⟩ | ⟨e, rfl, -, hne, rfl⟩ := ends_read rfl hrest
      · obtain ⟨_, w₂, hreject, hret⟩ | ⟨e, rfl, hreject⟩ := Prog.ends_bind hcheck
        · obtain ⟨rfl, -⟩ := ends_rejectConflictingReplays hreject
          obtain ⟨rfl, rfl⟩ := Prog.ends_ret.1 hret
          exact ⟨rfl, nofun, fun a ha => by rw [← Except.ok.inj ha]⟩
        · obtain ⟨rfl, hne⟩ := ends_rejectConflictingReplays hreject
          exact ⟨rfl, fun he => hne e rfl (Except.error.inj he), nofun⟩
      · exact ⟨rfl, fun he => hne (Except.error.inj he), nofun⟩
    obtain ⟨rfl, hx, hn⟩ := hread
    refine Or.inr ⟨hx, ?_⟩
    exact hmerged (Prog.ends_op.1 hmerge).ok hn
  · obtain rfl | ⟨hne, n, hs⟩ := (Prog.ends_op.1 hmerge).error
    · by_cases he : e = .commitFailed
      · exact Or.inl ⟨by rw [he], rfl⟩
      · exact Or.inr ⟨fun h => he (Except.error.inj h), .raised⟩
    · exact Or.inr ⟨fun h => hne (Except.error.inj h), hmerged hs nofun⟩

/-- The retry loop, by induction on the attempts left: a retry starts where
the first attempt did. -/
theorem ends_mergeAttempts {x : Except PyError Appended} {attempts : ℕ}
    (hsource : ArrowTable.fromPylist rows schema = .ok source)
    (h : (mergeAttempts uri source rows keyColumn attempts).Ends World.Performs w x w') :
    AppendEnds L uri rows keyColumn schema w x w' := by
  induction attempts with
  | zero =>
    obtain ⟨rfl, rfl⟩ := Prog.ends_raise.1 h
    exact .raised
  | succ attempts ih =>
    obtain ⟨table, hopen, hrest⟩ | ⟨e, rfl, -, -, rfl⟩ := ends_read rfl h
    · split_ifs at hrest
      · obtain ⟨rfl, rfl⟩ := Prog.ends_raise.1 hrest
        exact .raised
      obtain ⟨_, w₁, hreject, hmerge⟩ | ⟨e, rfl, hreject⟩ := Prog.ends_bind hrest
      · obtain ⟨rfl, -⟩ := ends_rejectConflictingReplays hreject
        cases hopen with
        | openTable ht =>
          obtain ⟨a, rfl, honce⟩ | ⟨e, w₂, honce, hhandler⟩ := Prog.ends_orElse hmerge
          · obtain ⟨⟨⟩, -⟩ | ⟨-, hend⟩ := ends_mergeOnce (L := L) hsource ht honce
            exact hend
          · obtain ⟨he, rfl⟩ | ⟨hne, hend⟩ := ends_mergeOnce (L := L) hsource ht honce
            · split_ifs at hhandler
              · exact ih hhandler
              · obtain ⟨rfl, rfl⟩ := Prog.ends_raise.1 hhandler
                exact .raised
            · rw [if_neg fun h => hne (by rw [h.1])] at hhandler
              obtain ⟨rfl, rfl⟩ := Prog.ends_raise.1 hhandler
              exact hend
      · obtain ⟨rfl, -⟩ := ends_rejectConflictingReplays hreject
        exact .raised
    · exact .raised

/-- Whether a table is there is read only. -/
theorem ends_deltaTableExists {x : Except PyError Bool}
    (h : (deltaTableExists uri).Ends World.Performs w x w') : w' = w := by
  have hreads : Only (fun s t : World F => s = t) (deltaTableExists uri : Script F Bool) := by
    refine .orElse (.bind (.read (fun _ => rfl) rfl) fun _ => trivial) fun e => ?_
    split_ifs <;> trivial
  exact (Prog.Obeys.ends (fun _ => rfl) Eq.trans hreads h).symm

/-- **Where an append alone may end.** -/
theorem ends_appendRows {tableDescription : Option Text} {tableName : Text}
    {x : Except PyError Appended}
    (h : (appendRows L uri rows keyColumn tableDescription schema tableName).Ends
      World.Performs w x w') : AppendEnds L uri rows keyColumn schema w x w' := by
  unfold appendRows at h
  split_ifs at h with hempty
  · obtain ⟨rfl, rfl⟩ := Prog.ends_raise.1 h
    exact .raised
  obtain ⟨⟨⟩, huri, h₁⟩ | ⟨e, -, rfl, rfl⟩ := Prog.ends_lift_bind h
  · obtain ⟨source, hsource, h₂⟩ | ⟨e, -, rfl, rfl⟩ := Prog.ends_lift_bind h₁
    · obtain ⟨isThere, w₁, hthere, h₃⟩ | ⟨e, rfl, hthere⟩ := Prog.ends_bind h₂
      · obtain rfl := ends_deltaTableExists hthere
        split_ifs at h₃
        · exact ends_mergeAttempts hsource h₃
        obtain ⟨description, -, h₄⟩ | ⟨e, -, rfl, rfl⟩ := Prog.ends_lift_bind h₃
        · obtain ⟨_, w₂, hcreate, h₅⟩ | ⟨e, rfl, hcreate⟩ := Prog.ends_bind h₄
          · cases (Prog.ends_op.1 hcreate).ok with
            | createTable ht =>
              obtain ⟨table, -, h₆⟩ | ⟨e, rfl, -, -, rfl⟩ := ends_read rfl h₅
              · obtain ⟨rfl, rfl⟩ := Prog.ends_ret.1 h₆
                exact .created huri hempty hsource ht fun a ha => by rw [← Except.ok.inj ha]
              · exact .created huri hempty hsource ht nofun
          · obtain rfl | ⟨-, _, hs⟩ := (Prog.ends_op.1 hcreate).error
            · exact .raised
            · cases hs with
              | createTable ht => exact .created huri hempty hsource ht nofun
        · exact .raised
      · obtain rfl := ends_deltaTableExists hthere
        exact .raised
    · exact .raised
  · exact .raised

/-- A table that an append has written has a valid URI. -/
theorem AppendEnds.valid {x : Except PyError Appended}
    (hvalid : w.tables uri ≠ [] → Uri.validateTableUri L uri = .ok ())
    (h : AppendEnds L uri rows keyColumn schema w x w') :
    w'.tables uri ≠ [] → Uri.validateTableUri L uri = .ok () := by
  cases h with
  | raised => exact hvalid
  | created huri _ _ _ _ => exact fun _ => huri
  | merged _ ht _ => exact fun _ => hvalid (by rw [ht]; exact List.cons_ne_nil _ _)
  | present _ _ _ _ => exact hvalid

/-! ## What an append keeps of a column -/

/-- The newest version of a table has a column, with a value of a kind in
every row. -/
def HasColumn (P : Cell F → Prop) (column : String) (uri : Text) (w : World F) : Prop :=
  ∀ t ∈ (w.tables uri).head?, column ∈ t.columns ∧ ∀ u ∈ t.rows, P (u.get column)

section

variable {P : Cell F → Prop} {column : String} (hne : ∀ c, P c → c ≠ .null)
  (hP : ∀ r ∈ rows, P (r.get column))

include hne hP

omit [PyFloat F] in
/-- The rows of a batch keep a column they all have. -/
theorem get_source (hsource : ArrowTable.fromPylist rows none = .ok source) {r : Row F}
    (hr : r ∈ rows) :
    column ∈ source.columns ∧ (r.project source.columns).get column = r.get column := by
  have hc : column ∈ source.columns := by
    unfold ArrowTable.fromPylist at hsource
    simp only at hsource
    split_ifs at hsource
    cases hsource
    cases rows with
    | nil => cases hr
    | cons first rows => exact Row.mem_columns_of_get (hne _ (hP first List.mem_cons_self))
  exact ⟨hc, Row.get_project_of_mem hc⟩

omit [PyFloat F] in
/-- What holds of a column of every row holds of the stored ones. -/
theorem forall_source (hsource : ArrowTable.fromPylist rows none = .ok source) :
    ∀ r ∈ source.rows, P (r.get column) := by
  intro r hr
  rw [fromPylist_rows hsource] at hr
  obtain ⟨r', hr', rfl⟩ := List.mem_map.1 hr
  rw [(get_source hne hP hsource hr').2]
  exact hP r' hr'

/-- **An append keeps the kind of a column** that its rows have. -/
theorem AppendEnds.hasColumn {x : Except PyError Appended} (hcolumn : HasColumn P column uri w)
    (h : AppendEnds L uri rows keyColumn none w x w') : HasColumn P column uri w' := by
  cases h with
  | raised => exact hcolumn
  | @created _ source _ hempty hsource _ _ =>
    rw [HasColumn, World.push_tables_self]
    simp only [List.head?_cons, Option.mem_some_iff, forall_eq']
    obtain ⟨r, hr⟩ := List.exists_mem_of_ne_nil _ hempty
    exact ⟨(get_source hne hP hsource hr).1, forall_source hne hP hsource⟩
  | @merged _ source t older hsource ht _ =>
    obtain ⟨hc, hrows⟩ := hcolumn t (by rw [ht]; rfl)
    rw [HasColumn, World.push_tables_self]
    simp only [List.head?_cons, Option.mem_some_iff, forall_eq']
    refine ⟨hc, fun u hu => ?_⟩
    obtain hu | hu := List.mem_append.1 hu
    · exact hrows u hu
    · obtain ⟨r, hr, rfl⟩ := List.mem_map.1 hu
      rw [Row.get_project_of_mem hc]
      exact forall_source hne hP hsource r (List.mem_filter.1 hr).1
  | present _ _ _ _ => exact hcolumn

end

/-! ## The keys an append adds -/

/-- A value of a key column: a text. -/
def IsText (c : Cell F) : Prop := ∃ s, c = .text s

omit [PyFloat F] in
/-- A text is not null. -/
theorem IsText.ne_null (c : Cell F) (h : IsText c) : c ≠ .null := by
  obtain ⟨s, rfl⟩ := h
  nofun

/-- The keys of some rows, as texts. -/
def keyTexts (keyColumn : String) (rows : List (Row F)) : List Text :=
  rows.map fun r => (r.get keyColumn).str

/-- The keys of a batch that a table does not hold. -/
def newKeys (keyColumn : String) (uri : Text) (w : World F) (rows : List (Row F)) : List Text :=
  (keyTexts keyColumn rows).filter (· ∉ keyTexts keyColumn (storedRows uri w))

/-- New keys are pairwise distinct as they are among the old ones. -/
theorem nodup_append_newKeys :
    (keyTexts keyColumn (storedRows uri w) ++ newKeys keyColumn uri w rows).Nodup ↔
      (keyTexts keyColumn (storedRows uri w)).Nodup ∧ (newKeys keyColumn uri w rows).Nodup := by
  rw [List.nodup_append']
  refine and_congr_right fun _ => and_iff_left fun k hk hk' => ?_
  exact of_decide_eq_true (List.mem_filter.1 hk').2 hk

omit [PyFloat F] in
/-- The stored rows are those of the newest version. -/
theorem storedRows_of_tables {t : Table F} {older : List (Table F)}
    (ht : w.tables uri = t :: older) : storedRows uri w = t.rows := by
  rw [storedRows, ht]
  rfl

variable (htext : ∀ r ∈ rows, IsText (r.get keyColumn))

section

variable (hsource : ArrowTable.fromPylist rows none = .ok source)

include htext hsource

/-- A stored table has the keys of its rows. -/
theorem keyTexts_source : keyTexts keyColumn source.rows = keyTexts keyColumn rows := by
  rw [keyTexts, fromPylist_rows hsource, List.map_map]
  exact List.map_congr_left fun r hr => congrArg Cell.str (get_source IsText.ne_null htext hsource hr).2

/-- The keys a merge inserts. -/
theorem keyTexts_unmatched {t : Table F} {older : List (Table F)} (ht : w.tables uri = t :: older)
    (hstored : ∀ u ∈ t.rows, IsText (u.get keyColumn)) :
    keyTexts keyColumn (Table.unmatched keyColumn t source.rows) =
      newKeys keyColumn uri w rows := by
  have hfilter : Table.unmatched keyColumn t source.rows =
      source.rows.filter fun r => (r.get keyColumn).str ∉ keyTexts keyColumn t.rows := by
    refine List.filter_congr fun r hr => ?_
    have htr := forall_source IsText.ne_null htext hsource r hr
    have hmem : r ∈ Table.unmatched keyColumn t source.rows ↔
        (r.get keyColumn).str ∉ keyTexts keyColumn t.rows := by
      rw [mem_unmatched hstored htr, and_iff_right hr, keyTexts, List.mem_map, List.mem_map]
      refine not_congr (exists_congr fun u => and_congr_right fun hu => ?_)
      exact (str_inj_text (hstored u hu) htr).symm
    rw [Bool.eq_iff_iff, decide_eq_true_eq, ← hmem, Table.unmatched, List.mem_filter,
      and_iff_right hr]
  rw [newKeys, ← keyTexts_source htext hsource, storedRows_of_tables ht, hfilter]
  exact (List.filter_map (f := fun r : Row F => (r.get keyColumn).str)
    (p := fun k => decide (k ∉ keyTexts keyColumn t.rows))).symm

end

include htext in
/-- **An append adds the keys of its batch that are new**, each as often as
the batch has it, unless it raises and changes nothing. -/
theorem AppendEnds.keyTexts {x : Except PyError Appended}
    (hkeys : HasColumn IsText keyColumn uri w)
    (h : AppendEnds L uri rows keyColumn none w x w') :
    (∃ e, x = .error e) ∧ w' = w ∨
      keyTexts keyColumn (storedRows uri w') =
        keyTexts keyColumn (storedRows uri w) ++ newKeys keyColumn uri w rows := by
  cases h with
  | raised => exact Or.inl ⟨⟨_, rfl⟩, rfl⟩
  | @created _ source _ hne hsource ht _ =>
    right
    have hnil : storedRows uri w = [] := by
      rw [storedRows, ht]
      rfl
    rw [storedRows_of_tables (World.push_tables_self ..), newKeys, hnil]
    simpa [World.created, Ingest.keyTexts] using keyTexts_source htext hsource
  | @merged _ source t older hsource ht _ =>
    obtain ⟨hcolumn, htexts⟩ := hkeys t (by rw [ht]; rfl)
    right
    rw [storedRows_of_tables (World.push_tables_self ..), storedRows_of_tables ht,
      ← keyTexts_unmatched htext hsource ht htexts, Table.mergeInsert, Ingest.keyTexts,
      List.map_append, List.map_map]
    refine congrArg _ (List.map_congr_left fun r _ => congrArg Cell.str ?_)
    exact Row.get_project_of_mem hcolumn
  | @present _ source t older hsource ht hnone _ =>
    obtain ⟨-, htexts⟩ := hkeys t (by rw [ht]; rfl)
    right
    rw [← keyTexts_unmatched htext hsource ht htexts, hnone]
    exact (List.append_nil _).symm

/-- **An append that returns reports the rows it added**, and keeps the
others. -/
theorem AppendEnds.written {a : Appended} (h : AppendEnds L uri rows keyColumn schema w (.ok a) w') :
    storedRows uri w <+: storedRows uri w' ∧
      (storedRows uri w').length = (storedRows uri w).length + a.written := by
  cases h with
  | @created _ source _ _ hsource ht hn =>
    simp [storedRows, ht, hn a rfl, World.created, fromPylist_rows hsource]
  | merged _ ht hn => simp [storedRows, ht, hn a rfl, Table.mergeInsert]
  | present _ _ _ hn => simp [hn a rfl]

end Ingest

end Lakehouse

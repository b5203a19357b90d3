import Lakehouse.Delta.ReplayGuard
import Lakehouse.Common.Decimal
/-!
# Appending among other writers

Between any two calls of `append_rows` other writers may add versions to
the table, so long as they keep its lineage. `meets_appendRows` is the
contract of one call in any such setting: its own transitions only grow
this one table, it returns only where every row of its batch is held, what
it reports as written is what its own transitions inserted, and a conflict
found before the merge leaves its transitions empty.
-/

namespace Lakehouse

namespace Ingest

variable {F : Type} [PyFloat F]

/-- **A transition of an append**: one table's history grows. -/
structure TableMove (uri : Text) (keyColumn : String) (columns : List String)
    (s t : World F) : Prop where
  frame : t = { s with tables := Function.update s.tables uri (t.tables uri) }
  grows : Grows keyColumn columns (s.tables uri) (t.tables uri)

/-- The number of rows a table holds. -/
def rowCount (uri : Text) (w : World F) : ℕ := ((w.tables uri).head?.map (·.rows.length)).getD 0

/-- The rows a trail inserted into a table. -/
def inserted (uri : Text) (own : Trail (World F)) : ℕ :=
  (own.map fun m => rowCount uri m.2 - rowCount uri m.1).sum

/-- A trail that left a table as it found it. -/
def Still (uri : Text) (own : Trail (World F)) : Prop := ∀ m ∈ own, m.1.tables uri = m.2.tables uri

/-- **The setting an append is run in**: the calls are the store's, the
other parties grow the table, and the guarantee and the crash condition
allow what an append does. -/
structure Hosts (S : Setting (Op F) Op.Res PyError (World F)) (G : World F → World F → Prop)
    (C : Trail (World F) → World F → Prop) (uri : Text) (keyColumn : String)
    (columns : List String) : Prop where
  sem : ∀ {o s r t}, S.sem o s r t → World.Performs o s r t
  rely : ∀ {s t}, S.rely s t → Grows keyColumn columns (s.tables uri) (t.tables uri)
  guarantee : ∀ {s t}, TableMove uri keyColumn columns s t → G s t
  crash_rely : ∀ {own s t}, C own s → S.rely s t → C own t
  crash_move : ∀ {own s t}, C own s → TableMove uri keyColumn columns s t → C (own ++ [(s, t)]) t

variable {uri : Text} {keyColumn : String} {columns : List String}

omit [PyFloat F] in
/-- A step that does nothing is admitted. -/
theorem TableMove.refl (s : World F) : TableMove uri keyColumn columns s s :=
  ⟨by rw [Function.update_eq_self], Grows.refl _⟩

omit [PyFloat F] in
/-- What a further step inserts is counted. -/
@[simp] theorem inserted_append (own : Trail (World F)) (s t : World F) :
    inserted uri (own ++ [(s, t)]) = inserted uri own + (rowCount uri t - rowCount uri s) := by
  simp [inserted]

omit [PyFloat F] in
/-- A step that leaves the table keeps it still. -/
theorem Still.append {own : Trail (World F)} {s t : World F} (h : Still uri own)
    (hst : s.tables uri = t.tables uri) : Still uri (own ++ [(s, t)]) := by
  intro m hm
  obtain hm | hm := List.mem_append.1 hm
  · exact h m hm
  · obtain rfl := List.mem_singleton.1 hm
    exact hst

/-- **The state between two calls of an append**: the table has a lineage,
the crash condition holds, and nothing was inserted so far beyond `base`. -/
structure Between (C : Trail (World F) → World F → Prop) (uri : Text) (keyColumn : String)
    (columns : List String) (base : ℕ) (own : Trail (World F)) (s : World F) : Prop where
  lineage : Lineage keyColumn columns (s.tables uri)
  crash : C own s
  count : inserted uri own = base

section

variable {S : Setting (Op F) Op.Res PyError (World F)} {G : World F → World F → Prop}
  {C : Trail (World F) → World F → Prop} {α : Type} {Q : α → Trail (World F) → World F → Prop}
  {E : PyError → Trail (World F) → World F → Prop}
  (H : Hosts S G C uri keyColumn columns)
  {base : ℕ} {own : Trail (World F)} {s t : World F}

include H

/-- Other clients' steps keep what holds between the client's own. -/
theorem Between.rely (hb : Between C uri keyColumn columns base own s) (hst : S.rely s t) :
    Between C uri keyColumn columns base own t :=
  ⟨(H.rely hst).lineage hb.lineage, H.crash_rely hb.crash hst, hb.count⟩

/-- A call that changes nothing. -/
theorem Between.still (hb : Between C uri keyColumn columns base own s) :
    Between C uri keyColumn columns base (own ++ [(s, s)]) s :=
  ⟨hb.lineage, H.crash_move hb.crash (.refl s), by simp [hb.count]⟩

/-- **A call that only reads**, and what follows it. -/
theorem meets_read {o : Op F} {f : o.Res → Script F α} (ho : o.isRead = true)
    (hb : Between C uri keyColumn columns base own s)
    (hok : ∀ t a, S.rely s t → World.Succeeds o t a t →
      Between C uri keyColumn columns base (own ++ [(t, t)]) t →
      (f a).Meets S G C Q E (own ++ [(t, t)]) t)
    (herr : ∀ t e, S.rely s t → e.isForeign = true → e ≠ .commitFailed →
      Between C uri keyColumn columns base (own ++ [(t, t)]) t →
      (Prog.raise e : Script F α).Meets S G C Q E (own ++ [(t, t)]) t) :
    (Prog.op o >>= f).Meets S G C Q E own s := by
  refine Prog.Meets.op_bind (fun t ht => H.crash_rely hb.crash ht) fun t ht r u hu => ?_
  obtain ⟨rfl, hr⟩ := (H.sem hu).read ho
  have hbt := (hb.rely H ht).still H
  refine ⟨H.guarantee (.refl u), ?_⟩
  cases r with
  | ok a => exact hok u a ht hr hbt
  | error e => exact herr u e ht hr.1 hr.2 hbt

variable {rows : List (Row F)} {schema : Option (List String)} {source : ArrowTable F}

omit H in
/-- The rows an unfiltered read leaves are those a filtered one returns. -/
theorem perm_read_filter {snapshot : Table F} {keys : List Text} {existing : List (Row F)}
    (hkey : keyColumn ∈ columns) (h : existing.Perm (snapshot.read columns none)) :
    (existing.filter fun r => decide ((r.get keyColumn).str ∈ keys)).Perm
      (snapshot.read columns (some (.isIn keyColumn keys))) := by
  refine (h.filter _).trans (.of_eq ?_)
  have hnone : snapshot.read columns none = snapshot.rows.map (Row.project columns) := by
    simp [Table.read]
  rw [hnone, List.filter_map, Table.read]
  congr 2
  funext r
  rw [Function.comp_apply, Row.get_project_of_mem hkey, Option.all_some, RowFilter.admits]

/-- **`read_identity_rows`** reads the rows of a filtered read, by one call
or two. -/
theorem meets_readIdentityRows {snapshot : Table F} {keys : List Text}
    {f : List (Row F) → Script F α} (hkey : keyColumn ∈ columns)
    (hb : Between C uri keyColumn columns base own s)
    (hok : ∀ own' t existing, S.rely s t →
      existing.Perm (snapshot.read columns (some (.isIn keyColumn keys))) →
      Between C uri keyColumn columns base own' t → (Still uri own → Still uri own') →
      (f existing).Meets S G C Q E own' t)
    (herr : ∀ own' t e, S.rely s t → e.isForeign = true → e ≠ .commitFailed →
      Between C uri keyColumn columns base own' t → (Still uri own → Still uri own') →
      (Prog.raise e : Script F α).Meets S G C Q E own' t) :
    (readIdentityRows snapshot columns keyColumn keys >>= f).Meets S G C Q E own s := by
  refine Prog.Meets.bind (Prog.Meets.orElse fun t ht =>
    ⟨H.crash_rely hb.crash ht, fun r u hu => ?_⟩)
  obtain ⟨rfl, hr⟩ := (H.sem hu).read rfl
  have hbt := (hb.rely H ht).still H
  refine ⟨H.guarantee (.refl u), ?_⟩
  cases r with
  | ok existing =>
    cases hr with
    | readRows _ hperm =>
      refine Prog.Meets.ret_of (fun v hv => H.crash_rely hbt.crash hv) fun v hv => ?_
      exact hok _ v existing (S.rely_trans ht hv) hperm (hbt.rely H hv) fun h => h.append rfl
  | error e =>
    refine Prog.Meets.raise_of (fun v hv => H.crash_rely hbt.crash hv) fun v hv => ?_
    have hbv := hbt.rely H hv
    have htv := S.rely_trans ht hv
    have hraise : ∀ own' x e', S.rely s x → e'.isForeign = true → e' ≠ .commitFailed →
        Between C uri keyColumn columns base own' x → (Still uri own → Still uri own') →
        (Prog.raise e' : Script F (List (Row F))).Meets S G C
          (fun a own t => (f a).Meets S G C Q E own t) E own' x := by
      intro own' x e' hx hf hne hbx hstill
      refine Prog.Meets.raise_of (fun y hy => H.crash_rely hbx.crash hy) fun y hy => ?_
      exact (herr own' y e' (S.rely_trans hx hy) hf hne (hbx.rely H hy) hstill).raise_here
    split_ifs
    · refine meets_read H rfl hbv (fun x all hx hread hbx => ?_) fun x e' hx hf hne hbx =>
        hraise _ x e' (S.rely_trans htv hx) hf hne hbx fun h => (h.append rfl).append rfl
      cases hread with
      | readRows _ hperm =>
        refine Prog.Meets.ret_of (fun y hy => H.crash_rely hbx.crash hy) fun y hy => ?_
        exact hok _ y _ (S.rely_trans (S.rely_trans htv hx) hy) (perm_read_filter hkey hperm)
          (hbx.rely H hy) fun h => (h.append rfl).append rfl
    · exact hraise _ v e htv hr.1 hr.2 hbv fun h => h.append rfl

/-- **The replay guard**, over a snapshot the table once had. -/
theorem meets_reject {site : CheckSite} {snapshot : Table F} {f : Unit → Script F α}
    (hrows : Batch keyColumn columns rows schema)
    (hsnap : Keyed keyColumn columns snapshot)
    (hb : Between C uri keyColumn columns base own s)
    (hok : ∀ own' t, S.rely s t → Agrees keyColumn columns rows snapshot →
      Between C uri keyColumn columns base own' t → (Still uri own → Still uri own') →
      (f ()).Meets S G C Q E own' t)
    (herr : ∀ own' t e, S.rely s t → e ≠ .commitFailed →
      (e.isForeign = true ∨ ∃ keys, e = .reuseConflict keyColumn keys site) →
      Between C uri keyColumn columns base own' t → (Still uri own → Still uri own') →
      (Prog.raise e : Script F α).Meets S G C Q E own' t) :
    (rejectConflictingReplays site snapshot rows keyColumn >>= f).Meets S G C Q E own s := by
  unfold rejectConflictingReplays
  rw [hrows.guard, rowKeys_batch hrows]
  simp only [Script.pure, Prog.lift_ok, Prog.ret_bind, Prog.bind_assoc]
  refine meets_readIdentityRows H hrows.key hb (fun own' t existing ht hperm hbt hstill => ?_)
    fun own' t e ht hf hne hbt hstill => herr own' t e ht hne (Or.inl hf) hbt hstill
  have hcheck : _ ∧ checkReplays site columns keyColumn rows existing = .ok () ∨ _ :=
    checkReplays_eq hsnap hrows hperm site
  obtain ⟨ha, hc⟩ | ⟨-, keys, hc⟩ := hcheck
  · rw [hc]
    exact hok own' t ht ha hbt hstill
  · rw [hc]
    exact herr own' t _ ht nofun (Or.inr ⟨keys, rfl⟩) hbt hstill

/-- The batch's keys are all stored. -/
def KeysIn (keyColumn : String) (rows : List (Row F)) (h : List (Table F)) : Prop :=
  ∃ t ∈ h.head?, ∀ r ∈ rows, r.get keyColumn ∈ t.rows.map (·.get keyColumn)

omit H [PyFloat F] in
/-- Keys in a table stay in it as it grows. -/
theorem KeysIn.grows {h h' : List (Table F)} (hk : KeysIn keyColumn rows h)
    (hl : Lineage keyColumn columns h) (hg : Grows keyColumn columns h h') :
    KeysIn keyColumn rows h' := by
  obtain ⟨t, ht, hk⟩ := hk
  obtain ⟨t', ht', hpre⟩ := hg.exists_head hl ht
  exact ⟨t', ht', fun r hr => List.map_subset _ hpre.subset (hk r hr)⟩

omit H in
/-- **What a merge does to the table it read.** -/
theorem merge_effect {snapshot : Table F} {n : ℕ} {w w' : World F}
    (hl : Lineage keyColumn columns (w.tables uri)) (hmem : snapshot ∈ w.tables uri)
    (hrows : Batch keyColumn columns rows schema) (hs : Stored keyColumn columns rows source)
    (h : World.Succeeds (.mergeInsert uri snapshot keyColumn source) w n w') :
    TableMove uri keyColumn columns w w' ∧ Lineage keyColumn columns (w'.tables uri) ∧
      KeysIn keyColumn rows (w'.tables uri) ∧ rowCount uri w' - rowCount uri w = n := by
  cases h with
  | @mergeInsert _ _ t older _ _ _ ht hv =>
    rw [ht] at hl hmem
    -- the version it read is the newest, so its snapshot is that table
    obtain rfl := hl.eq_of_version hmem hv
    have hg : Grows keyColumn columns (snapshot :: older) _ := .mergeInsert hrows hs
    refine ⟨⟨?_, ?_⟩, ?_, ?_, ?_⟩
    · rw [World.push_tables_self]
      rfl
    · rw [World.push_tables_self, ht]
      exact hg
    · rw [World.push_tables_self, ht]
      exact hg.lineage hl
    · rw [World.push_tables_self]
      exact ⟨_, rfl, fun r hr => mem_keys_mergeInsert (hl.keyed snapshot rfl) hrows hs hr⟩
    · unfold rowCount
      rw [World.push_tables_self, ht]
      simp [Table.mergeInsert]
  | @mergeNothing _ _ t older _ _ _ ht hv hn =>
    have hl₀ := hl
    rw [ht] at hl hmem
    obtain rfl := hl.eq_of_version hmem hv
    refine ⟨.refl w, hl₀, ⟨snapshot, by rw [ht]; rfl, fun r hr => ?_⟩, Nat.sub_self _⟩
    have hk := mem_keys_mergeInsert (hl.keyed snapshot rfl) hrows hs hr
    rw [Table.mergeInsert, hn] at hk
    simpa using hk

/-- The contract of what an append returns. -/
def Returns (uri : Text) (keyColumn : String) (columns : List String) (rows : List (Row F))
    (base : ℕ) (a : Appended) (own : Trail (World F)) (s : World F) : Prop :=
  (∀ r ∈ rows, Held keyColumn columns r (s.tables uri)) ∧
    inserted uri own = base + a.written ∧ (a.written : ℤ) + a.present = rows.length

/-- The contract of what an append raises. -/
def Raises (uri : Text) (keyColumn : String) (start : Trail (World F)) (e : PyError)
    (own : Trail (World F)) (_ : World F) : Prop :=
  ∀ keys, e = .reuseConflict keyColumn keys .beforeMerge → Still uri start → Still uri own

/-- A program that raises where the crash condition holds. -/
theorem meets_raise {e : PyError} (hC : C own s) (hE : ∀ t, S.rely s t → C own t → E e own t) :
    (Prog.raise e : Script F α).Meets S G C Q E own s :=
  Prog.Meets.raise_of (fun _ ht => H.crash_rely hC ht) fun t ht => hE t ht (H.crash_rely hC ht)

omit H [PyFloat F] in
/-- An error of the storage may come at any time. -/
theorem raises_foreign {start : Trail (World F)} {e : PyError} (he : e.isForeign = true)
    (own : Trail (World F)) (s : World F) : Raises uri keyColumn start e own s := by
  rintro keys rfl
  cases he

/-- **After the merge**: the guard has seen every key of the batch stored. -/
theorem meets_afterMerge {start : Trail (World F)} {n : ℕ}
    (hrows : Batch keyColumn columns rows schema)
    (hE : ∀ e own s, C own s → e ≠ .commitFailed → Raises uri keyColumn start e own s → E e own s)
    (hb : Between C uri keyColumn columns (base + n) own s)
    (hk : KeysIn keyColumn rows (s.tables uri)) :
    (do
      let retained ← Script.openTable uri
      rejectConflictingReplays .afterMerge retained rows keyColumn
      return (⟨retained.version, n, rows.length - n⟩ : Appended)).Meets S G C
      (Returns uri keyColumn columns rows base) E own s := by
  refine meets_read H rfl hb (fun t retained ht hopen hbt => ?_) fun t e ht hf hne hbt =>
    meets_raise H hbt.crash fun u _ hC => hE _ _ _ hC hne (raises_foreign hf _ _)
  have hkt := hk.grows hb.lineage (H.rely ht)
  have hhead : retained ∈ (t.tables uri).head? := by
    cases hopen with
    | openTable h =>
      rw [h]
      rfl
  have hkeyed := hbt.lineage.keyed retained hhead
  refine meets_reject H hrows hkeyed hbt (fun own' u hu ha hbu _ => ?_) fun own' u e hu hne he hbu _ =>
    meets_raise H hbu.crash fun v _ hC => hE _ _ _ hC hne ?_
  · have hheld : ∀ r ∈ rows, Held keyColumn columns r (t.tables uri) := by
      refine ha.held (fun r hr => ?_) hhead
      obtain ⟨t', ht', hk⟩ := hkt
      rw [Option.mem_unique hhead ht']
      exact hk r hr
    refine Prog.Meets.ret_of (fun v hv => H.crash_rely hbu.crash hv) fun v hv => ?_
    refine ⟨fun r hr => ?_, hbu.count, by simp⟩
    exact ((hheld r hr).grows hbt.lineage (H.rely hu)).grows hbu.lineage (H.rely hv)
  · obtain hf | ⟨keys, rfl⟩ := he
    · exact raises_foreign hf _ _
    · rintro keys' h
      cases h

/-- **One attempt**: it inserts what it reports, or raises; where it lost its
race it has done nothing. -/
theorem meets_mergeOnce {start : Trail (World F)} {snapshot : Table F}
    (hrows : Batch keyColumn columns rows schema) (hs : Stored keyColumn columns rows source)
    (hE : ∀ e own s, C own s → e ≠ .commitFailed → Raises uri keyColumn start e own s → E e own s)
    (hlost : ∀ t u, Between C uri keyColumn columns base (own ++ [(t, t)]) u →
      E .commitFailed (own ++ [(t, t)]) u)
    (hmem : snapshot ∈ s.tables uri) (hb : Between C uri keyColumn columns base own s) :
    (mergeOnce uri source rows keyColumn snapshot).Meets S G C
      (Returns uri keyColumn columns rows base) E own s := by
  refine Prog.Meets.op_bind (fun t ht => H.crash_rely hb.crash ht) fun t ht r u hu => ?_
  have hbt := hb.rely H ht
  have hmemt : snapshot ∈ t.tables uri := (H.rely ht).1.subset hmem
  cases H.sem hu with
  | done hsucc =>
    obtain ⟨hmove, hl, hk, hn⟩ := merge_effect hbt.lineage hmemt hrows hs hsucc
    exact ⟨H.guarantee hmove, meets_afterMerge H hrows hE
      ⟨hl, H.crash_move hbt.crash hmove, by rw [inserted_append, hbt.count, hn]⟩ hk⟩
  | @refused e hf hce =>
    have hbu := hbt.still H
    refine ⟨H.guarantee (.refl t), Prog.Meets.raise_of (fun v hv => H.crash_rely hbu.crash hv)
      fun v hv => ?_⟩
    by_cases he : e = .commitFailed
    · subst he
      exact hlost t v (hbu.rely H hv)
    · exact hE _ _ _ (H.crash_rely hbu.crash hv) he (raises_foreign hf _ _)
  | lost hsucc hf hne =>
    obtain ⟨hmove, -, -, -⟩ := merge_effect hbt.lineage hmemt hrows hs hsucc
    exact ⟨H.guarantee hmove, meets_raise H (H.crash_move hbt.crash hmove) fun v _ hC =>
      hE _ _ _ hC hne (raises_foreign hf _ _)⟩

/-- **The retry loop**, by the attempts left: every attempt but the last
one it makes has inserted nothing. -/
theorem meets_mergeAttempts (start : Trail (World F))
    (hrows : Batch keyColumn columns rows schema) (hs : Stored keyColumn columns rows source)
    (attempts : ℕ) :
    ∀ {own s}, Between C uri keyColumn columns base own s → (Still uri start → Still uri own) →
      (mergeAttempts uri source rows keyColumn attempts).Meets S G C
        (Returns uri keyColumn columns rows base) (Raises uri keyColumn start) own s := by
  induction attempts with
  | zero => exact fun hb _ => meets_raise H hb.crash fun _ _ _ => nofun
  | succ attempts ih =>
    intro own s hb hstill
    refine meets_read H rfl hb (fun t table ht hopen hbt => ?_) fun t e ht hf hne hbt =>
      meets_raise H hbt.crash fun u _ _ => raises_foreign hf _ _
    split_ifs
    · exact meets_raise H hbt.crash fun u _ _ => nofun
    have hhead : table ∈ (t.tables uri).head? := by
      cases hopen with
      | openTable h =>
        rw [h]
        rfl
    refine meets_reject H hrows (hbt.lineage.keyed table hhead) hbt
      (fun own' u hu _ hbu hstill' => ?_) fun own' u e hu _ _ hbu hstill' =>
        meets_raise H hbu.crash fun v _ _ keys _ h₀ => hstill' ((hstill h₀).append rfl)
    refine Prog.Meets.orElse (meets_mergeOnce H hrows hs
      (fun e own' v hC hne (hr : Raises uri keyColumn start e own' v) => ?_) (fun v w hbw => ?_)
      ((H.rely hu).1.subset (List.mem_of_mem_head? hhead)) hbu)
    · rw [if_neg fun h => hne h.1]
      exact Prog.Meets.raise_of (fun w hw => H.crash_rely hC hw) fun w _ => hr
    · simp only
      split_ifs
      · exact ih hbw fun h₀ => (hstill' ((hstill h₀).append rfl)).append rfl
      · exact meets_raise H hbw.crash fun _ _ _ => nofun

/-- **The first write**: where another writer was first it raises. -/
theorem meets_createTable {tableDescription : Option Text} {tableName : Text}
    (hrows : Batch keyColumn columns rows schema) (hs : Stored keyColumn columns rows source)
    (hrefl : s.tables uri = [] → ∀ r ∈ rows, ∀ c ∈ columns, (r.get c).eq (r.get c) = true)
    (hb : Between C uri keyColumn columns base own s) {start : Trail (World F)}
    (hstill : Still uri start → Still uri own) :
    (createTable uri source rows tableDescription tableName).Meets S G C
      (Returns uri keyColumn columns rows base) (Raises uri keyColumn start) own s := by
  refine Prog.Meets.lift_bind (fun d _ => ?_) fun e _ =>
    meets_raise H hb.crash fun _ _ _ _ _ h₀ => hstill h₀
  refine Prog.Meets.op_bind (fun t ht => H.crash_rely hb.crash ht) fun t ht r u hu => ?_
  have hbt := hb.rely H ht
  have hmove : ∀ {u}, World.Succeeds (.createTable uri tableName d source) t () u →
      TableMove uri keyColumn columns t u := by
    rintro u ⟨⟩
    refine ⟨by rw [World.push_tables_self]; rfl, ?_⟩
    rename_i hnil
    rw [World.push_tables_self, hnil]
    exact .created hrows hs
  -- the call succeeds, is refused, or succeeds with its answer lost
  cases H.sem hu with
  | done hsucc =>
    refine ⟨H.guarantee (hmove hsucc), ?_⟩
    have hcrash := H.crash_move hbt.crash (hmove hsucc)
    cases hsucc with
    | createTable hnil =>
      have hnil' : s.tables uri = [] := List.suffix_nil.1 (hnil ▸ (H.rely ht).1)
      have htables : (t.push uri (World.created source)).tables uri = [World.created source] := by
        rw [World.push_tables_self, hnil]
      have hbu : Between C uri keyColumn columns (base + rows.length)
          (own ++ [(t, t.push uri (World.created source))])
          (t.push uri (World.created source)) := by
        refine ⟨by rw [htables]; exact Lineage.created hrows hs, hcrash, ?_⟩
        rw [inserted_append, hbt.count, rowCount, rowCount, htables, hnil]
        simp [World.created, hs.rows]
      have hheld : ∀ r ∈ rows, Held keyColumn columns r
          ((t.push uri (World.created source)).tables uri) := by
        intro r hr
        refine ⟨World.created source, by rw [htables]; rfl, Row.project source.columns r, ?_,
          hs.get hrows.key, fun c hc => ?_⟩
        · rw [World.created, hs.rows]
          exact List.mem_map_of_mem hr
        · rw [hs.get hc]
          exact hrefl hnil' r hr c hc
      refine meets_read H rfl hbu (fun v table hv _ hbv => ?_) fun v e hv hf _ hbv =>
        meets_raise H hbv.crash fun w _ _ => raises_foreign hf _ _
      refine Prog.Meets.ret_of (fun w hw => H.crash_rely hbv.crash hw) fun w hw => ?_
      refine ⟨fun r hr => ?_, hbv.count, by simp⟩
      exact ((hheld r hr).grows hbu.lineage (H.rely hv)).grows hbv.lineage (H.rely hw)
  | refused hf _ =>
    exact ⟨H.guarantee (.refl t), meets_raise H (hbt.still H).crash fun _ _ _ =>
      raises_foreign hf _ _⟩
  | lost hsucc hf _ =>
    exact ⟨H.guarantee (hmove hsucc), meets_raise H (H.crash_move hbt.crash (hmove hsucc))
      fun _ _ _ => raises_foreign hf _ _⟩

/-- **The contract of `append_rows`**, whatever the other writers of the
table do between its calls. -/
theorem meets_appendRows {L : Library} {tableDescription : Option Text} {tableName : Text}
    (hrows : Batch keyColumn columns rows schema)
    (hrefl : s.tables uri = [] → ∀ r ∈ rows, ∀ c ∈ columns, (r.get c).eq (r.get c) = true)
    (hl : Lineage keyColumn columns (s.tables uri)) (hC : C own s) :
    (appendRows L uri rows keyColumn tableDescription schema tableName).Meets S G C
      (Returns uri keyColumn columns rows (inserted uri own)) (Raises uri keyColumn own)
      own s := by
  have hb : Between C uri keyColumn columns (inserted uri own) own s := ⟨hl, hC, rfl⟩
  unfold appendRows
  rw [if_neg (replayGuardColumns_eq_ok hrows.guard).1]
  refine Prog.Meets.lift_bind (fun _ _ => ?_) fun e _ => meets_raise H hC fun _ _ _ _ _ => id
  refine Prog.Meets.lift_bind (fun source hsource => ?_) fun e _ =>
    meets_raise H hC fun _ _ _ _ _ => id
  have hs := hrows.stored hsource
  refine Prog.Meets.bind (Prog.Meets.orElse (meets_read H rfl hb (fun t _ ht _ hbt => ?_)
    fun t e ht hf _ hbt => meets_raise H hbt.crash fun u hu hCu => ?_))
  · refine Prog.Meets.ret_of (fun u hu => H.crash_rely hbt.crash hu) fun u hu => ?_
    exact meets_mergeAttempts H own hrows hs maxCommitAttempts (hbt.rely H hu) fun h => h.append rfl
  · split_ifs
    · refine Prog.Meets.ret_of (fun v hv => H.crash_rely hCu hv) fun v hv => ?_
      have hbv := (hbt.rely H hu).rely H hv
      refine meets_createTable H hrows hs (fun hnil => hrefl ?_) hbv fun h => h.append rfl
      have hsv := ((H.rely ht).1.trans (H.rely hu).1).trans (H.rely hv).1
      exact List.suffix_nil.1 (hnil ▸ hsv)
    · exact meets_raise H hCu fun _ _ _ => raises_foreign hf _ _

end

/-! ## Any number of writers -/

/-- The arguments of one call, but for the table and its key. -/
structure AppendCall (F : Type) where
  rows : List (Row F)
  tableDescription : Option Text
  arrowSchema : Option (List String)
  tableName : Text

/-- The call as a program. -/
def AppendCall.prog (L : Library) (uri : Text) (keyColumn : String) (c : AppendCall F) :
    Script F Appended :=
  appendRows L uri c.rows keyColumn c.tableDescription c.arrowSchema c.tableName

/-- Clients that each make one call on a table. -/
def clients {ι : Type} (L : Library) (uri : Text) (keyColumn : String) (call : ι → AppendCall F)
    (w : World F) : Fleet ι (Op F) Op.Res PyError Appended (World F) :=
  Fleet.start w fun i => (call i).prog L uri keyColumn

/-- **The insert-only merge under interleaving.** In every state any number
of clients can reach, each key has one row and no stored row is ever
changed or dropped; whoever has returned has every row of its batch stored
from then on, with the numbers it reported; whoever was refused before its
merge has changed nothing. -/
theorem clients_interleaved {ι : Type} [DecidableEq ι] (L : Library) (uri : Text)
    (keyColumn : String) (columns : List String) (call : ι → AppendCall F) (w : World F)
    (hcall : ∀ i, Batch keyColumn columns (call i).rows (call i).arrowSchema)
    (hexists : w.tables uri ≠ []) (hl : Lineage keyColumn columns (w.tables uri))
    (c d : Fleet ι (Op F) Op.Res PyError Appended (World F))
    (hc : Fleet.Reach World.Performs (clients L uri keyColumn call w) c)
    (hd : Fleet.Reach World.Performs c d) :
    (∃ t older, c.store.tables uri = t :: older ∧ (t.rows.map (·.get keyColumn)).Nodup ∧
      ∃ t' older', d.store.tables uri = t' :: older' ∧ t.rows <+: t'.rows) ∧
    (∀ i a, c.prog i = .ret a →
      (∀ r ∈ (call i).rows, Held keyColumn columns r (d.store.tables uri)) ∧
        a.written = inserted uri (c.own i) ∧
        (a.written : ℤ) + a.present = (call i).rows.length) ∧
    (∀ i keys, c.prog i = .raise (.reuseConflict keyColumn keys .beforeMerge) →
      Still uri (c.own i)) := by
  let R : World F → World F → Prop := fun s t =>
    Grows keyColumn columns (s.tables uri) (t.tables uri)
  have hrefl : ∀ s, R s s := fun s => Grows.refl _
  have htrans : ∀ {s t u}, R s t → R t u → R s u := fun h₁ h₂ => h₁.trans h₂
  -- what the others do makes the table grow, as a client's own steps do
  have hosts : Hosts ⟨World.Performs, R, hrefl, htrans⟩ R (fun _ _ => True) uri keyColumn columns :=
    ⟨id, id, fun h => h.grows, fun _ _ => trivial, fun _ _ => trivial⟩
  have hstart : ∀ i, ((call i).prog L uri keyColumn).Meets ⟨World.Performs, R, hrefl, htrans⟩ R
      (fun _ _ => True) (Returns uri keyColumn columns (call i).rows (inserted uri []))
      (Raises uri keyColumn []) [] w := fun i =>
    meets_appendRows hosts (hcall i) (fun h => absurd h hexists) hl trivial
  -- every client keeps its contract up to the first moment, and on to the second
  obtain ⟨hwc, hmc⟩ := Fleet.meets hstart hc
  obtain ⟨hcd, -⟩ := Fleet.meets hmc hd
  have hlc := hwc.lineage hl
  refine ⟨?_, fun i a hi => ?_, fun i keys hi => ?_⟩
  · obtain ⟨t₀, older₀, ht₀⟩ := List.exists_cons_of_ne_nil hexists
    obtain ⟨t, ht⟩ := head?_of_suffix (t := t₀) hwc.1 (by rw [clients, Fleet.start, ht₀]; rfl)
    obtain ⟨t', ht', hpre⟩ := hcd.exists_head hlc ht
    obtain ⟨older, hto⟩ := List.head?_eq_some_iff.1 ht
    obtain ⟨older', hto'⟩ := List.head?_eq_some_iff.1 ht'
    exact ⟨t, older, hto, (hlc.keyed t ht).nodup, t', older', hto', hpre⟩
  · have hm := hmc i
    rw [hi] at hm
    obtain ⟨hheld, hcount, hlen⟩ := hm.ret_here
    exact ⟨fun r hr => (hheld r hr).grows hlc hcd, by rw [hcount]; exact (Nat.zero_add _).symm, hlen⟩
  · have hm := hmc i
    rw [hi] at hm
    exact hm.raise_here keys rfl nofun

/-- A row of a table of payloads. -/
def payloadRow (key payload : String) : Row Decimal :=
  [("event_id", .text (lit key)), ("payload", .text (lit payload))]

/-- Two clients whose batches share a row. -/
def twoCalls : Bool → AppendCall Decimal
  | false => ⟨[payloadRow "a" "x", payloadRow "b" "y"], none, none, lit "payloads"⟩
  | true => ⟨[payloadRow "b" "y", payloadRow "c" "z"], none, none, lit "payloads"⟩

/-- A table with one row. -/
def onePayload : World Decimal where
  tables uri := if uri = lit "/srv/payloads" then
    [⟨0, true, false, ["event_id", "payload"], [payloadRow "a" "x"]⟩] else []
  deadLetters := []
  commits := []
  files _ := none
  clock := 0

/-- The two batches are of one shape. -/
theorem batch_twoCalls (i : Bool) :
    Batch "event_id" ["event_id", "payload"] (twoCalls i).rows (twoCalls i).arrowSchema := by
  cases i <;> exact {
    guard := by decide
    key := by decide
    text := by
      intro r hr
      simp only [twoCalls, List.mem_cons, List.not_mem_nil, or_false] at hr
      obtain rfl | rfl := hr <;> exact ⟨_, rfl⟩
    nodup := by decide
    schema := nofun }

/-- The clients take turns, call by call. -/
def race : Fleet Bool (Op Decimal) Op.Res PyError Appended (World Decimal) :=
  (List.replicate 9 [false, true]).flatten.foldl (Fleet.move (Engine.plain Decimal).handle)
    (clients Library.ascii (lit "/srv/payloads") "event_id" twoCalls onePayload)

/-- Both clients open the same version, so the second's commit is refused.
It tries again, finds the shared row written and writes the other. -/
theorem clients_interleaved_race :
    Fleet.Reach World.Performs
      (clients Library.ascii (lit "/srv/payloads") "event_id" twoCalls onePayload) race ∧
    (race.own false).length < (race.own true).length ∧
    race.prog false = .ret ⟨1, 1, 1⟩ ∧ race.prog true = .ret ⟨2, 1, 1⟩ ∧
    ∀ i, inserted (lit "/srv/payloads") (race.own i) = 1 ∧ ∀ r ∈ (twoCalls i).rows,
      Held "event_id" ["event_id", "payload"] r (race.store.tables (lit "/srv/payloads")) := by
  have hends : (race.own false).length < (race.own true).length ∧
      (race.prog false).returned = some ⟨1, 1, 1⟩ ∧
      (race.prog true).returned = some ⟨2, 1, 1⟩ := by decide +kernel
  have hreach : Fleet.Reach World.Performs
      (clients Library.ascii (lit "/srv/payloads") "event_id" twoCalls onePayload) race :=
    Fleet.reach_moves _ (Engine.plain Decimal).performs_handle _ _
  have hl : Lineage "event_id" ["event_id", "payload"]
      (onePayload.tables (lit "/srv/payloads")) := by
    refine ⟨?_, List.pairwise_singleton _ _⟩
    rintro _ ⟨⟩
    exact ⟨by decide, fun u hu => ⟨lit "a", by rw [List.mem_singleton.1 hu]; rfl⟩, by decide⟩
  have hreturned := (clients_interleaved Library.ascii (lit "/srv/payloads") "event_id"
    ["event_id", "payload"] twoCalls onePayload batch_twoCalls (List.cons_ne_nil _ _) hl _ _ hreach
    .refl).2.1
  refine ⟨hreach, hends.1, Prog.eq_ret hends.2.1, Prog.eq_ret hends.2.2, fun i => ?_⟩
  cases i with
  | false =>
    obtain ⟨hheld, hcount, -⟩ := hreturned false _ (Prog.eq_ret hends.2.1)
    exact ⟨hcount.symm, hheld⟩
  | true =>
    obtain ⟨hheld, hcount, -⟩ := hreturned true _ (Prog.eq_ret hends.2.2)
    exact ⟨hcount.symm, hheld⟩

end Ingest

end Lakehouse

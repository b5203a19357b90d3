import Lakehouse.Common.Decimal
import Lakehouse.Delta.Writes
import Lakehouse.Retention.Enforce
/-!
# What retention removes

However a run ends, and whatever fails on the way, the rows it removed
are beyond the cold horizon at its reference time and every other row is
where it was; where it returns it removed all of them
(`enforceRetention_removes`).
-/

namespace Lakehouse

namespace Retention

open Ingest Prog

variable {F : Type} [PyFloat F] {L : Library} {job : Job} {checked : ℤ}

/-! ## Expired rows -/

/-- **A row whose age is strictly beyond the cold horizon.** -/
def expired (job : Job) (checked : ℤ) (r : Row F) : Bool :=
  match r.get job.timeColumn with
  | .instant occurredAt => job.policy.coldHorizon < checked - occurredAt
  | _ => false

/-- A time is expired exactly where it lies more than the cold horizon back. -/
theorem tierFor_expired {policy : RetentionPolicy} {occurred : ℤ} :
    policy.tierFor occurred checked = .ok .expired ↔
      policy.coldHorizon < checked - occurred := by
  have hhot : policy.hotHorizon < policy.coldHorizon :=
    mul_lt_mul_of_pos_right policy.ordered (by decide)
  have hpos : 0 < policy.hotHorizon := mul_pos (by have := policy.hot; omega) (by decide)
  unfold RetentionPolicy.tierFor
  split_ifs with hlate hfresh hcold
  · exact iff_of_false nofun (by omega)
  · exact iff_of_false nofun (by omega)
  · exact iff_of_false nofun (by omega)
  · exact iff_of_true rfl (by omega)

/-- The instant of a row. -/
def occurredAt (job : Job) (r : Row F) : ℤ :=
  match r.get job.timeColumn with
  | .instant us => us
  | _ => 0

/-- The key and the instant of a row. -/
def keyed (job : Job) (r : Row F) : Text × ℤ := ((r.get job.keyColumn).str, occurredAt job r)

/-- A row is classified under its key and time, as expired where it is. -/
theorem classify_eq_ok {r : Row F} {p : Tier × Text × ℤ} (h : classify L job checked r = .ok p) :
    p.2 = keyed job r ∧ (p.1 = .expired ↔ expired job checked r = true) := by
  unfold classify at h
  rw [keyed, occurredAt, expired]
  cases hus : r.get job.timeColumn with
  | instant us =>
    rw [hus] at h
    obtain ⟨tier, htier, h⟩ := bind_eq_ok.1 h
    cases h
    refine ⟨rfl, ?_⟩
    rw [decide_eq_true_iff, ← tierFor_expired, htier]
    exact ⟨fun h => congrArg Except.ok h, fun h => Except.ok.inj h⟩
  | null | text _ | int _ | float _ | bool _ =>
    rw [hus] at h
    cases h

/-- The expired rows of a plan are those beyond the horizon. -/
theorem tierOf_expired {rows : List (Row F)} {tiers : List (Tier × Text × ℤ)}
    (h : collect (rows.map (classify L job checked)) = .ok tiers) :
    tierOf .expired tiers = (rows.filter (expired job checked)).map (keyed job) := by
  have hall := collect_eq_ok.1 h
  rw [List.forall₂_map_left_iff] at hall
  clear h
  induction hall with
  | nil => rfl
  | @cons r p rows tiers hp _ ih =>
    obtain ⟨hk, hexpired⟩ := classify_eq_ok hp
    rw [tierOf] at ih ⊢
    by_cases he : expired job checked r = true
    · rw [List.filter_cons_of_pos (by simp [hexpired.2 he]), List.filter_cons_of_pos he,
        List.map_cons, List.map_cons, ih, hk]
    · rw [List.filter_cons_of_neg (by simp [hexpired, he]), List.filter_cons_of_neg he, ih]

/-- The counts of a plan. -/
theorem planOf_eq_ok {rows : List (Row F)} {plan : RetentionPlan}
    (h : planOf L job checked rows = .ok plan) :
    plan.totalRows = rows.length ∧
      plan.expiredRows = (rows.filter (expired job checked)).length := by
  obtain ⟨tiers, htiers, h⟩ := bind_eq_ok.1 h
  cases h
  refine ⟨rfl, ?_⟩
  simp only
  rw [tierOf_expired htiers, List.length_map]

/-- What the run reads of a row. -/
def viewed (job : Job) (r : Row F) : Row F := r.project [job.keyColumn, job.timeColumn]

omit [PyFloat F] in
/-- The view of a row has its key. -/
theorem viewed_key (r : Row F) : (viewed job r).get job.keyColumn = r.get job.keyColumn :=
  Row.get_project_of_mem List.mem_cons_self

omit [PyFloat F] in
/-- The view of a row has its time. -/
theorem viewed_time (r : Row F) : (viewed job r).get job.timeColumn = r.get job.timeColumn :=
  Row.get_project_of_mem (List.mem_cons_of_mem _ List.mem_cons_self)

omit [PyFloat F] in
/-- A row is expired exactly where its view is. -/
theorem expired_viewed (r : Row F) : expired job checked (viewed job r) = expired job checked r := by
  rw [expired, expired, viewed_time]

/-- Rows that pass are expired where the batch has their keys. -/
theorem checkRows_eq_ok {batch : RetentionBatch} {rows : List (Row F)}
    (h : checkRows L job checked batch rows = .ok ()) :
    ∀ r ∈ rows, (r.get job.keyColumn).str ∈ batch.keys → expired job checked r = true := by
  induction rows with
  | nil => exact fun _ hr => absurd hr List.not_mem_nil
  | cons r rows ih =>
    rw [checkRows] at h
    rw [List.forall_mem_cons]
    by_cases hk : (r.get job.keyColumn).str ∈ batch.keys
    · rw [if_neg (not_not.2 hk)] at h
      split at h
      · rename_i us hus
        obtain ⟨tier, htier, h⟩ := bind_eq_ok.1 h
        obtain ⟨hne, h⟩ := guard_eq_ok.1 h
        refine ⟨fun _ => ?_, ih h⟩
        rw [expired, hus, decide_eq_true_iff, ← tierFor_expired, htier, not_not.1 hne]
      · cases h
    · rw [if_pos hk] at h
      exact ⟨fun hk' => absurd hk' hk, ih h⟩

/-! ## Trimmed tables -/

/-- **A table some rows of which were removed**: each of these satisfies
`P`. Rows were added only where `A`, and the append-only property is as it
was where `B`. -/
structure Trimmed (P : Row F → Bool) (A B : Prop) (cur new : Table F) : Prop where
  rows : ∃ keep : Row F → Bool, ∃ added, new.rows = cur.rows.filter keep ++ added ∧
    (∀ r ∈ cur.rows, keep r = false → P r = true) ∧ (added ≠ [] → A)
  appendOnly : B → new.appendOnly = cur.appendOnly

/-- The newest version of a table is trimmed. -/
def Trims (uri : Text) (P : Row F → Bool) (A B : Prop) (s t : World F) : Prop :=
  ∀ cur ∈ (s.tables uri).head?, ∃ new ∈ (t.tables uri).head?, Trimmed P A B cur new

variable {P : Row F → Bool} {A B : Prop} {uri : Text} {s t u w w' : World F}

omit [PyFloat F] in
/-- A version with rows added. -/
theorem Trimmed.of_append {cur new : Table F} {added : List (Row F)} (hA : added ≠ [] → A)
    (hrows : new.rows = cur.rows ++ added) (hmode : B → new.appendOnly = cur.appendOnly) :
    Trimmed P A B cur new := by
  refine ⟨⟨fun _ => true, added, ?_, fun _ _ h => absurd h Bool.noConfusion, hA⟩, hmode⟩
  rw [hrows, List.filter_true]

omit [PyFloat F] in
/-- A version with the same rows. -/
theorem Trimmed.of_rows {cur new : Table F} (hrows : new.rows = cur.rows)
    (hmode : B → new.appendOnly = cur.appendOnly) : Trimmed P A B cur new :=
  .of_append (fun h => absurd rfl h) (hrows.trans (List.append_nil _).symm) hmode

omit [PyFloat F] in
/-- Trimming twice is trimming. -/
theorem Trimmed.trans {cur mid new : Table F} (h : Trimmed P A B cur mid)
    (h' : Trimmed P A B mid new) : Trimmed P A B cur new := by
  obtain ⟨⟨keep, added, hmid, hP, hA⟩, hmode⟩ := h
  obtain ⟨⟨keep', added', hnew, hP', hA'⟩, hmode'⟩ := h'
  refine ⟨⟨fun r => keep r && keep' r, added.filter keep' ++ added', ?_, fun r hr hk => ?_,
    fun hne => ?_⟩, fun hB => (hmode' hB).trans (hmode hB)⟩
  · rw [hnew, hmid, List.filter_append, List.filter_filter, List.append_assoc]
    simp only [Bool.and_comm]
  · cases hkr : keep r with
    | false => exact hP r hr hkr
    | true =>
      have hk' : keep' r = false := by simpa [hkr] using hk
      refine hP' r ?_ hk'
      rw [hmid]
      exact List.mem_append_left _ (List.mem_filter.2 ⟨hr, hkr⟩)
  · by_cases ha : added = []
    · refine hA' fun ha' => hne ?_
      rw [ha, ha']
      rfl
    · exact hA ha

omit [PyFloat F] in
/-- A table left as it was. -/
theorem Trims.of_eq (h : t.tables uri = s.tables uri) : Trims uri P A B s t :=
  fun cur hcur => ⟨cur, h ▸ hcur, .of_rows rfl fun _ => rfl⟩

omit [PyFloat F] in
/-- A table left as it was. -/
theorem Trims.refl (s : World F) : Trims uri P A B s s := .of_eq rfl

omit [PyFloat F] in
/-- A table trimmed twice. -/
theorem Trims.trans (h : Trims uri P A B s t) (h' : Trims uri P A B t u) :
    Trims uri P A B s u := fun cur hcur => by
  obtain ⟨mid, hmid, hs⟩ := h cur hcur
  obtain ⟨new, hnew, ht⟩ := h' mid hmid
  exact ⟨new, hnew, hs.trans ht⟩

omit [PyFloat F] in
/-- A weaker promise about the append-only mode. -/
theorem Trims.mono {B' : Prop} (hB : B' → B) (h : Trims uri P A B s t) :
    Trims uri P A B' s t := fun cur hcur => by
  obtain ⟨new, hnew, hrows, hmode⟩ := h cur hcur
  exact ⟨new, hnew, hrows, fun h => hmode (hB h)⟩

/-! ## Appends -/

/-- An append removes nothing, and adds only to its own table. -/
theorem only_trims_appendRows {uri' : Text} (hA : uri' = uri → A) (rows : List (Row F))
    (keyColumn : String) (tableDescription : Option Text) (tableName : Text) :
    Only (Trims uri P A True)
      (appendRows L uri' rows keyColumn tableDescription none tableName) := by
  refine only_appendRows .refl _ _ _ _ _ _ _ (fun {source} _ {snapshot} _ s t h => ?_)
    fun _ _ _ s t h => ?_
  · cases h with
    | @mergeInsert _ _ table older _ _ _ ht _ =>
      by_cases hu : uri = uri'
      · subst hu
        intro cur hcur
        rw [ht] at hcur
        cases hcur
        refine ⟨table.mergeInsert keyColumn snapshot source.rows, ?_,
          .of_append (fun _ => hA rfl) rfl fun _ => rfl⟩
        rw [World.push_tables_self]
        rfl
      · exact .of_eq (World.push_tables_of_ne _ _ hu)
    | mergeNothing => exact .refl s
  · cases h with
    | createTable ht =>
      by_cases hu : uri = uri'
      · subst hu
        intro cur hcur
        rw [ht] at hcur
        cases hcur
      · exact .of_eq (World.push_tables_of_ne _ _ hu)

variable {G : World F → World F → Prop} (hrefl : ∀ s, G s s)

include hrefl in
/-- An audit record is one append. -/
theorem only_appendAuditRecord
    (happend : ∀ rows : List (Row F), Only G (appendRows L job.auditTableUri rows "audit_id"
      (some auditTableDescription) none (lit "blueeconomy_retention_audit")))
    (record : RetentionAuditRecord) : Only G (appendAuditRecord L job record) :=
  .bind (.bind (.pure _) fun _ => .bind (.pure _) fun _ => .bind (.read hrefl rfl) fun _ => trivial)
    fun row => .bind (happend [row]) fun _ => trivial

include hrefl in
/-- The records of a plan are appends. -/
theorem only_recordPlan
    (happend : ∀ rows : List (Row F), Only G (appendRows L job.auditTableUri rows "audit_id"
      (some auditTableDescription) none (lit "blueeconomy_retention_audit")))
    (batches : List RetentionBatch) : Only G (recordPlan L job batches) := by
  induction batches with
  | nil => trivial
  | cons batch batches ih => exact .bind (only_appendAuditRecord hrefl happend _) fun _ => ih

/-- Where a run may add rows to the table it is about. -/
def AddsTo (job : Job) : Prop :=
  job.auditTableUri = job.tableUri ∨ job.archiveUri = some job.tableUri

/-- An audit record trims nothing. -/
theorem only_trims_appendAuditRecord (record : RetentionAuditRecord) :
    Only (Trims (F := F) job.tableUri P (AddsTo job) True) (appendAuditRecord L job record) :=
  only_appendAuditRecord .refl (fun _ => only_trims_appendRows Or.inl _ _ _ _) record

/-- The records of a plan trim nothing. -/
theorem only_trims_recordPlan (batches : List RetentionBatch) :
    Only (Trims (F := F) job.tableUri P (AddsTo job) True) (recordPlan L job batches) :=
  only_recordPlan .refl (fun _ => only_trims_appendRows Or.inl _ _ _ _) batches

/-- The chunks of an archive trim nothing. -/
theorem only_trims_archiveChunks {archiveUri : Text} (h : job.archiveUri = some archiveUri)
    (chunks : List (List (Row F))) :
    Only (Trims job.tableUri P (AddsTo job) True) (archiveChunks L job archiveUri chunks) := by
  induction chunks with
  | nil => trivial
  | cons chunk chunks ih =>
    exact .bind (only_trims_appendRows (fun he => Or.inr (he ▸ h)) _ _ _ _) fun _ =>
      .bind (only_trims_appendAuditRecord _) fun _ => ih

/-- Archiving trims nothing. -/
theorem only_trims_archivePlan (plan : RetentionPlan) :
    Only (Trims (F := F) job.tableUri P (AddsTo job) True) (archivePlan L job plan) := by
  unfold archivePlan
  split
  · rename_i archiveUri h
    split_ifs
    · exact .bind (.pure _) fun _ => .bind (.read .refl rfl) fun _ => .bind (.read .refl rfl)
        fun _ => only_trims_archiveChunks h _
    · trivial
  · trivial

/-! ## The reads -/

/-- The updates of a table's append-only property succeed. -/
def UpdatesSucceed (sem : (o : Op F) → World F → Except PyError o.Res → World F → Prop) : Prop :=
  ∀ uri value s r u, s.tables uri ≠ [] → sem (.setAppendOnly uri value) s r u → r = .ok ()

section Runs

variable {sem : (o : Op F) → World F → Except PyError o.Res → World F → Prop}
  (hsem : ∀ o s r t, sem o s r t → World.Performs o s r t)

include hsem

/-- What a run reads of its table. -/
theorem ends_readTable {x : Except PyError (List (Row F))} (h : (readTable L job).Ends sem s x t) :
    t = s ∧ ∀ rows, x = .ok rows → ∃ cur ∈ (s.tables job.tableUri).head?,
      rows.Perm (cur.rows.map (viewed job)) := by
  obtain ⟨table, s₁, hopen, hread⟩ | ⟨e, rfl, hopen⟩ := ends_bind h
  · obtain ⟨_, ⟨⟩, hopen⟩ | ⟨e, s₂, -, hhandler⟩ := ends_orElse hopen
    · obtain ⟨rfl, hopen⟩ := (hsem _ _ _ _ (ends_op.1 hopen)).read rfl
      obtain ⟨rfl, hread⟩ := (hsem _ _ _ _ (ends_op.1 hread)).read rfl
      refine ⟨rfl, fun rows hx => ?_⟩
      subst hx
      cases hopen with
      | openTable htable =>
        cases hread with
        | readRows _ hperm =>
          rw [Table.read_none] at hperm
          exact ⟨table, by rw [htable]; rfl, hperm⟩
    · split_ifs at hhandler
      all_goals cases (ends_raise.1 hhandler).1
  · refine ⟨?_, nofun⟩
    obtain ⟨_, ⟨⟩, -⟩ | ⟨e', s₂, hopen, hhandler⟩ := ends_orElse hopen
    obtain ⟨rfl, -⟩ := (hsem _ _ _ _ (ends_op.1 hopen)).read rfl
    split_ifs at hhandler
    all_goals exact (ends_raise.1 hhandler).2

/-- The counts a plan has of its table. -/
theorem ends_planRetention {x : Except PyError RetentionPlan}
    (h : (planRetention L job checked).Ends sem s x t) :
    t = s ∧ ∀ plan, x = .ok plan → ∃ cur ∈ (s.tables job.tableUri).head?,
      plan.totalRows = cur.rows.length ∧
        plan.expiredRows = (cur.rows.filter (expired job checked)).length := by
  obtain ⟨_, -, hread⟩ | ⟨e, -, rfl, rfl⟩ := ends_lift_bind h
  · obtain ⟨rows, s₁, hrows, hplan⟩ | ⟨e, rfl, hrows⟩ := ends_bind hread
    · obtain ⟨rfl, hcur⟩ := ends_readTable hsem hrows
      obtain ⟨rfl, rfl⟩ := ends_lift.1 hplan
      refine ⟨rfl, fun plan hplan => ?_⟩
      obtain ⟨cur, hcur, hperm⟩ := hcur rows rfl
      obtain ⟨htotal, hexpired⟩ := planOf_eq_ok hplan
      refine ⟨cur, hcur, ?_, ?_⟩
      · rw [htotal, hperm.length_eq, List.length_map]
      · rw [hexpired, (hperm.filter _).length_eq, List.filter_map, List.length_map]
        exact congrArg List.length (List.filter_congr fun r _ => expired_viewed r)
    · exact ⟨(ends_readTable hsem hrows).1, nofun⟩
  · exact ⟨rfl, nofun⟩

/-- **The rows under some keys are all expired.** -/
def Doomed (job : Job) (checked : ℤ) (keys : List Text) (w : World F) : Prop :=
  ∀ cur ∈ (w.tables job.tableUri).head?, ∀ r ∈ cur.rows, (r.get job.keyColumn).str ∈ keys →
    expired job checked r = true

/-- A batch that passes is one of expired rows. -/
theorem ends_assertBatchInPolicy {batch : RetentionBatch} {x : Except PyError Unit}
    (h : (assertBatchInPolicy L job checked batch).Ends sem s x t) :
    t = s ∧ (x = .ok () → Doomed job checked batch.keys s) := by
  obtain ⟨rows, s₁, hread, hchecks⟩ | ⟨e, rfl, hread⟩ := ends_bind h
  · obtain ⟨rfl, hrows⟩ := ends_readTable hsem hread
    obtain ⟨_, hcheck, hpresent⟩ | ⟨e, -, rfl, rfl⟩ := ends_lift_bind hchecks
    · refine ⟨(ends_lift.1 hpresent).2, fun _ cur hcur r hr hk => ?_⟩
      obtain ⟨cur', hcur', hperm⟩ := hrows rows rfl
      obtain rfl := Option.mem_unique hcur' hcur
      rw [← expired_viewed]
      refine checkRows_eq_ok hcheck _ (hperm.mem_iff.2 (List.mem_map_of_mem hr)) ?_
      rwa [viewed_key]
    · exact ⟨rfl, nofun⟩
  · exact ⟨(ends_readTable hsem hread).1, nofun⟩

/-! ## The deletes -/

/-- Only expired rows are deleted, and the table keeps its property. -/
theorem ends_deleteChunks {keys : List Text} {chunks : List (List Text)}
    (hchunks : ∀ chunk ∈ chunks, chunk ⊆ keys) {deleted : ℕ} {x : Except PyError ℕ}
    (hdoomed : Doomed job checked keys s)
    (h : (deleteChunks job chunks deleted).Ends sem s x t) :
    Trims job.tableUri (expired job checked) A True s t := by
  induction chunks generalizing s deleted with
  | nil =>
    obtain ⟨-, rfl⟩ := ends_ret.1 h
    exact .refl _
  | cons chunk chunks ih =>
    obtain ⟨hchunk, hchunks⟩ := List.forall_mem_cons.1 hchunks
    have hdelete : ∀ {x : Except PyError Unit} {t : World F},
        sem (.deleteIn job.tableUri job.keyColumn (Sql.literals chunk)) s x t →
        Trims job.tableUri (expired job checked) A True s t ∧ Doomed job checked keys t := by
      intro x t hop
      have hdone : World.Succeeds (.deleteIn job.tableUri job.keyColumn (Sql.literals chunk)) s () t →
          Trims job.tableUri (expired job checked) A True s t ∧ Doomed job checked keys t := by
        intro hs
        obtain ⟨table, literalKeys, older, rfl, htable, hkeys⟩ :
            ∃ table literalKeys older, t = s.push job.tableUri (table.deleteIn job.keyColumn literalKeys) ∧
              s.tables job.tableUri = table :: older ∧
              Sql.keysOf (Sql.literals chunk) = some literalKeys := by
          cases hs with
          | deleteIn htable _ hkeys => exact ⟨_, _, _, rfl, htable, hkeys⟩
        have hsub : literalKeys ⊆ keys := by
          by_cases hne : chunk = []
          · subst hne
            cases hkeys
          · rw [Sql.keysOf_literals hne] at hkeys
            exact Option.some.inj hkeys ▸ hchunk
        have hhead : (s.tables job.tableUri).head? = some table := by
          rw [htable]
          rfl
        refine ⟨fun cur hcur => ?_, fun cur hcur r hr => ?_⟩
        · obtain rfl := Option.mem_unique hhead hcur
          refine ⟨table.deleteIn job.keyColumn literalKeys, by rw [World.push_tables_self]; rfl,
            ⟨_, [], (List.append_nil _).symm, fun r hr hkeep => ?_, fun h => absurd rfl h⟩,
            fun _ => rfl⟩
          -- a row that is gone has a text among the keys of the batch
          have hin : Table.isIn job.keyColumn literalKeys r = true := by simpa using hkeep
          refine hdoomed table hhead r hr ?_
          unfold Table.isIn at hin
          split at hin
          · rename_i key hkey
            rw [hkey]
            exact hsub (of_decide_eq_true hin)
          · cases hin
        · rw [World.push_tables_self] at hcur
          cases hcur
          exact hdoomed table hhead r (List.mem_filter.1 hr).1
      obtain ⟨_, hs, -⟩ | ⟨rfl, -⟩ := (hsem _ _ _ _ hop).did
      · exact hdone hs
      · exact ⟨.refl _, hdoomed⟩
    obtain ⟨_, s₁, hop, hrest⟩ | ⟨e, rfl, hop⟩ := ends_bind h
    · obtain ⟨htrims, hdoomed'⟩ := hdelete (ends_op.1 hop)
      exact htrims.trans (ih hchunks hdoomed' hrest)
    · exact (hdelete (ends_op.1 hop)).1

/-- Setting the property changes no row. Where such calls never fail, it
has its value. -/
theorem ends_setWhere {b value : Bool} {uri : Text} {x : Except PyError Unit}
    (h : (setWhere b uri value).Ends sem s x t) :
    ∀ cur ∈ (s.tables uri).head?, ∃ new ∈ (t.tables uri).head?, new.rows = cur.rows ∧
      (UpdatesSucceed sem →
        x = .ok () ∧ new.appendOnly = if b then value else cur.appendOnly) := by
  intro cur hcur
  unfold setWhere at h
  split_ifs at h with hb
  · have hop := ends_op.1 h
    have hne : s.tables uri ≠ [] := by
      rintro he
      rw [he] at hcur
      cases hcur
    have hdone : World.Succeeds (.setAppendOnly uri value) s () t →
        ∃ new ∈ (t.tables uri).head?, new.rows = cur.rows ∧ new.appendOnly = value := by
      intro hs
      cases hs with
      | setAppendOnly htable =>
        rw [htable] at hcur
        cases hcur
        rw [World.push_tables_self]
        exact ⟨_, rfl, rfl, rfl⟩
    rw [if_pos hb]
    obtain ⟨_, hs, -⟩ | ⟨rfl, e, he⟩ := (hsem _ _ _ _ hop).did
    · obtain ⟨new, hnew, hrows, hmode⟩ := hdone hs
      exact ⟨new, hnew, hrows, fun hB => ⟨hB _ _ _ _ _ hne hop, hmode⟩⟩
    · exact ⟨cur, hcur, rfl, fun hB => nomatch he.symm.trans (hB _ _ _ _ _ hne hop)⟩
  · obtain ⟨rfl, rfl⟩ := ends_ret.1 h
    exact ⟨cur, hcur, rfl, fun _ => ⟨rfl, by rw [if_neg hb]⟩⟩

omit hsem [PyFloat F] in
/-- A chunk holds nothing else. -/
theorem subset_of_mem_chunks {α : Type} {xs chunk : List α} (h : chunk ∈ chunks xs) :
    chunk ⊆ xs := by
  obtain ⟨i, -, rfl⟩ := List.mem_map.1 h
  exact fun x hx => List.drop_subset _ _ (List.take_subset _ _ hx)

/-- **A batch removes expired rows only**, and leaves the property as it
found it where that can be set. -/
theorem ends_deleteBatch {batch : RetentionBatch} {x : Except PyError ℕ}
    (hdoomed : Doomed job checked batch.keys s) (h : (deleteBatch job batch).Ends sem s x t) :
    Trims job.tableUri (expired job checked) A (UpdatesSucceed sem) s t := by
  obtain ⟨table, s₁, hopen, hfinally⟩ | ⟨e, rfl, hopen⟩ := ends_bind h
  · obtain ⟨rfl, hopen⟩ := (hsem _ _ _ _ (ends_op.1 hopen)).read rfl
    obtain ⟨y, s₂, z, hblock, hcleanup, -⟩ := ends_andFinally hfinally
    intro cur hcur
    have htable : table = cur := by
      cases hopen with
      | openTable ht =>
        rw [ht] at hcur
        exact Option.some.inj hcur
    subst htable
    -- the block: the property is lifted, then the deletes
    have hdeletes : ∃ mid ∈ (s₂.tables job.tableUri).head?, Trimmed (expired job checked) A
        (UpdatesSucceed sem ∧
          table.appendOnly = false) table mid := by
      obtain ⟨_, s₁, hlift, hdelete⟩ | ⟨e, rfl, hlift⟩ := ends_bind hblock
      · obtain ⟨lifted, hlifted, hrows, hmode⟩ := ends_setWhere hsem hlift table hcur
        have hdoomed₁ : Doomed job checked batch.keys s₁ := by
          intro cur hcur₁ r hr
          obtain rfl := Option.mem_unique hlifted hcur₁
          exact hdoomed table hcur r (hrows ▸ hr)
        obtain ⟨mid, hmid, htrim⟩ := ends_deleteChunks hsem (A := A)
          (fun chunk => subset_of_mem_chunks) hdoomed₁ hdelete lifted hlifted
        refine ⟨mid, hmid, .trans (.of_rows hrows fun hB => ?_) ⟨htrim.rows, fun _ => htrim.appendOnly trivial⟩⟩
        rw [(hmode hB.1).2, hB.2]
        rfl
      · obtain ⟨lifted, hlifted, hrows, hmode⟩ := ends_setWhere hsem hlift table hcur
        exact ⟨lifted, hlifted, .of_rows hrows fun hB => nomatch (hmode hB.1).1⟩
    obtain ⟨mid, hmid, htrim⟩ := hdeletes
    obtain ⟨new, hnew, hrows, hmode⟩ := ends_setWhere hsem hcleanup mid hmid
    refine ⟨new, hnew, (Trimmed.trans ⟨htrim.rows, False.elim⟩
      (.of_rows (B := False) hrows False.elim)).rows, fun hB => ?_⟩
    rw [(hmode hB).2]
    cases happend : table.appendOnly with
    | true => rfl
    | false => exact (htrim.appendOnly ⟨hB, happend⟩).trans happend
  · obtain ⟨rfl, -⟩ := (hsem _ _ _ _ (ends_op.1 hopen)).read rfl
    exact .refl _

/-! ## The run -/

/-- What obeys in any state is trimmed here. -/
theorem trims_of_only {α : Type} {p : Script F α} {x : Except PyError α}
    (hp : Only (Trims uri P A True) p) (h : p.Ends sem s x t) : Trims uri P A B s t :=
  (Prog.Obeys.ends .refl .trans hp (h.mono hsem)).mono fun _ => trivial

/-- **The batches of a run remove expired rows only.** -/
theorem ends_executeBatches {batches : List RetentionBatch} {x : Except PyError Unit}
    (h : (executeBatches L job checked batches).Ends sem s x t) :
    Trims job.tableUri (expired job checked) (AddsTo job) (UpdatesSucceed sem) s t := by
  induction batches generalizing s with
  | nil =>
    obtain ⟨-, rfl⟩ := ends_ret.1 h
    exact .refl _
  | cons batch batches ih =>
    obtain ⟨_, s₁, hassert, hrest⟩ | ⟨e, rfl, hassert⟩ := ends_bind h
    · obtain ⟨rfl, hdoomed⟩ := ends_assertBatchInPolicy hsem hassert
      obtain ⟨deleted, s₂, hdelete, hrecord⟩ | ⟨e, rfl, hdelete⟩ := ends_bind hrest
      · refine (ends_deleteBatch hsem (hdoomed rfl) hdelete).trans ?_
        obtain ⟨_, s₃, happend, hbatches⟩ | ⟨e, rfl, happend⟩ := ends_bind hrecord
        · exact (trims_of_only hsem (only_trims_appendAuditRecord _) happend).trans (ih hbatches)
        · exact trims_of_only hsem (only_trims_appendAuditRecord _) happend
      · exact ends_deleteBatch hsem (hdoomed rfl) hdelete
    · obtain ⟨rfl, -⟩ := ends_assertBatchInPolicy hsem hassert
      exact .refl _

omit hsem [PyFloat F] in
/-- A trimmed table of the right size without expired rows has lost exactly
these. -/
theorem Trimmed.rows_eq {cur new : Table F} (h : Trimmed P A B cur new)
    (hlen : new.rows.length + (cur.rows.filter P).length = cur.rows.length)
    (hnone : new.rows.filter P = []) : new.rows = cur.rows.filter fun r => !P r := by
  obtain ⟨keep, added, hrows, hP, -⟩ := h.rows
  have hkeep : cur.rows.filter keep = cur.rows.filter fun r => !P r := by
    refine List.filter_congr fun r hr => ?_
    cases hk : keep r with
    | false => rw [hP r hr hk, Bool.not_true]
    | true =>
      have hmem : r ∈ new.rows := by
        rw [hrows]
        exact List.mem_append_left _ (List.mem_filter.2 ⟨hr, hk⟩)
      simpa using List.filter_eq_nil_iff.1 hnone r hmem
  have hsplit := List.length_eq_length_filter_add (l := cur.rows) P
  have hadded : added = [] := by
    rw [hrows, List.length_append, hkeep] at hlen
    exact List.eq_nil_of_length_eq_zero (by omega)
  rw [hrows, hadded, List.append_nil, hkeep]

/-- An applied run removes expired rows only, and all of them where it
returns. -/
theorem ends_applyPlan {cur : Table F} (hcur : cur ∈ (s.tables job.tableUri).head?)
    {plan : RetentionPlan} (htotal : plan.totalRows = cur.rows.length)
    (hexpired : plan.expiredRows = (cur.rows.filter (expired job checked)).length)
    {x : Except PyError Unit} (h : (applyPlan L job checked plan).Ends sem s x t) :
    ∃ new ∈ (t.tables job.tableUri).head?,
      Trimmed (expired job checked) (AddsTo job) (UpdatesSucceed sem) cur new ∧
      (x = .ok () → new.rows = cur.rows.filter fun r => !expired job checked r) := by
  have hpart : ∀ {t : World F}, Trims job.tableUri (expired job checked) (AddsTo job)
      (UpdatesSucceed sem) s t → ∀ {x : Except PyError Unit}, x ≠ .ok () →
      ∃ new ∈ (t.tables job.tableUri).head?,
        Trimmed (expired job checked) (AddsTo job) (UpdatesSucceed sem) cur new ∧
        (x = .ok () → new.rows = cur.rows.filter fun r => !expired job checked r) := by
    intro t ht x hx
    obtain ⟨new, hnew, htrim⟩ := ht cur hcur
    exact ⟨new, hnew, htrim, fun h => absurd h hx⟩
  obtain ⟨_, s₁, harchive, hrest⟩ | ⟨e, rfl, harchive⟩ := ends_bind h
  · have htrims := trims_of_only hsem (P := expired job checked) (B := UpdatesSucceed sem)
      (only_trims_archivePlan plan) harchive
    obtain ⟨_, s₂, hexecute, hverify⟩ | ⟨e, rfl, hexecute⟩ := ends_bind hrest
    · have htrims := htrims.trans (ends_executeBatches hsem hexecute)
      obtain ⟨remaining, s₃, hplan, hcounts⟩ | ⟨e, rfl, hplan⟩ := ends_bind hverify
      · obtain ⟨rfl, hremaining⟩ := ends_planRetention hsem hplan
        obtain ⟨rfl, rfl⟩ := ends_lift.1 hcounts
        obtain ⟨new, hnew, htrim⟩ := htrims cur hcur
        refine ⟨new, hnew, htrim, fun hok => ?_⟩
        obtain ⟨new', hnew', htotal', hexpired'⟩ := hremaining remaining rfl
        obtain rfl := Option.mem_unique hnew hnew'
        obtain ⟨hcount, hok⟩ := guard_eq_ok.1 hok
        obtain ⟨hzero, -⟩ := guard_eq_ok.1 hok
        refine htrim.rows_eq ?_ (List.eq_nil_of_length_eq_zero ?_)
        · rw [← htotal, ← htotal', ← hexpired]
          omega
        · rw [← hexpired']
          exact not_not.1 hzero
      · obtain ⟨rfl, -⟩ := ends_planRetention hsem hplan
        exact hpart htrims nofun
    · exact hpart (htrims.trans (ends_executeBatches hsem hexecute)) nofun
  · exact hpart (trims_of_only hsem (only_trims_archivePlan plan) harchive) nofun

/-- What a run has done to the tables. -/
structure Enforced (sem : (o : Op F) → World F → Except PyError o.Res → World F → Prop) (job : Job)
    (checked : ℤ) (returned : Prop) (table : Table F) (s t : World F) : Prop where
  trimmed : ∃ new ∈ (t.tables job.tableUri).head?,
    Trimmed (expired job checked) (AddsTo job) (UpdatesSucceed sem) table new ∧
      (job.apply = true → returned → new.rows = table.rows.filter fun r => !expired job checked r)
  dryRun : job.apply = false → ∀ uri ≠ job.auditTableUri, t.tables uri = s.tables uri

omit hsem [PyFloat F] in
/-- A run that changes nothing and does not return. -/
theorem Enforced.unchanged {returned : Prop} {table : Table F}
    (htable : table ∈ (s.tables job.tableUri).head?) (h : ¬returned) :
    Enforced sem job checked returned table s s :=
  ⟨⟨table, htable, .of_rows rfl fun _ => rfl, fun _ hr => absurd hr h⟩, fun _ _ _ => rfl⟩

/-- How enforcing at a time ends. -/
theorem ends_enforceAt {table : Table F} (htable : table ∈ (s.tables job.tableUri).head?)
    {x : Except PyError RetentionPlan} (h : (enforceAt L job checked).Ends sem s x t) :
    Enforced sem job checked (∃ plan, x = .ok plan) table s t := by
  have hcarry : ∀ {plan : RetentionPlan} {y : Except PyError Unit},
      plan.totalRows = table.rows.length →
      plan.expiredRows = (table.rows.filter (expired job checked)).length →
      (carryOut L job checked plan).Ends sem s y t →
      Enforced sem job checked (y = .ok ()) table s t := by
    intro plan y htotal hexpired h
    unfold carryOut at h
    split_ifs at h with happly
    · obtain ⟨new, hnew, htrim, hrows⟩ := ends_applyPlan hsem htable htotal hexpired h
      exact ⟨⟨new, hnew, htrim, fun _ => hrows⟩, fun hdry => absurd happly (by rw [hdry]; decide)⟩
    · obtain ⟨new, hnew, htrim⟩ := trims_of_only hsem (only_trims_recordPlan _) h table htable
      refine ⟨⟨new, hnew, htrim, fun h => absurd h happly⟩, fun _ uri hne => ?_⟩
      have honly : Only (fun s t : World F => ∀ uri ≠ job.auditTableUri, t.tables uri = s.tables uri)
          (recordPlan L job plan.batches) :=
        only_recordPlan (fun _ _ _ => rfl) (fun rows => .mono (fun _ _ h _ => h.tables_of_ne)
          (only_adds_appendRows L _ rows _ _ _ _ fun _ _ _ _ => trivial)) _
      exact Prog.Obeys.ends (fun _ _ _ => rfl) (fun h h' u hu => (h' u hu).trans (h u hu)) honly
        (h.mono hsem) uri hne
  obtain ⟨plan, s₁, hplan, hrest⟩ | ⟨e, rfl, hplan⟩ := ends_bind h
  · obtain ⟨rfl, hcounts⟩ := ends_planRetention hsem hplan
    obtain ⟨cur, hcur, htotal, hexpired⟩ := hcounts plan rfl
    obtain rfl := Option.mem_unique hcur htable
    obtain ⟨_, s₂, hout, hret⟩ | ⟨e, rfl, hout⟩ := ends_bind hrest
    · obtain ⟨rfl, rfl⟩ := ends_ret.1 hret
      obtain ⟨⟨new, hnew, htrim, hrows⟩, hdry⟩ := hcarry htotal hexpired hout
      exact ⟨⟨new, hnew, htrim, fun happly _ => hrows happly rfl⟩, hdry⟩
    · obtain ⟨⟨new, hnew, htrim, -⟩, hdry⟩ := hcarry htotal hexpired hout
      exact ⟨⟨new, hnew, htrim, fun _ ⟨_, h⟩ => nomatch h⟩, hdry⟩
  · obtain ⟨rfl, -⟩ := ends_planRetention hsem hplan
    exact .unchanged htable fun ⟨_, h⟩ => nomatch h

/-- The reference time changes nothing, and is the job's where it has one. -/
theorem ends_referenceTime {x : Except PyError ℤ} (h : (referenceTime job).Ends sem s x t) :
    t = s ∧ ∀ checked, x = .ok checked → ∀ reference ∈ job.reference, checked = reference := by
  unfold referenceTime at h
  cases hr : job.reference with
  | some reference =>
    rw [hr] at h
    obtain ⟨rfl, rfl⟩ := ends_ret.1 h
    exact ⟨rfl, fun _ hx _ hr => (Except.ok.inj hx).symm.trans (Option.some.inj hr)⟩
  | none =>
    rw [hr] at h
    exact ⟨((hsem _ _ _ _ (ends_op.1 h)).read rfl).1, fun _ _ _ hr => nomatch hr⟩

/-- **Retention deletes only and exactly expired rows.** However a run ends,
the rows it removed are beyond the cold horizon at its reference time,
every other row is still there, and the append-only property is what it
was where it can be set; where an applied run returns, the rows removed are
the expired ones. Without `apply` no table but the audit table changes. -/
theorem enforceRetention_removes {table : Table F} {older : List (Table F)}
    (hw : w.tables job.tableUri = table :: older) {x : Except PyError RetentionPlan}
    (h : (enforceRetention L job).Ends sem w x w') :
    ∃ checked, (∀ reference ∈ job.reference, checked = reference) ∧
      Enforced sem job checked (∃ plan, x = .ok plan) table w w' := by
  have htable : table ∈ (w.tables job.tableUri).head? := by
    rw [hw]
    rfl
  -- where the run ends before it plans, no row is gone
  have hstill : ∀ {e : PyError}, ∃ checked, (∀ reference ∈ job.reference, checked = reference) ∧
      Enforced sem job checked (∃ plan, (.error e : Except PyError RetentionPlan) = .ok plan)
        table w w :=
    ⟨job.reference.getD 0, fun _ hr => by rw [Option.mem_def.1 hr]; rfl,
      .unchanged htable fun ⟨_, h⟩ => nomatch h⟩
  unfold enforceRetention at h
  split_ifs at h
  · obtain ⟨rfl, rfl⟩ := ends_raise.1 h
    exact hstill
  obtain ⟨_, -, hrest⟩ | ⟨e, -, rfl, rfl⟩ := ends_lift_bind h
  · obtain ⟨checked, s₁, htime, hrun⟩ | ⟨e, rfl, htime⟩ := ends_bind hrest
    · obtain ⟨rfl, hreference⟩ := ends_referenceTime hsem htime
      exact ⟨checked, hreference checked rfl, ends_enforceAt hsem htable hrun⟩
    · obtain ⟨rfl, -⟩ := ends_referenceTime hsem htime
      exact hstill
  · exact hstill

end Runs

/-! ## A quoted key -/

/-- An event and its day. -/
def ageing (eventId : String) (days : ℤ) : Row Decimal :=
  [("event_id", .text (lit eventId)), ("occurred_at", .instant (days * RetentionPolicy.day))]

/-- Events of the epoch, one of them under a key with a quote, and one of
ten years later. -/
def agedTable : Table Decimal where
  version := 4
  appendOnly := true
  mergeWritten := true
  columns := ["event_id", "occurred_at"]
  rows := [ageing "O'Neil" 0, ageing "e2" 3650, ageing "e3" 0]

def agedWorld : World Decimal where
  tables uri := if uri = lit "/srv/events" then [agedTable] else []
  deadLetters := []
  commits := []
  files _ := none
  clock := 0

/-- Seven years of retention, eleven years after the epoch. -/
def sevenYears (apply : Bool) : Job where
  tableUri := lit "/srv/events"
  policy := ⟨30, 7, hot_thirty, cold_seven, thirty_days_before_seven_years⟩
  auditTableUri := lit "/srv/audit"
  apply := apply
  archiveUri := some (lit "/srv/archive")
  operator := lit "ops"
  reference := some (4015 * RetentionPolicy.day)
  keyColumn := "event_id"
  timeColumn := "occurred_at"

/-- Of two events, one past its seven years, the other stays. -/
theorem enforceRetention_removes_quoted : ∃ plan new newer w',
    (enforceRetention Library.ascii (sevenYears true)).run (Engine.plain Decimal).handle agedWorld =
        (.ok plan, w') ∧
      w'.tables (lit "/srv/events") = new :: newer ∧ new.rows = [ageing "e2" 3650] ∧
      new.appendOnly = true := by
  have hok : ((enforceRetention Library.ascii (sevenYears true)).run (Engine.plain Decimal).handle
      agedWorld).1.toOption.isSome = true := by decide +kernel
  obtain ⟨plan, hplan⟩ := Option.isSome_iff_exists.1 hok
  generalize hrun : (enforceRetention Library.ascii (sevenYears true)).run
    (Engine.plain Decimal).handle agedWorld = run at hplan
  obtain ⟨x, w'⟩ := run
  obtain rfl := toOption_eq_some.1 hplan
  have hsem : ∀ (o : Op Decimal) s r t, (Engine.plain Decimal).handle o s = (r, t) →
      World.Performs o s r t := by
    rintro o s r t h
    have hp := (Engine.plain Decimal).performs_handle o s
    rwa [h] at hp
  obtain ⟨checked, hreference, ⟨new, hnew, htrim, hrows⟩, -⟩ :=
    enforceRetention_removes hsem (rfl : agedWorld.tables (lit "/srv/events") = [agedTable])
      (ends_handler.2 hrun)
  obtain ⟨newer, hnewer⟩ := List.head?_eq_some_iff.1 hnew
  refine ⟨plan, new, newer, w', rfl, hnewer, ?_, htrim.appendOnly ?_⟩
  · rw [hrows rfl ⟨plan, rfl⟩, hreference _ rfl]
    decide +kernel
  · intro uri value s r u hne hset
    obtain ⟨t, older, ht⟩ := List.exists_cons_of_ne_nil hne
    rw [Engine.handle, ht] at hset
    exact (congrArg Prod.fst hset).symm

end Retention

end Lakehouse

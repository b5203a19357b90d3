import Lakehouse.Bluecarbon.Redelivery
import Lakehouse.Common.Dict
import Lakehouse.Common.Exact
import Mathlib.Algebra.Order.BigOperators.Group.List
/-!
# Credits are conserved

The totals of a project are those of its credit blocks, each taken as its
latest event has it: a block is issued in one vintage of one project, and
is active, retired or cancelled there. What is issued and neither retired
nor cancelled is what is active, and the buffer is a part of that
(`registry_conserved`).
-/

namespace Lakehouse

namespace Bluecarbon

open Ingest

variable {F : Type} [PyFloat F] [LawfulFloat F]

/-! ## Blocks and totals -/

def activeStatus : Text := lit "ACTIVE"
def retiredStatus : Text := lit "RETIRED"
def cancelledStatus : Text := lit "CANCELLED"

/-- What some blocks add up to. -/
def total (blocks : List (CreditBlock F)) : ℚ :=
  (blocks.map fun b => LawfulFloat.val b.quantity).sum

omit [PyFloat F] [LawfulFloat F] in
/-- The blocks of a status. -/
def withStatus (status : Text) (blocks : List (CreditBlock F)) : List (CreditBlock F) :=
  blocks.filter fun b => b.status = status

/-- The blocks of a vintage. -/
def ofVintage (vintage : Text) (blocks : List (CreditBlock F)) : List (CreditBlock F) :=
  blocks.filter fun b => b.vintage = vintage

/-- The active blocks of the buffer pool. -/
def buffered (blocks : List (CreditBlock F)) : List (CreditBlock F) :=
  (withStatus activeStatus blocks).filter CreditBlock.isBuffer

/-- A block with a quantity that is not negative and one of the three
statuses. -/
structure CreditBlock.Valid (b : CreditBlock F) : Prop where
  finite : PyFloat.isFinite b.quantity = true
  nonneg : 0 ≤ LawfulFloat.val b.quantity
  status : b.status = activeStatus ∨ b.status = retiredStatus ∨ b.status = cancelledStatus

/-- **The totals of some blocks**. -/
structure Totals.Of (totals : Totals F) (blocks : List (CreditBlock F)) : Prop where
  issued : Amount totals.issued (total blocks)
  retired : Amount totals.retired (total (withStatus retiredStatus blocks))
  cancelled : Amount totals.cancelled (total (withStatus cancelledStatus blocks))

/-- **The totals of a project's blocks**: those of each vintage, and the
buffer. -/
structure BlockTotals.Of (totals : BlockTotals F) (blocks : List (CreditBlock F)) : Prop where
  distinct : totals.vintages.Distinct
  listed : ∀ vintage, totals.vintages.get vintage = none ↔ ofVintage vintage blocks = []
  vintage : ∀ vintage, ((totals.vintages.get vintage).getD ⟨zero, zero, zero⟩).Of
    (ofVintage vintage blocks)
  buffer : Amount totals.bufferBalance (total (buffered blocks))

variable {b : CreditBlock F} {blocks : List (CreditBlock F)}

/-- The total of two lists. -/
theorem total_append (blocks later : List (CreditBlock F)) :
    total (blocks ++ later) = total blocks + total later := by
  rw [total, List.map_append, List.sum_append]
  rfl

/-- The total of one block is its quantity. -/
theorem total_singleton (b : CreditBlock F) : total [b] = LawfulFloat.val b.quantity := by
  rw [total, List.map_singleton, List.sum_singleton]

/-- The order of the blocks does not matter to their total. -/
theorem total_perm {blocks' : List (CreditBlock F)} (h : blocks.Perm blocks') :
    total blocks = total blocks' := (h.map _).sum_eq

/-- Valid blocks have no negative total. -/
theorem total_nonneg (h : ∀ b ∈ blocks, b.Valid) : 0 ≤ total blocks := by
  refine List.sum_nonneg fun q hq => ?_
  obtain ⟨b, hb, rfl⟩ := List.mem_map.1 hq
  exact (h b hb).nonneg

/-- **Each block counts under one status.** -/
theorem total_eq (h : ∀ b ∈ blocks, b.Valid) :
    total blocks = total (withStatus activeStatus blocks) +
      total (withStatus retiredStatus blocks) + total (withStatus cancelledStatus blocks) := by
  induction blocks with
  | nil => simp [withStatus, total]
  | cons b blocks ih =>
    obtain ⟨hb, hblocks⟩ := List.forall_mem_cons.1 h
    have hstatus : ∀ status, total (withStatus status (b :: blocks)) =
        (if b.status = status then LawfulFloat.val b.quantity else 0) +
          total (withStatus status blocks) := by
      intro status
      unfold withStatus
      rw [List.filter_cons]
      by_cases hs : b.status = status
      · rw [if_pos (by simpa using hs), if_pos hs, total, List.map_cons, List.sum_cons]
        rfl
      · rw [if_neg (by simpa using hs), if_neg hs, zero_add]
    have hcons : total (b :: blocks) = LawfulFloat.val b.quantity + total blocks := by
      rw [total, List.map_cons, List.sum_cons]
      rfl
    rw [hcons, ih hblocks, hstatus, hstatus, hstatus]
    have hactive : activeStatus ≠ retiredStatus ∧ activeStatus ≠ cancelledStatus := by decide
    have hretired : retiredStatus ≠ cancelledStatus := by decide
    obtain hs | hs | hs := hb.status
    · rw [hs, if_pos rfl, if_neg hactive.1, if_neg hactive.2]
      ring
    · rw [hs, if_neg hactive.1.symm, if_pos rfl, if_neg hretired]
      ring
    · rw [hs, if_neg hactive.2.symm, if_neg hretired.symm, if_pos rfl]
      ring

/-! ## One block more -/

omit [PyFloat F] [LawfulFloat F] in
/-- The blocks of a status, with one block more. -/
theorem withStatus_concat (status : Text) (blocks : List (CreditBlock F)) (b : CreditBlock F) :
    withStatus status (blocks ++ [b]) =
      withStatus status blocks ++ if b.status = status then [b] else [] := by
  rw [withStatus, List.filter_append]
  split_ifs with hs <;> simp [withStatus, hs]

omit [PyFloat F] [LawfulFloat F] in
/-- The blocks of a vintage, with one block more. -/
theorem ofVintage_concat (vintage : Text) (blocks : List (CreditBlock F)) (b : CreditBlock F) :
    ofVintage vintage (blocks ++ [b]) =
      ofVintage vintage blocks ++ if b.vintage = vintage then [b] else [] := by
  rw [ofVintage, List.filter_append]
  split_ifs with hs <;> simp [ofVintage, hs]

omit [PyFloat F] [LawfulFloat F] in
/-- The buffered blocks, with one block more. -/
theorem buffered_concat (blocks : List (CreditBlock F)) (b : CreditBlock F) :
    buffered (blocks ++ [b]) =
      buffered blocks ++ if b.isBuffer = true ∧ b.status = activeStatus then [b] else [] := by
  rw [buffered, withStatus_concat, List.filter_append]
  split_ifs with hs hboth hboth
  · simp [buffered, hboth.1]
  · have hbuffer : b.isBuffer = false := by simpa [hs] using hboth
    simp [buffered, hbuffer]
  · exact absurd hboth.2 hs
  · simp [buffered]

section Exact

variable [ExactSum F]

/-- A quantity added to a float that amounts to the total. -/
theorem amount_concat {x : F} (h : Amount x (total blocks)) (hb : PyFloat.isFinite b.quantity = true) :
    Amount (PyFloat.add x b.quantity) (total (blocks ++ [b])) := by
  rw [total_append, total_singleton]
  exact Amount.add h ⟨hb, rfl⟩

/-- The totals of a vintage after a block. -/
def Totals.add (totals : Totals F) (block : CreditBlock F) : Totals F :=
  if block.status = retiredStatus then
    ⟨PyFloat.add totals.issued block.quantity, PyFloat.add totals.retired block.quantity,
      totals.cancelled⟩
  else if block.status = cancelledStatus then
    ⟨PyFloat.add totals.issued block.quantity, totals.retired,
      PyFloat.add totals.cancelled block.quantity⟩
  else ⟨PyFloat.add totals.issued block.quantity, totals.retired, totals.cancelled⟩

/-- The buffer after a block. -/
def addBuffer (balance : F) (block : CreditBlock F) : F :=
  if block.isBuffer then
    PyFloat.add balance (if block.status = activeStatus then block.quantity else zero)
  else balance

omit [LawfulFloat F] [ExactSum F] in
/-- A block is added to its vintage, the buffer and the sources. -/
theorem addCreditBlock_eq (existing : Option (BlockTotals F)) (block : CreditBlock F) :
    addCreditBlock existing block = .ok
      ⟨(existing.getD ⟨[], zero, []⟩).vintages.set block.vintage
          ((((existing.getD ⟨[], zero, []⟩).vintages.get block.vintage).getD
            ⟨zero, zero, zero⟩).add block),
        addBuffer (existing.getD ⟨[], zero, []⟩).bufferBalance block,
        (existing.getD ⟨[], zero, []⟩).sources ++ [block.eventId]⟩ := rfl

/-- The totals of one block more. -/
theorem Totals.Of.add {totals : Totals F} (h : totals.Of blocks)
    (hb : PyFloat.isFinite b.quantity = true) : (totals.add b).Of (blocks ++ [b]) := by
  have hretired : retiredStatus ≠ cancelledStatus := by decide
  unfold Totals.add
  split_ifs with hr hc
  · refine ⟨amount_concat h.issued hb, ?_, ?_⟩
    · rw [withStatus_concat, if_pos hr]
      exact amount_concat h.retired hb
    · rw [withStatus_concat, if_neg (by rw [hr]; exact hretired), List.append_nil]
      exact h.cancelled
  · refine ⟨amount_concat h.issued hb, ?_, ?_⟩
    · rw [withStatus_concat, if_neg hr, List.append_nil]
      exact h.retired
    · rw [withStatus_concat, if_pos hc]
      exact amount_concat h.cancelled hb
  · refine ⟨amount_concat h.issued hb, ?_, ?_⟩
    · rw [withStatus_concat, if_neg hr, List.append_nil]
      exact h.retired
    · rw [withStatus_concat, if_neg hc, List.append_nil]
      exact h.cancelled

/-- The buffer balance of one block more. -/
theorem amount_addBuffer {balance : F} (h : Amount balance (total (buffered blocks)))
    (hb : PyFloat.isFinite b.quantity = true) :
    Amount (addBuffer balance b) (total (buffered (blocks ++ [b]))) := by
  rw [buffered_concat]
  unfold addBuffer
  split_ifs with hbuffer hactive hboth hboth hboth
  · exact amount_concat h hb
  · exact absurd ⟨hbuffer, hactive⟩ hboth
  · exact absurd hboth.2 hactive
  · rw [List.append_nil, ← add_zero (total _)]
    exact Amount.add h .zero
  · exact absurd hboth.1 hbuffer
  · rwa [List.append_nil]

omit [ExactSum F] in
/-- The totals of no block. -/
theorem Totals.Of.nil : (⟨zero, zero, zero⟩ : Totals F).Of [] := ⟨.zero, .zero, .zero⟩

/-- **One block more** is one more in its vintage, and in the buffer where
it belongs there. -/
theorem BlockTotals.Of.add {existing : Option (BlockTotals F)} {next : BlockTotals F}
    (h : (existing.getD ⟨[], zero, []⟩).Of blocks) (hb : PyFloat.isFinite b.quantity = true)
    (hnext : addCreditBlock existing b = .ok next) : next.Of (blocks ++ [b]) := by
  rw [addCreditBlock_eq] at hnext
  cases hnext
  refine ⟨h.distinct.set _ _, fun vintage => ?_, fun vintage => ?_, amount_addBuffer h.buffer hb⟩
  · simp only [Members.get_set, ofVintage_concat]
    by_cases hv : vintage = b.vintage
    · simp [hv]
    · rw [if_neg hv, if_neg (Ne.symm hv), List.append_nil]
      exact h.listed vintage
  · simp only [Members.get_set, ofVintage_concat]
    by_cases hv : vintage = b.vintage
    · rw [if_pos hv, if_pos hv.symm, hv]
      exact (h.vintage b.vintage).add hb
    · rw [if_neg hv, if_neg (Ne.symm hv), List.append_nil]
      exact h.vintage vintage

/-- **The totals of a project** after all its blocks. -/
theorem BlockTotals.of_fold {totals : Option (BlockTotals F)}
    (h : foldGroup addCreditBlock none blocks = .ok totals)
    (hfinite : ∀ b ∈ blocks, PyFloat.isFinite b.quantity = true) :
    (totals.getD ⟨[], zero, []⟩).Of blocks := by
  refine foldGroup_induct (P := fun done (t : Option (BlockTotals F)) =>
    (∀ b ∈ done, PyFloat.isFinite b.quantity = true) → (t.getD ⟨[], zero, []⟩).Of done)
    (fun _ => ⟨Members.distinct_nil, fun _ => by simp [ofVintage, Members.get], fun _ => .nil, .zero⟩)
    (fun done t b d hP hd hdone => ?_) h hfinite
  obtain ⟨hdone, hb⟩ := List.forall_mem_append.1 hdone
  exact (hP hdone).add (hb b (List.mem_singleton.2 rfl)) hd

/-! ## What the totals of a project say -/

/-- What is left of a vintage. -/
def Totals.balance (totals : Totals F) : ℚ :=
  LawfulFloat.val totals.issued - LawfulFloat.val totals.retired - LawfulFloat.val totals.cancelled

/-- **Credits conserved** by the totals of some blocks. -/
structure Conserves (blocks : List (CreditBlock F)) (vintages : Members (Totals F)) (buffer : F) :
    Prop where
  /-- A block counts in one vintage. -/
  vintage : ∀ b ∈ blocks, ∃! v, v ∈ vintages ∧ v.1 = b.vintage
  totals : ∀ v ∈ vintages, v.2.Of (ofVintage v.1 blocks)
  nonneg : ∀ v ∈ vintages, 0 ≤ LawfulFloat.val v.2.issued ∧ 0 ≤ LawfulFloat.val v.2.retired ∧
    0 ≤ LawfulFloat.val v.2.cancelled
  movements : ∀ v ∈ vintages,
    LawfulFloat.val v.2.retired + LawfulFloat.val v.2.cancelled ≤ LawfulFloat.val v.2.issued
  balance : (vintages.map fun v => v.2.balance).sum = total (withStatus activeStatus blocks)
  buffer_finite : PyFloat.isFinite buffer = true
  buffer_nonneg : 0 ≤ LawfulFloat.val buffer
  buffer_le : LawfulFloat.val buffer ≤ total (withStatus activeStatus blocks)

omit [PyFloat F] [LawfulFloat F] [ExactSum F] in
/-- Some of the valid blocks are valid. -/
theorem valid_of_subset [PyFloat F] [LawfulFloat F] {some : List (CreditBlock F)}
    (h : ∀ b ∈ blocks, b.Valid) (hsub : some ⊆ blocks) : ∀ b ∈ some, b.Valid :=
  fun b hb => h b (hsub hb)

omit [ExactSum F] in
/-- What is issued and neither retired nor cancelled is active. -/
theorem Totals.Of.balance_eq {totals : Totals F} (h : totals.Of blocks) (hvalid : ∀ b ∈ blocks, b.Valid) :
    totals.balance = total (withStatus activeStatus blocks) := by
  rw [Totals.balance, h.issued.2, h.retired.2, h.cancelled.2, total_eq hvalid]
  ring

omit [PyFloat F] [LawfulFloat F] [ExactSum F] in
/-- A status and a vintage select in either order. -/
theorem withStatus_ofVintage (status vintage : Text) (blocks : List (CreditBlock F)) :
    withStatus status (ofVintage vintage blocks) = ofVintage vintage (withStatus status blocks) := by
  rw [withStatus, ofVintage, ofVintage, withStatus, List.filter_comm]

omit [LawfulFloat F] [ExactSum F] in
/-- The total of groups is the sum of their totals. -/
theorem total_flatten [LawfulFloat F] (groups : List (List (CreditBlock F))) :
    total groups.flatten = (groups.map total).sum := by
  rw [total, List.map_flatten, List.sum_flatten, List.map_map]
  rfl

omit [ExactSum F] in
/-- **What the totals of a project conserve**, in whatever order its
vintages stand. -/
theorem BlockTotals.Of.conserves {totals : BlockTotals F} (h : totals.Of blocks)
    (hvalid : ∀ b ∈ blocks, b.Valid) {vintages : Members (Totals F)}
    (hp : vintages.Perm totals.vintages) : Conserves blocks vintages totals.bufferBalance := by
  have hkeys : (vintages.map Prod.fst).Nodup := (hp.map Prod.fst).nodup_iff.2 h.distinct
  -- every block has a row of its vintage
  have hlisted : ∀ b ∈ blocks, ∃ v, v ∈ vintages ∧ v.1 = b.vintage := by
    intro b hb
    have hne : totals.vintages.get b.vintage ≠ none := by
      rw [Ne, h.listed, ofVintage, List.filter_eq_nil_iff]
      exact fun hnone => hnone b hb (decide_eq_true rfl)
    obtain ⟨t, ht⟩ := Option.ne_none_iff_exists'.1 hne
    exact ⟨(b.vintage, t), hp.mem_iff.2 (Members.mem_of_get ht), rfl⟩
  have htotals : ∀ v ∈ vintages, v.2.Of (ofVintage v.1 blocks) := by
    intro v hv
    have hof := h.vintage v.1
    rw [(Members.get_eq_some h.distinct).2 (hp.mem_iff.1 hv)] at hof
    exact hof
  have hof : ∀ {vintage}, ∀ b ∈ ofVintage vintage blocks, b.Valid :=
    valid_of_subset hvalid List.filter_sublist.subset
  have hstatus : ∀ vintage status, 0 ≤ total (withStatus status (ofVintage vintage blocks)) :=
    fun _ status => total_nonneg (valid_of_subset hof List.filter_sublist.subset)
  have hbuffer : total (withStatus activeStatus blocks) = total (buffered blocks) +
      total ((withStatus activeStatus blocks).filter fun b => !b.isBuffer) := by
    rw [buffered, ← total_append]
    exact total_perm (List.filter_append_perm _ _).symm
  refine ⟨fun b hb => ?_, htotals, fun v hv => ?_, fun v hv => ?_, ?_, h.buffer.1, ?_, ?_⟩
  · obtain ⟨v, hv, hvb⟩ := hlisted b hb
    exact ⟨v, ⟨hv, hvb⟩, fun w hw => List.inj_on_of_nodup_map hkeys hw.1 hv (hw.2.trans hvb.symm)⟩
  · rw [(htotals v hv).issued.2, (htotals v hv).retired.2, (htotals v hv).cancelled.2]
    exact ⟨total_nonneg hof, hstatus _ _, hstatus _ _⟩
  · have hactive := hstatus v.1 activeStatus
    rw [(htotals v hv).issued.2, (htotals v hv).retired.2, (htotals v hv).cancelled.2, total_eq hof]
    linarith
  -- the active blocks, vintage by vintage
  · have hgroups : (vintages.map fun v => v.2.balance) = ((vintages.map Prod.fst).map fun vintage =>
        ofVintage vintage (withStatus activeStatus blocks)).map total := by
      rw [List.map_map, List.map_map]
      refine List.map_congr_left fun v hv => ?_
      rw [(htotals v hv).balance_eq hof, withStatus_ofVintage]
      rfl
    rw [hgroups, ← total_flatten, ← List.flatMap_def]
    refine total_perm (Dict.flatMap_filter_perm hkeys fun b hb => ?_)
    obtain ⟨v, hv, hvb⟩ := hlisted b (List.mem_filter.1 hb).1
    exact List.mem_map.2 ⟨v, hv, hvb⟩
  · rw [h.buffer.2]
    exact total_nonneg (valid_of_subset hvalid
      (List.filter_sublist.trans List.filter_sublist).subset)
  · rw [h.buffer.2, hbuffer]
    have hrest : 0 ≤ total ((withStatus activeStatus blocks).filter fun b => !b.isBuffer) :=
      total_nonneg (valid_of_subset hvalid
        (List.filter_sublist.trans List.filter_sublist).subset)
    linarith

end Exact

/-! ## The blocks of a content -/

/-- A block of a project, as its latest event has it. -/
structure LedgerEntry (F : Type) where
  blockId : Text
  projectId : Text
  block : CreditBlock F

/-- The blocks of a project. -/
def blocksOf (ledger : List (LedgerEntry F)) (projectId : Text) : List (CreditBlock F) :=
  (ledger.filter fun e => e.projectId = projectId).map LedgerEntry.block

/-- **A credit block as its latest event has it**: the first of the latest
events of the block, read. -/
def LatestBlock (L : Library) (events : List (Row F)) (e : LedgerEntry F) : Prop :=
  ∃ latest, FirstGreatest Latest.order
      (candidates creditBlockEventType (lit "blockId") events e.blockId) latest ∧
    creditBlockEntry L (e.blockId, latest) = .ok (some (e.projectId, e.block))

variable {L : Library} {events : List (Row F)} {curatedAt : ℤ}

/-- The blocks of a dict of latest events. -/
def ledgerOf (L : Library) (blocks : Members (Latest F)) : List (LedgerEntry F) :=
  blocks.filterMap fun p => (creditBlockEntry L p).toOption.join.map fun e => ⟨p.1, e.1, e.2⟩

omit [LawfulFloat F] in
/-- What the pass adds to a project is its blocks in the ledger. -/
theorem entriesOf_creditBlockEntry (blocks : Members (Latest F)) (projectId : Text) :
    entriesOf (creditBlockEntry L) blocks projectId = blocksOf (ledgerOf L blocks) projectId := by
  induction blocks with
  | nil => rfl
  | cons p blocks ih =>
    rw [ledgerOf, List.filterMap_cons, entriesOf, entries, List.filterMap_cons]
    cases (creditBlockEntry L p).toOption.join with
    | none => exact ih
    | some e =>
      rw [Option.map_some, blocksOf]
      by_cases he : e.1 = projectId
      · rw [List.filter_cons_of_pos (by simpa using he), List.filter_cons_of_pos (by simpa using he)]
        exact congrArg _ ih
      · rw [List.filter_cons_of_neg (by simpa using he), List.filter_cons_of_neg (by simpa using he)]
        exact ih

omit [LawfulFloat F] in
/-- The ledger has the blocks that are read. -/
theorem mem_ledgerOf {blocks : Members (Latest F)} {e : LedgerEntry F} :
    e ∈ ledgerOf L blocks ↔ ∃ latest, (e.blockId, latest) ∈ blocks ∧
      creditBlockEntry L (e.blockId, latest) = .ok (some (e.projectId, e.block)) := by
  rw [ledgerOf, List.mem_filterMap]
  constructor
  · rintro ⟨⟨blockId, latest⟩, hp, he⟩
    obtain ⟨x, hx, rfl⟩ := Option.map_eq_some_iff.1 he
    refine ⟨latest, hp, ?_⟩
    cases hread : creditBlockEntry L (blockId, latest) with
    | error e => rw [hread] at hx; cases hx
    | ok q =>
      rw [hread] at hx
      exact congrArg Except.ok hx
  · rintro ⟨latest, hp, hread⟩
    refine ⟨_, hp, ?_⟩
    rw [hread]
    rfl

omit [LawfulFloat F] in
/-- No block stands in the ledger twice. -/
theorem nodup_ledgerOf {blocks : Members (Latest F)} (h : blocks.Distinct) :
    ((ledgerOf L blocks).map LedgerEntry.blockId).Nodup := by
  refine List.pairwise_map.2 (List.pairwise_filterMap.2 ((List.pairwise_map.1 h).imp ?_))
  intro p q hne e he e' he'
  obtain ⟨x, -, rfl⟩ := Option.map_eq_some_iff.1 he
  obtain ⟨x', -, rfl⟩ := Option.map_eq_some_iff.1 he'
  exact hne

/-- **A block that is read is valid**, where its quantity is finite. -/
theorem creditBlockEntry_valid [ExactSum F] {p : Text × Latest F} {projectId : Text}
    {block : CreditBlock F} (h : creditBlockEntry L p = .ok (some (projectId, block)))
    (hfinite : PyFloat.isFinite block.quantity = true) : block.Valid := by
  obtain ⟨_, -, h⟩ := bind_eq_ok.1 h
  obtain ⟨_, -, h⟩ := bind_eq_ok.1 h
  obtain ⟨status, -, h⟩ := bind_eq_ok.1 h
  obtain ⟨hstatus, h⟩ := guard_eq_ok.1 h
  obtain ⟨quantity, hquantity, h⟩ := bind_eq_ok.1 h
  cases h
  refine ⟨hfinite, ?_, ?_⟩
  · have hzero : PyFloat.isFinite (PyFloat.ofInt 0 : F) = true := LawfulFloat.finite_ofInt (by decide)
    unfold requireQuantity at hquantity
    simp only at hquantity hfinite ⊢
    split at hquantity
    · split_ifs at hquantity with hneg hok
      cases hquantity
      rw [ExactSum.val_ofInt hok]
      exact Int.cast_nonneg (not_lt.1 hneg)
    · split_ifs at hquantity with hneg
      cases hquantity
      rw [Bool.not_eq_true, PyFloat.lt_eq_false_iff hfinite hzero, Amount.zero.2] at hneg
      exact hneg
    · cases hquantity
  · have hmem := not_not.1 hstatus
    simp only [creditBlockStatuses, List.mem_cons, List.not_mem_nil, or_false] at hmem
    obtain hs | hs | hs := hmem
    · exact Or.inl hs
    · exact Or.inr (Or.inr hs)
    · exact Or.inr (Or.inl hs)

omit [LawfulFloat F] in
/-- The rows are those of the projects. -/
theorem projectIds_eq {totals : Members (BlockTotals F)} {retirements : Members (Retirements F)}
    {projects : List (Text × Latest F)} {rows : List (Row F)}
    (h : List.Forall₂ (fun p row => registryRow curatedAt totals retirements p = .ok row)
      projects rows) :
    (rows.map fun row => row.get "project_id") = projects.map fun p => Cell.text p.1 := by
  induction h with
  | nil => rfl
  | cons hrow _ ih =>
    obtain ⟨_, _, -, -, hid, -⟩ := registryRow_eq_ok hrow
    rw [List.map_cons, List.map_cons, hid, ih]

variable (L) in
/-- **Rows that conserve the credits of a content.** There is one ledger of
the latest blocks, each under one project; every project of the content, and
no other, has a row, and it has one, which says of its blocks what they add
up to. -/
def CreditsConserved (events rows : List (Row F)) : Prop :=
  ∃ ledger : List (LedgerEntry F), (ledger.map LedgerEntry.blockId).Nodup ∧
    (∀ e, e ∈ ledger ↔ LatestBlock L events e) ∧
    (∀ projectId, Cell.text projectId ∈ rows.map (fun row => row.get "project_id") ↔
      candidates projectEventType (lit "projectId") events projectId ≠ []) ∧
    (rows.map fun row => row.get "project_id").Nodup ∧
    ∀ row ∈ rows, ∃ projectId vintages json buffer, row.get "project_id" = .text projectId ∧
      row.get "vintage_totals_json" = .text json ∧
      dumps { compact := true } (.arr (vintages.map fun v => v.2.doc v.1)) = .ok json ∧
      row.get "buffer_balance_kg_co2e" = .float buffer ∧
      Conserves (blocksOf ledger projectId) vintages buffer

/-- **The rows of an accepted content conserve its credits.** -/
theorem registry_conserved [ExactSum F] {rows : List (Row F)}
    (h : buildPublicRegistryRows L events curatedAt = .ok rows)
    (hfinite : ∀ e, LatestBlock L events e → PyFloat.isFinite e.block.quantity = true) :
    CreditsConserved L events rows := by
  obtain ⟨projects, hprojects, h⟩ := bind_eq_ok.1 h
  obtain ⟨blocks, hblocks, h⟩ := bind_eq_ok.1 h
  obtain ⟨retirements, -, h⟩ := bind_eq_ok.1 h
  obtain ⟨totals, htotals, h⟩ := bind_eq_ok.1 h
  have hdistinct : blocks.Distinct := groupPass_distinct Members.distinct_nil hblocks
  have hprojectsDistinct : projects.Distinct := groupPass_distinct Members.distinct_nil hprojects
  have hsorted : Members.Distinct (sortBy Prod.fst blocks) :=
    ((perm_sortBy _ _).map Prod.fst).nodup_iff.2 hdistinct
  -- the entries of the ledger are the latest blocks
  have hledger : ∀ e, e ∈ ledgerOf L (sortBy Prod.fst blocks) ↔ LatestBlock L events e := by
    intro e
    rw [mem_ledgerOf, LatestBlock]
    refine exists_congr fun latest => and_congr_left fun _ => ?_
    rw [mem_sortBy, ← Members.get_eq_some hdistinct]
    exact (latestEventsByKey_keeps hblocks e.blockId).eq_some
  have hvalid : ∀ projectId, ∀ b ∈ blocksOf (ledgerOf L (sortBy Prod.fst blocks)) projectId,
      b.Valid := by
    intro projectId b hb
    obtain ⟨e, he, rfl⟩ := List.mem_map.1 hb
    have hlatest := (hledger e).1 (List.mem_filter.1 he).1
    have hread := hlatest.choose_spec.2
    exact creditBlockEntry_valid hread (hfinite e hlatest)
  -- the totals kept for a project are sums over its entries
  have hof : ∀ projectId, ((totals.get projectId).getD ⟨[], zero, []⟩).Of
      (blocksOf (ledgerOf L (sortBy Prod.fst blocks)) projectId) := by
    intro projectId
    have hget := groupPass_get htotals projectId
    rw [entriesOf_creditBlockEntry] at hget
    exact BlockTotals.of_fold hget fun b hb => (hvalid projectId b hb).finite
  have hrows := collect_eq_ok.1 h
  rw [List.forall₂_map_left_iff] at hrows
  refine ⟨_, nodup_ledgerOf hsorted, hledger, fun projectId => ?_, ?_, fun row hrow => ?_⟩
  -- the rows are those of the projects, one for each
  · rw [ne_eq, projectIds_eq hrows, ← (latestEventsByKey_keeps hprojects projectId).eq_none.not,
      Members.get_eq_none, not_not]
    simp [List.mem_map]
  · rw [projectIds_eq hrows]
    have hkeys : ((sortBy Prod.fst projects).map Prod.fst).Nodup :=
      ((perm_sortBy _ _).map Prod.fst).nodup_iff.2 hprojectsDistinct
    have hcells := hkeys.map (f := (Cell.text : Text → Cell F)) fun a b hab => by cases hab; rfl
    rw [List.map_map] at hcells
    exact hcells
  · obtain ⟨project, -, hproject⟩ := exists_of_forall₂ hrows hrow
    obtain ⟨json, _, hjson, -, hid, hvintages, hbuffer, -⟩ := registryRow_eq_ok hproject
    exact ⟨project.1, _, json, _, hid, hvintages, hjson, hbuffer,
      (hof project.1).conserves (hvalid project.1) (perm_sortBy _ _)⟩

/-- An event of a credit block. -/
def creditBlockEvent (eventId blockId status : String) (occurredAt : ℤ) : Row Decimal :=
  [("event_id", .text (lit eventId)), ("event_type", .text creditBlockEventType),
    ("occurred_at", .instant occurredAt),
    ("payload_json", .text (lit "\x7b\"blockId\":\"" ++ lit blockId ++
      lit "\",\"bufferPool\":true,\"projectId\":\"P-1\",\"quantityKgCo2e\":2.5,\"status\":\"" ++
      lit status ++ lit "\",\"vintage\":\"2025\"\x7d"))]

/-- A project with one block active and one retired after it was. -/
def creditEvents : List (Row Decimal) :=
  [projectEvent "Ada", creditBlockEvent "e1" "B-1" "ACTIVE" 1,
    creditBlockEvent "e2" "B-1" "RETIRED" 2, creditBlockEvent "e3" "B-2" "ACTIVE" 1]

/-- The quantities of the latest blocks are finite. -/
theorem creditEvents_finite (e : LedgerEntry Decimal)
    (h : LatestBlock Library.ascii creditEvents e) : PyFloat.isFinite e.block.quantity = true := by
  have hall : (entries (latestCandidate creditBlockEventType (lit "blockId")) creditEvents).all
      (fun p => ((creditBlockEntry Library.ascii p).toOption.join.map fun q =>
        PyFloat.isFinite q.2.quantity).getD true) = true := by
    decide +kernel
  obtain ⟨latest, hlatest, hread⟩ := h
  obtain ⟨⟨_, _⟩, hp, rfl⟩ := List.mem_map.1 hlatest.mem
  obtain ⟨hmem, hid⟩ := List.mem_filter.1 hp
  rw [← of_decide_eq_true hid] at hread
  have hfinite := List.all_eq_true.1 hall _ hmem
  simp only [hread] at hfinite
  exact hfinite

/-- The rows of a content with a retired block and an active one. -/
theorem registry_conserved_retired : ∃ rows,
    buildPublicRegistryRows Library.ascii creditEvents 0 = .ok rows ∧
      CreditsConserved Library.ascii creditEvents rows := by
  have hok : (buildPublicRegistryRows Library.ascii creditEvents 0).toOption.isSome = true := by
    decide +kernel
  obtain ⟨rows, hrows⟩ := Option.isSome_iff_exists.1 hok
  have hrows := toOption_eq_some.1 hrows
  exact ⟨rows, hrows, registry_conserved hrows creditEvents_finite⟩

end Bluecarbon

end Lakehouse

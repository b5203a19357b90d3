import Lakehouse.Fisheries.Consignment
import Lakehouse.Common.Decimal
/-!
# What a clearance shows

A consignment's record is a function of its own events, and its floor is
at or below a level exactly when all their labels are. So what a reader at
a level is shown depends on the `lowEvents` of that level alone.
-/

namespace Lakehouse

namespace Fisheries

open Ingest

variable {F : Type} [PyFloat F] (L : Library)

/-! ## The events of a level -/

/-- The consignment an event belongs to. -/
def consignmentOf (event : Row F) : Option Text := (sourceEvent L event).toOption.map Prod.fst

/-- The level an event is labelled with; without a label, the highest. -/
def clearanceOf (event : Row F) : Clearance :=
  match event.get "record_classification" with
  | .text label => (Clearance.fromLabel L label).toOption.getD .secret
  | _ => .secret

/-- **The events of the consignments** whose events are all labelled at or
below a level. -/
def lowEvents (c : Clearance) (events : List (Row F)) : List (Row F) :=
  events.filter fun e => ∀ e' ∈ events, consignmentOf L e' = consignmentOf L e → clearanceOf L e' ≤ c

variable {L} {c : Clearance} {events events' : List (Row F)} {consignment : Text}

/-- How the pass decodes an event. -/
abbrev decodeSource (L : Library) (event : Row F) : Except PyError (Option (Text × SourceEvent F)) :=
  some <$> sourceEvent L event

/-- The events of a consignment, as the assembly reads them. -/
theorem entriesOf_source (events : List (Row F)) (consignment : Text) :
    entriesOf (decodeSource L) events consignment =
      (events.filter fun e => consignmentOf L e = some consignment).filterMap fun e =>
        (sourceEvent L e).toOption.map Prod.snd := by
  induction events with
  | nil => rfl
  | cons e events ih =>
    cases hs : sourceEvent L e with
    | error err =>
      have hd : decodeSource L e = .error err := by
        rw [decodeSource, hs]
        rfl
      have hc : consignmentOf L e ≠ some consignment := by
        rw [consignmentOf, hs]
        nofun
      rw [List.filter_cons_of_neg (by simpa using hc), ← ih, entriesOf, entries_cons_error hd]
      rfl
    | ok p =>
      obtain ⟨k, s⟩ := p
      have hd : decodeSource L e = .ok (some (k, s)) := by
        rw [decodeSource, hs]
        rfl
      have hc : consignmentOf L e = some k := by
        rw [consignmentOf, hs]
        rfl
      rw [entriesOf, entries_cons_some hd]
      by_cases hk : k = consignment
      · subst hk
        rw [List.filter_cons_of_pos (by simp), List.filter_cons_of_pos (by simpa using hc),
          List.filterMap_cons_some (b := s) (by rw [hs]; rfl), List.map_cons, ← ih]
        rfl
      · rw [List.filter_cons_of_neg (by simpa using hk),
          List.filter_cons_of_neg (by simpa [hc] using hk), ← ih]
        rfl

/-- The row of an event as it was read. -/
theorem sourceEvent_eq_ok {event : Row F} {k : Text} {s : SourceEvent F}
    (h : sourceEvent L event = .ok (k, s)) :
    s.row = event ∧ event.get "event_id" = .text s.eventId := by
  have htext : ∀ {v : Cell F} {t : Text}, nonEmptyText v = some t → v = .text t := by
    intro v t h
    cases v with
    | text t' =>
      rw [nonEmptyText] at h
      split_ifs at h
      cases h
      rfl
    | _ => cases h
  unfold sourceEvent at h
  split at h
  · cases h
  rename_i eventId hid
  split at h
  · cases h
  split at h
  · obtain ⟨payload, -, h⟩ := bind_eq_ok.1 h
    obtain ⟨k', -, h⟩ := bind_eq_ok.1 h
    cases h
    exact ⟨rfl, htext hid⟩
  · cases h

/-! ## The floor of a group -/

omit [PyFloat F] in
/-- The floor of an event is its clearance. -/
theorem eventClearanceFloor_eq_ok {event : Row F} {eventId : Text} {floor : Clearance}
    (h : eventClearanceFloor L event eventId = .ok floor) : clearanceOf L event = floor := by
  unfold eventClearanceFloor at h
  unfold clearanceOf
  cases hv : event.get "record_classification" with
  | null =>
    rw [hv] at h
    cases h
    rfl
  | text label =>
    rw [hv] at h
    cases hl : Clearance.fromLabel L label with
    | error e =>
      simp only [hl] at h
      cases h
    | ok c =>
      simp only [hl] at h
      cases h
      simp [hl, Except.toOption]
  | int _ | float _ | instant _ | bool _ =>
    rw [hv] at h
    cases h

/-- The ids of the events of a group. -/
def Group.ids (g : Group F) : List Text :=
  g.catches.map SourceEvent.eventId ++ g.custody.map SourceEvent.eventId ++
    g.coldchain.map Sample.eventId ++ g.exports.map SourceEvent.eventId

/-- **What an event brings to its group**: its label to the floor, and its
id. -/
theorem joinGroup_eq_ok {b : Option (Group F)} {s : SourceEvent F} {g : Group F}
    (h : joinGroup L b s = .ok g) :
    g.clearanceFloor = max (b.getD .empty).clearanceFloor (clearanceOf L s.row) ∧
      ∀ id ∈ g.ids, id ∈ (b.getD .empty).ids ∨ id = s.eventId := by
  unfold joinGroup at h
  obtain ⟨floor, hfloor, h⟩ := bind_eq_ok.1 h
  rw [eventClearanceFloor_eq_ok hfloor]
  generalize b.getD .empty = g₀ at h ⊢
  -- each type adds the event to one of the four lists
  have added : ∀ {g' : Group F} {id : Text}, id ∈ g'.ids ↔ id ∈ g'.catches.map SourceEvent.eventId ∨
      id ∈ g'.custody.map SourceEvent.eventId ∨ id ∈ g'.coldchain.map Sample.eventId ∨
      id ∈ g'.exports.map SourceEvent.eventId := by
    simp [Group.ids]
  have snoc : ∀ {α : Type} {f : α → Text} {xs : List α} {x : α} {id : Text},
      id ∈ (xs ++ [x]).map f ↔ id ∈ xs.map f ∨ id = f x := by
    simp [eq_comm]
  split_ifs at h
  · cases h
    refine ⟨rfl, fun id hid => ?_⟩
    rw [added] at hid ⊢
    rw [snoc] at hid
    clear * - hid
    tauto
  · cases h
    refine ⟨rfl, fun id hid => ?_⟩
    rw [added] at hid ⊢
    rw [snoc] at hid
    clear * - hid
    tauto
  · obtain ⟨sample, hsample, h⟩ := bind_eq_ok.1 h
    obtain ⟨temperature, -, hsample⟩ := bind_eq_ok.1 hsample
    split_ifs at hsample
    cases hsample
    cases h
    refine ⟨rfl, fun id hid => ?_⟩
    rw [added] at hid ⊢
    rw [snoc] at hid
    clear * - hid
    tauto
  · cases h
    refine ⟨rfl, fun id hid => ?_⟩
    rw [added] at hid ⊢
    rw [snoc] at hid
    clear * - hid
    tauto

/-- **A group and its events**: the floor is at or below a level where every
event's label is, and every id is that of an event. -/
structure Summarizes (L : Library) (sources : List (SourceEvent F)) (g : Group F) : Prop where
  floor : ∀ c, g.clearanceFloor ≤ c ↔ ∀ s ∈ sources, clearanceOf L s.row ≤ c
  ids : ∀ id ∈ g.ids, ∃ s ∈ sources, s.eventId = id

/-- A group summarizes its events. -/
theorem summarizes_foldGroup {sources : List (SourceEvent F)} {g : Group F}
    (h : foldGroup (joinGroup L) none sources = .ok (some g)) : Summarizes L sources g := by
  refine foldGroup_induct (P := fun done b => Summarizes L done (b.getD .empty)) ⟨fun c => ?_, nofun⟩
    (fun done b s d hP hd => ?_) h
  · exact iff_of_true (Clearance.unclassified_le c) fun _ hs => absurd hs List.not_mem_nil
  · obtain ⟨hfloor, hids⟩ := joinGroup_eq_ok hd
    refine ⟨fun c => ?_, fun id hid => ?_⟩
    · rw [Option.getD_some, hfloor, max_le_iff, hP.floor, List.forall_mem_append,
        List.forall_mem_singleton]
    · obtain hid | rfl := hids id hid
      · obtain ⟨s', hs', rfl⟩ := hP.ids id hid
        exact ⟨s', List.mem_append_left _ hs', rfl⟩
      · exact ⟨s, List.mem_append_right _ (List.mem_singleton.2 rfl), rfl⟩

/-! ## The groups of a level -/

section

variable {groups groups' : Members (Group F)} (h : groupEvents L events = .ok groups)

include h

/-- The group of a consignment is folded from its events. -/
theorem groupEvents_get (consignment : Text) :
    foldGroup (joinGroup L) none (entriesOf (decodeSource L) events consignment) =
      .ok (groups.get consignment) :=
  groupPass_get h consignment

/-- The groups are of distinct consignments. -/
theorem groupEvents_distinct : groups.Distinct := groupPass_distinct Members.distinct_nil h

/-- **A group is at or below a level** where all its events are. -/
theorem floor_le_iff {g : Group F} (hg : groups.get consignment = some g) (c : Clearance) :
    g.clearanceFloor ≤ c ↔
      ∀ e ∈ events, consignmentOf L e = some consignment → clearanceOf L e ≤ c := by
  have hsum := summarizes_foldGroup (hg ▸ groupEvents_get h consignment)
  rw [hsum.floor, entriesOf_source]
  constructor
  · intro hall e he hk
    obtain ⟨p, hp⟩ : ∃ p, sourceEvent L e = .ok p := by
      cases hs : sourceEvent L e with
      | ok p => exact ⟨p, rfl⟩
      | error err =>
        rw [consignmentOf, hs] at hk
        cases hk
    have hmem : p.2 ∈ (events.filter fun e => consignmentOf L e = some consignment).filterMap
        fun e => (sourceEvent L e).toOption.map Prod.snd :=
      List.mem_filterMap.2 ⟨e, List.mem_filter.2 ⟨he, decide_eq_true hk⟩, by rw [hp]; rfl⟩
    have hle := hall p.2 hmem
    rwa [(sourceEvent_eq_ok hp).1] at hle
  · intro hall s hs
    obtain ⟨e, he, hes⟩ := List.mem_filterMap.1 hs
    obtain ⟨he, hk⟩ := List.mem_filter.1 he
    cases hsource : sourceEvent L e with
    | error err =>
      rw [hsource] at hes
      cases hes
    | ok p =>
      rw [hsource] at hes
      cases hes
      rw [(sourceEvent_eq_ok hsource).1]
      exact hall e he (of_decide_eq_true hk)

end

/-- The events of a low consignment are all among the low events. -/
theorem filter_lowEvents
    (hlow : ∀ e ∈ events, consignmentOf L e = some consignment → clearanceOf L e ≤ c) :
    (lowEvents L c events).filter (fun e => consignmentOf L e = some consignment) =
      events.filter fun e => consignmentOf L e = some consignment := by
  rw [lowEvents, List.filter_filter]
  refine List.filter_congr fun e he => ?_
  by_cases hk : consignmentOf L e = some consignment
  · have hall : ∀ e' ∈ events, consignmentOf L e' = consignmentOf L e → clearanceOf L e' ≤ c :=
      fun e' he' hk' => hlow e' he' (hk'.trans hk)
    rw [decide_eq_true hk, decide_eq_true hall]
    rfl
  · rw [decide_eq_false hk]
    rfl

/-- **A low group is the same** over two lists with the same low events. -/
theorem get_of_low {groups groups' : Members (Group F)} (h : groupEvents L events = .ok groups)
    (h' : groupEvents L events' = .ok groups') (hlow : lowEvents L c events = lowEvents L c events')
    {g : Group F} (hg : groups.get consignment = some g) (hc : g.clearanceFloor ≤ c) :
    groups'.get consignment = some g := by
  have hall := (floor_le_iff h hg c).1 hc
  have hne : entriesOf (decodeSource L) events consignment ≠ [] := by
    intro he
    rw [(groupPass_get_eq_none h consignment).2 he] at hg
    cases hg
  have hfilter := filter_lowEvents hall
  -- one of its events is in both lists, so all of the second list's are low too
  obtain ⟨e, he⟩ : ∃ e, e ∈ events.filter fun e => consignmentOf L e = some consignment := by
    refine List.exists_mem_of_ne_nil _ fun hnil => hne ?_
    rw [entriesOf_source, hnil]
    rfl
  rw [← hfilter, hlow] at he
  obtain ⟨he, hk⟩ := List.mem_filter.1 he
  have hlow' := of_decide_eq_true (List.mem_filter.1 he).2
  have hall' : ∀ e' ∈ events', consignmentOf L e' = some consignment → clearanceOf L e' ≤ c :=
    fun e' he' hk' => hlow' e' he' (hk'.trans (of_decide_eq_true hk).symm)
  have hentries : entriesOf (decodeSource L) events' consignment =
      entriesOf (decodeSource L) events consignment := by
    rw [entriesOf_source, entriesOf_source, ← hfilter, ← filter_lowEvents hall', hlow]
  have hget := groupEvents_get h' consignment
  rw [hentries, groupEvents_get h consignment] at hget
  rw [← Except.ok.inj hget, hg]

/-- The groups a level sees. -/
def visibleGroups (c : Clearance) (groups : Members (Group F)) : Members (Group F) :=
  groups.filter fun g => g.2.clearanceFloor ≤ c

/-- **What a level sees of the groups, in order, depends on its low events
alone.** -/
theorem visibleGroups_eq {groups groups' : Members (Group F)}
    (h : groupEvents L events = .ok groups) (h' : groupEvents L events' = .ok groups')
    (hlow : lowEvents L c events = lowEvents L c events') :
    visibleGroups c (sortBy Prod.fst groups) = visibleGroups c (sortBy Prod.fst groups') := by
  have hd := groupEvents_distinct h
  have hd' := groupEvents_distinct h'
  have hsub : ∀ {gs gs' : Members (Group F)} {es es' : List (Row F)},
      groupEvents L es = .ok gs → groupEvents L es' = .ok gs' →
      lowEvents L c es = lowEvents L c es' → visibleGroups c gs ⊆ visibleGroups c gs' := by
    intro gs gs' es es' h h' hlow m hm
    obtain ⟨hm, hc⟩ := List.mem_filter.1 hm
    have hget := get_of_low h h' hlow ((Members.get_eq_some (groupEvents_distinct h)).2 hm)
      (of_decide_eq_true hc)
    exact List.mem_filter.2 ⟨Members.mem_of_get hget, hc⟩
  have hnodup : ∀ {gs : Members (Group F)}, gs.Distinct → (visibleGroups c gs).Nodup := fun hd =>
    (List.Nodup.of_map _ hd).sublist List.filter_sublist
  have hperm : (visibleGroups c groups).Perm (visibleGroups c groups') :=
    (List.perm_ext_iff_of_nodup (hnodup hd) (hnodup hd')).2 fun m =>
      ⟨fun hm => hsub h h' hlow hm, fun hm => hsub h' h hlow.symm hm⟩
  have hkeys : ((visibleGroups c groups).map Prod.fst).Nodup :=
    hd.sublist (List.filter_sublist.map _)
  rw [visibleGroups, visibleGroups, sortBy_filter, sortBy_filter]
  exact sortBy_perm hperm hkeys

/-! ## The rows of a level -/

/-- A row but for the instant it was assembled at. -/
def withoutAssembledAt (r : Row F) : Row F := r.filter fun p => p.1 ≠ "assembled_at"

/-- **What a record says of its group.** -/
structure RecordOf (consignment : Text) (g : Group F) (r : Row F) : Prop where
  columns : r.columns = exportConsignmentSchema
  consignment : r.get "consignment_id" = .text consignment
  label : r.get "record_classification" = .text g.clearanceFloor.label
  sources : ∃ ids json, r.get "source_event_ids_json" = .text json ∧
    dumpsTexts (F := F) ids = .ok json ∧ ids ⊆ g.ids

/-- The record of a group shows it. -/
theorem consignmentRecord_eq_ok {t : ℤ} {g : Group F} {r : Row F}
    (h : consignmentRecord L t consignment g = .ok r) : RecordOf consignment g r := by
  unfold consignmentRecord at h
  split at h
  swap
  · cases h
  rename_i catchEvent hcatch
  obtain ⟨species, -, h⟩ := bind_eq_ok.1 h
  obtain ⟨weight, -, h⟩ := bind_eq_ok.1 h
  split_ifs at h
  obtain ⟨reference, -, h⟩ := bind_eq_ok.1 h
  obtain ⟨custodyJson, -, h⟩ := bind_eq_ok.1 h
  obtain ⟨digest, -, h⟩ := bind_eq_ok.1 h
  obtain ⟨sourceJson, hsource, h⟩ := bind_eq_ok.1 h
  cases h
  refine ⟨rfl, rfl, rfl, _, sourceJson, rfl, hsource, fun id hid => ?_⟩
  have hid := (List.perm_insertionSort _ _).mem_iff.1 hid
  have hcustody : ∀ {id}, id ∈ custodyIds g ↔ id ∈ g.custody.map SourceEvent.eventId :=
    (List.perm_insertionSort _ _).mem_iff
  have hsamples : ∀ {id}, id ∈ (sortedSamples g).map Sample.eventId ↔
      id ∈ g.coldchain.map Sample.eventId :=
    ((perm_sortBy _ _).map _).mem_iff
  rw [Group.ids, hcatch]
  simp only [List.mem_append, hcustody, hsamples] at hid ⊢
  exact hid

/-- The instant of the assembly is in its own column only. -/
theorem consignmentRecord_alike (t t' : ℤ) (consignment : Text) (g : Group F) :
    Alike (fun r r' => withoutAssembledAt r = withoutAssembledAt r')
      (consignmentRecord L t consignment g) (consignmentRecord L t' consignment g) := by
  unfold consignmentRecord
  split
  · refine .bind_same _ fun _ => .bind_same _ fun _ => ?_
    split_ifs
    · exact .error
    · exact .bind_same _ fun _ => .bind_same _ fun _ => .bind_same _ fun _ => .bind_same _ fun _ =>
        .ok rfl
  · exact .error

/-- **The rows a level is shown**, and the groups they are of. -/
theorem visible_records {t : ℤ} {groups : Members (Group F)} {records : List (Row F)}
    (h : collect (groups.map fun g => consignmentRecord L t g.1 g.2) = .ok records) :
    List.Forall₂ (fun g r => consignmentRecord L t g.1 g.2 = .ok r) (visibleGroups c groups)
      (Access.filterRecordsByClearance L records (.level c) "record_classification") := by
  rw [collect_eq_ok, List.forall₂_map_left_iff] at h
  refine List.rel_filter (fun g r hr => ?_) h
  have hlabel := (consignmentRecord_eq_ok hr).label
  simp only [hlabel, Access.clearancePermits_label]

/-- Records made at two times differ in the time alone. -/
theorem map_withoutAssembledAt_eq {t t' : ℤ} {groups : Members (Group F)} {rows rows' : List (Row F)}
    (h : List.Forall₂ (fun g r => consignmentRecord L t g.1 g.2 = .ok r) groups rows)
    (h' : List.Forall₂ (fun g r => consignmentRecord L t' g.1 g.2 = .ok r) groups rows') :
    rows.map withoutAssembledAt = rows'.map withoutAssembledAt := by
  induction h generalizing rows' with
  | nil =>
    cases h'
    rfl
  | @cons g r _ _ hr _ ih =>
    cases h' with
    | @cons _ r' _ _ hr' hrest =>
      have halike := consignmentRecord_alike (L := L) t t' g.1 g.2
      rw [hr, hr'] at halike
      cases halike with
      | ok heq => rw [List.map_cons, List.map_cons, heq, ih hrest]

/-! ## The assembled table -/

/-- **The gold table is the one assembled from some events.** -/
def Assembled (writer : Segregation.SegregatedDeltaWriter L) (events : List (Row F))
    (w : World F) : Prop :=
  ∃ assembledAt records uri source version older,
    buildConsignmentRecords L assembledAt events = .ok records ∧
    exportConsignmentTableUri writer = .ok uri ∧
    ArrowTable.fromPylist records (some exportConsignmentSchema) = .ok source ∧
    w.tables uri = World.overwritten source version :: older

variable {writer : Segregation.SegregatedDeltaWriter L} {E : Engine F} {w w' : World F}

/-- A table opened is the newest of its versions. -/
theorem run_openOrRefuse_eq_ok {uri missing : Text} {t : Table F}
    (h : (openOrRefuse uri missing).run E.handle w = (.ok t, w')) :
    w' = w ∧ ∃ older, w.tables uri = t :: older := by
  obtain ⟨t₁, w₁, h₁, h₂⟩ := Prog.run_bind_eq_ok _ h
  have hw₁ : w₁ = w := by
    obtain h₁ | ⟨e, w₂, -, h₁⟩ := Prog.run_orElse_eq_ok _ h₁
    · exact (E.succeeds_of_run h₁).read rfl
    · split_ifs at h₁
      all_goals cases h₁
  rw [hw₁] at h₂
  cases E.succeeds_of_run h₂ with
  | openTable ht => exact ⟨rfl, _, ht⟩

/-- A table that exists is opened. -/
theorem run_openOrRefuse {uri missing : Text} {t : Table F} {older : List (Table F)}
    (h : w.tables uri = t :: older) :
    (openOrRefuse uri missing).run E.handle w = (.ok t, w) := by
  have hopen := E.run_openTable h
  have hfirst : ((Script.openTable uri).orElse fun e =>
      if e = .tableNotFound then .raise (.valueError missing) else .raise e).run E.handle w =
      (.ok t, w) := by
    rw [Prog.run_orElse, hopen]
  rw [openOrRefuse, Prog.run_bind_ok _ hfirst, hopen]

/-- **What an assembly leaves**: the table of the events it read. -/
theorem assembled_of_run {a : ℕ × ℕ}
    (h : (assembleExportConsignmentGold writer).run E.handle w = (.ok a, w')) :
    ∃ uri bronze older, writer.tableUri (lit "bronze") = .ok uri ∧
      w.tables uri = bronze :: older ∧
      Assembled writer (E.order (bronze.read (bronzeColumns bronze) none)) w' := by
  unfold assembleExportConsignmentGold at h
  split_ifs at h
  · cases h
  obtain ⟨uri, huri, h₁⟩ := Prog.run_lift_bind_eq_ok h
  obtain ⟨bronze, w₁, hopen, h₂⟩ := Prog.run_bind_eq_ok _ h₁
  obtain ⟨hw₁, older, hbronze⟩ := run_openOrRefuse_eq_ok hopen
  refine ⟨uri, bronze, older, huri, hbronze, ?_⟩
  obtain ⟨events, w₂, hread, h₃⟩ := Prog.run_bind_eq_ok _ h₂
  have hevents : events = E.order (bronze.read (bronzeColumns bronze) none) := by
    cases E.succeeds_of_run hread with
    | readRows hcolumns _ =>
      rw [E.run_readRows hcolumns] at hread
      exact (Except.ok.inj (Prod.mk.inj hread).1).symm
  obtain ⟨assembledAt, w₃, -, h₄⟩ := Prog.run_bind_eq_ok _ h₃
  obtain ⟨records, hrecords, h₅⟩ := Prog.run_lift_bind_eq_ok h₄
  obtain ⟨tableUri, htableUri, h₆⟩ := Prog.run_lift_bind_eq_ok h₅
  obtain ⟨source, hsource, h₇⟩ := Prog.run_lift_bind_eq_ok h₆
  obtain ⟨_, w₄, hwrite, h₈⟩ := Prog.run_bind_eq_ok _ h₇
  obtain ⟨table, w₅, hlast, h₉⟩ := Prog.run_bind_eq_ok _ h₈
  have hw₅ : w₅ = w₄ := (E.succeeds_of_run hlast).read rfl
  have hw' : w₅ = w' := congrArg Prod.snd h₉
  rw [← hw', hw₅]
  rw [hevents] at hrecords
  refine ⟨assembledAt, records, tableUri, source, ?_⟩
  cases E.succeeds_of_run hwrite with
  | overwriteNew ht =>
    exact ⟨0, _, hrecords, htableUri, hsource, World.push_tables_self _ _ _⟩
  | overwriteTable ht _ =>
    exact ⟨_, _, hrecords, htableUri, hsource, World.push_tables_self _ _ _⟩

/-- The rows of an assembled table are the records. -/
theorem fromPylist_records {t : ℤ} {groups : Members (Group F)} {records : List (Row F)}
    {source : ArrowTable F}
    (h : collect (groups.map fun g => consignmentRecord L t g.1 g.2) = .ok records)
    (hsource : ArrowTable.fromPylist records (some exportConsignmentSchema) = .ok source) :
    source.columns = exportConsignmentSchema ∧ source.rows = records ∧
      source.rows.map (Row.project source.columns) = records := by
  have hself : records.map (Row.project exportConsignmentSchema) = records := by
    conv_rhs => rw [← List.map_id records]
    refine List.map_congr_left fun r hr => ?_
    obtain ⟨g, -, hg⟩ := List.mem_map.1 (mem_of_collect h hr)
    have hcolumns := (consignmentRecord_eq_ok hg).columns
    rw [← hcolumns]
    exact Row.project_columns_self (by rw [hcolumns]; decide)
  unfold ArrowTable.fromPylist at hsource
  simp only [Option.getD_some] at hsource
  split_ifs at hsource
  cases hsource
  exact ⟨rfl, hself, by rw [hself, hself]⟩

/-- What an assembled table shows, in the order it holds its rows. -/
theorem Assembled.visible (h : Assembled writer events w) : ∃ t groups records uri table older,
    groupEvents L events = .ok groups ∧
    collect ((sortBy Prod.fst groups).map fun g => consignmentRecord L t g.1 g.2) = .ok records ∧
    exportConsignmentTableUri writer = .ok uri ∧ w.tables uri = table :: older ∧
    table.read table.columns none = records := by
  obtain ⟨t, records, uri, source, version, older, hbuild, huri, hsource, htable⟩ := h
  unfold buildConsignmentRecords at hbuild
  split_ifs at hbuild
  obtain ⟨groups, hgroups, hrecords⟩ := bind_eq_ok.1 hbuild
  obtain ⟨-, hrows, hproject⟩ := fromPylist_records hrecords hsource
  refine ⟨t, groups, records, uri, _, older, hgroups, hrecords, huri, htable, ?_⟩
  have hread : (World.overwritten source version).read (World.overwritten source version).columns
      none = source.rows.map (Row.project source.columns) := by
    simp [Table.read, World.overwritten]
  rw [hread, hproject]

/-- **A read of an assembled table** returns the rows its level is shown. -/
theorem run_readExportConsignments {claim : Option Access.ClearanceClaim} {uri : Text}
    {table : Table F} {older : List (Table F)} (hscope : writer.scope = .fisheries)
    (hclaim : Access.normalizeClearance L claim = .ok (some c))
    (huri : exportConsignmentTableUri writer = .ok uri) (ht : w.tables uri = table :: older) :
    (readExportConsignments writer claim).run E.handle w =
      (.ok (Access.filterRecordsByClearance L (E.order (table.read table.columns none)) (.level c)
        "record_classification"), w) := by
  unfold readExportConsignments
  rw [if_neg (not_not.2 hscope), hclaim]
  simp only [Script.pure, Prog.lift_ok, Prog.ret_bind]
  rw [huri, Prog.lift_ok, Prog.ret_bind, Prog.run_bind_ok _ (run_openOrRefuse ht),
    Prog.run_bind_ok _ (E.run_readRows (List.Subset.refl _))]
  rfl

/-- **The export view by clearance.** Over two assembled tables whose events
are the same in every consignment at or below a level, a reader at that
level is shown the same rows, but for the instants of assembly; and every
row shown lists only events of one consignment, all labelled at or below
the level. -/
theorem readExportConsignments_low {claim : Option Access.ClearanceClaim}
    (hscope : writer.scope = .fisheries) (hclaim : Access.normalizeClearance L claim = .ok (some c))
    (E E' : Engine F) (h : Assembled writer events w) (h' : Assembled writer events' w')
    (hlow : lowEvents L c events = lowEvents L c events') :
    ∃ rows rows', (readExportConsignments writer claim).run E.handle w = (.ok rows, w) ∧
      (readExportConsignments writer claim).run E'.handle w' = (.ok rows', w') ∧
      (rows.map withoutAssembledAt).Perm (rows'.map withoutAssembledAt) ∧
      (E.order = id → E'.order = id →
        rows.map withoutAssembledAt = rows'.map withoutAssembledAt) ∧
      ∀ r ∈ rows, ∃ consignment ids json, r.get "consignment_id" = .text consignment ∧
        r.get "source_event_ids_json" = .text json ∧ dumpsTexts (F := F) ids = .ok json ∧
        (∀ id ∈ ids, ∃ e ∈ events, e.get "event_id" = .text id ∧
          consignmentOf L e = some consignment) ∧
        ∀ e ∈ events, consignmentOf L e = some consignment → clearanceOf L e ≤ c := by
  obtain ⟨t, groups, records, uri, table, older, hgroups, hrecords, huri, htable, hread⟩ := h.visible
  obtain ⟨t', groups', records', uri', table', older', hgroups', hrecords', huri', htable', hread'⟩ :=
    h'.visible
  -- the visible groups are those of the low events, so the records are the same
  have heq := visible_records (c := c) hrecords
  have heq' := visible_records (c := c) hrecords'
  rw [← visibleGroups_eq hgroups hgroups' hlow] at heq'
  have hsame := map_withoutAssembledAt_eq heq heq'
  have hrun := run_readExportConsignments (E := E) hscope hclaim huri htable
  have hrun' := run_readExportConsignments (E := E') hscope hclaim huri' htable'
  rw [hread] at hrun
  rw [hread'] at hrun'
  have shown : ∀ (E : Engine F) (rows : List (Row F)),
      (Access.filterRecordsByClearance L (E.order rows) (.level c) "record_classification").Perm
        (Access.filterRecordsByClearance L rows (.level c) "record_classification") :=
    fun E rows => (E.order_perm rows).filter _
  have hperm := (shown E records).map withoutAssembledAt
  have hperm' := (shown E' records').map withoutAssembledAt
  refine ⟨_, _, hrun, hrun', hperm.trans (hsame ▸ hperm'.symm), fun hE hE' => ?_, fun r hr => ?_⟩
  · rw [hE, hE']
    exact hsame
  -- a row shown is the record of a group at or below the level
  have hr := (shown E records).mem_iff.1 hr
  obtain ⟨g, hg, hrecord⟩ := exists_of_forall₂ heq hr
  obtain ⟨hg, hc⟩ := List.mem_filter.1 hg
  have hget := (Members.get_eq_some (groupEvents_distinct hgroups)).2 (mem_sortBy.1 hg)
  have hof := consignmentRecord_eq_ok hrecord
  obtain ⟨ids, json, hjson, hdumps, hids⟩ := hof.sources
  refine ⟨g.1, ids, json, hof.consignment, hjson, hdumps, fun id hid => ?_,
    (floor_le_iff hgroups hget c).1 (of_decide_eq_true hc)⟩
  have hsum := summarizes_foldGroup (hget ▸ groupEvents_get hgroups g.1)
  obtain ⟨s, hs, rfl⟩ := hsum.ids id (hids hid)
  rw [entriesOf_source] at hs
  obtain ⟨e, he, hes⟩ := List.mem_filterMap.1 hs
  obtain ⟨he, hk⟩ := List.mem_filter.1 he
  obtain ⟨p, hp, rfl⟩ := Option.map_eq_some_iff.1 hes
  exact ⟨e, he, (sourceEvent_eq_ok (toOption_eq_some.1 hp)).2, of_decide_eq_true hk⟩

/-! ## A restricted and a secret consignment -/

def fisheriesWriter : Segregation.SegregatedDeltaWriter Library.ascii where
  scope := .fisheries
  scopeRootUri := lit "/srv/lakehouse/fisheries"
  root := lit "/srv/lakehouse/fisheries"
  checked := rfl

/-- A catch of a species, for a consignment. -/
def catchEvent (eventId consignment species label : String) : Row Decimal :=
  [("event_id", .text (lit eventId)), ("event_type", .text (lit "fisheries.catch.v1")),
    ("occurred_at", .instant 0),
    ("payload_json", .text (lit "\x7b\"catchWeightKg\":40,\"consignmentId\":\"" ++ lit consignment ++
      lit "\",\"speciesCode\":\"" ++ lit species ++ lit "\"\x7d")),
    ("record_classification", .text (lit label))]

/-- Two catches, the second one secret. -/
def catchesOf (species : String) : List (Row Decimal) :=
  [catchEvent "e1" "C-1" "YFT" "RESTRICTED", catchEvent "e2" "C-2" species "SECRET"]

/-- The table assembled from some events at the epoch. -/
def goldSource (events : List (Row Decimal)) : Except PyError (ArrowTable Decimal) := do
  let records ← buildConsignmentRecords Library.ascii 0 events
  ArrowTable.fromPylist records (some exportConsignmentSchema)

def goldWorld (events : List (Row Decimal)) : World Decimal where
  tables _ := (goldSource events).toOption.toList.map fun source => World.overwritten source 0
  deadLetters := []
  commits := []
  files _ := none
  clock := 0

/-- The sample table is an assembled one. -/
theorem assembled_goldWorld (events : List (Row Decimal)) {uri : Text}
    (huri : exportConsignmentTableUri fisheriesWriter = .ok uri)
    (h : (goldSource events).toOption.isSome = true) :
    Assembled fisheriesWriter events (goldWorld events) := by
  obtain ⟨source, hs⟩ := Option.isSome_iff_exists.1 h
  obtain ⟨records, hrecords, hsource⟩ := bind_eq_ok.1 (toOption_eq_some.1 hs)
  refine ⟨0, records, uri, source, 0, [], hrecords, huri, hsource, ?_⟩
  rw [goldWorld, hs]
  rfl

/-- A restricted reader is shown the same row whatever the secret catch is
of. -/
theorem readExportConsignments_low_restricted :
    catchesOf "BFT" ≠ catchesOf "SWO" ∧ ∃ rows rows',
      ((readExportConsignments fisheriesWriter (some (.level .restricted))).run
        (Engine.plain Decimal).handle (goldWorld (catchesOf "BFT"))).1 = .ok rows ∧
      ((readExportConsignments fisheriesWriter (some (.level .restricted))).run
        (Engine.plain Decimal).handle (goldWorld (catchesOf "SWO"))).1 = .ok rows' ∧
      rows.map withoutAssembledAt = rows'.map withoutAssembledAt := by
  have huri : exportConsignmentTableUri fisheriesWriter =
      .ok (lit "/srv/lakehouse/fisheries/fisheries_gold/export_consignments") := rfl
  have hclaim : Access.normalizeClearance Library.ascii (some (.level .restricted)) =
      .ok (some .restricted) := rfl
  obtain ⟨rows, rows', hrun, hrun', -, heq, -⟩ := readExportConsignments_low rfl hclaim
    (Engine.plain Decimal)
    (Engine.plain Decimal) (assembled_goldWorld (catchesOf "BFT") huri (by decide +kernel))
    (assembled_goldWorld (catchesOf "SWO") huri (by decide +kernel)) (by decide +kernel)
  exact ⟨by decide +kernel, rows, rows', by rw [hrun], by rw [hrun'], heq rfl rfl⟩

end Fisheries

end Lakehouse

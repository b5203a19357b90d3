import Lakehouse.Fisheries.Noninterference
/-!
# Consignments and their events

The assembly returns where it accepts every event and every consignment
has a record. A consignment's group holds its events by family, in the
order they came in (`groupOf`), under the highest of their labels.
-/

namespace Lakehouse

namespace Fisheries

open Ingest

variable {F : Type} [PyFloat F] {L : Library} {e e' : Row F}

/-! ## Accepted events -/

/-- An event joins any group, or none: its row is read for its label only. -/
theorem joinGroup_again {b : Option (Group F)} (b' : Option (Group F)) {s : SourceEvent F}
    {g : Group F}
    (hfloor : eventClearanceFloor L e' s.eventId = eventClearanceFloor L s.row s.eventId)
    (h : joinGroup L b s = .ok g) : ∃ g', joinGroup L b' { s with row := e' } = .ok g' := by
  unfold joinGroup at h ⊢
  rw [hfloor]
  obtain ⟨floor, hf, h⟩ := bind_eq_ok.1 h
  rw [hf]
  simp only [ok_bind]
  split_ifs at h ⊢
  · exact ⟨_, rfl⟩
  · exact ⟨_, rfl⟩
  · obtain ⟨sample, hsample, -⟩ := bind_eq_ok.1 h
    have hsample' : sampleOf L { s with row := e' } = .ok sample := hsample
    rw [hsample']
    exact ⟨_, rfl⟩
  · exact ⟨_, rfl⟩

/-- **An event the assembly accepts.** -/
def Accepted (L : Library) (e : Row F) : Prop :=
  ∃ k s g, sourceEvent L e = .ok (k, s) ∧ joinGroup L none s = .ok g

/-- How an event decodes is how it is read. -/
theorem decodeSource_eq_ok {p : Option (Text × SourceEvent F)} (h : decodeSource L e = .ok p) :
    ∃ q, p = some q ∧ sourceEvent L e = .ok q := by
  rw [decodeSource] at h
  cases hs : sourceEvent L e with
  | error err =>
    rw [hs] at h
    cases h
  | ok q =>
    rw [hs] at h
    cases h
    exact ⟨q, rfl, rfl⟩

/-- **A batch can be grouped** exactly when each of its events is accepted. -/
theorem groupEvents_isOk {events : List (Row F)} :
    (∃ groups, groupEvents L events = .ok groups) ↔ ∀ e ∈ events, Accepted L e := by
  suffices h : ∀ events (ms : Members (Group F)),
      (∃ groups, groupPass (decodeSource L) (joinGroup L) ms events = .ok groups) ↔
        ∀ e ∈ events, Accepted L e from h events []
  intro events
  induction events with
  | nil => exact fun ms => iff_of_true ⟨ms, rfl⟩ fun _ he => absurd he List.not_mem_nil
  | cons e events ih =>
    intro ms
    rw [List.forall_mem_cons]
    constructor
    · rintro ⟨groups, h⟩
      obtain ⟨hnone, -⟩ | ⟨k, s, b, hs, hb, h⟩ := groupPass_cons_eq_ok h
      · obtain ⟨q, hq, -⟩ := decodeSource_eq_ok hnone
        cases hq
      · obtain ⟨q, hq, hse⟩ := decodeSource_eq_ok hs
        cases hq
        obtain ⟨g, hg⟩ := joinGroup_again none rfl hb
        exact ⟨⟨k, s, g, hse, hg⟩, (ih _).1 ⟨groups, h⟩⟩
    · rintro ⟨⟨k, s, g, hs, hg⟩, hrest⟩
      obtain ⟨g', hg'⟩ := joinGroup_again (ms.get k) rfl hg
      obtain ⟨groups, h⟩ := (ih (ms.set k g')).2 hrest
      have hd : decodeSource L e = .ok (some (k, s)) := by
        rw [decodeSource, hs]
        rfl
      refine ⟨groups, ?_⟩
      rw [groupPass, hd, ok_bind]
      simp only [hg', ok_bind, h]

/-- A consignment without a group has no event. -/
theorem groupEvents_get_eq_none {events : List (Row F)} {groups : Members (Group F)}
    (h : groupEvents L events = .ok groups) (consignment : Text) :
    groups.get consignment = none ↔ ∀ e ∈ events, consignmentOf L e ≠ some consignment := by
  rw [groupPass_get_eq_none h, entriesOf_source, List.filterMap_eq_nil_iff]
  constructor
  · intro hall e he hk
    have hnone := hall e (List.mem_filter.2 ⟨he, decide_eq_true hk⟩)
    obtain ⟨p, hp, -⟩ := Option.map_eq_some_iff.1 hk
    rw [hp] at hnone
    cases hnone
  · intro hall e he
    obtain ⟨he, hk⟩ := List.mem_filter.1 he
    exact absurd (of_decide_eq_true hk) (hall e he)

/-! ## The group of some events -/

/-- The families of events a group keeps apart. -/
inductive Family where
  | catches
  | custody
  | coldchain
  | exports
  deriving DecidableEq

/-- The family of an event, by the prefix of its type. -/
def SourceEvent.family (s : SourceEvent F) : Option Family :=
  if (lit "fisheries.catch.").isPrefixOf s.eventType then some .catches
  else if (lit "fisheries.custody.").isPrefixOf s.eventType then some .custody
  else if (lit "coldchain.").isPrefixOf s.eventType then some .coldchain
  else if (lit "export.").isPrefixOf s.eventType then some .exports
  else none

/-- The events of a family. -/
def ofFamily (family : Family) (sources : List (SourceEvent F)) : List (SourceEvent F) :=
  sources.filter fun s => s.family = some family

/-- **The group of the events of a consignment.** -/
def groupOf (L : Library) (sources : List (SourceEvent F)) : Group F where
  catches := ofFamily .catches sources
  custody := ofFamily .custody sources
  coldchain := (ofFamily .coldchain sources).filterMap fun s => (sampleOf L s).toOption
  exports := ofFamily .exports sources
  clearanceFloor := sources.foldl (fun floor s => max floor (clearanceOf L s.row)) .unclassified

variable {sources : List (SourceEvent F)} {s : SourceEvent F} {b : Option (Group F)} {g : Group F}

omit [PyFloat F] in
theorem ofFamily_concat (family : Family) (sources : List (SourceEvent F)) (s : SourceEvent F) :
    ofFamily family (sources ++ [s]) =
      ofFamily family sources ++ if s.family = some family then [s] else [] := by
  rw [ofFamily, List.filter_append, List.filter_singleton]
  by_cases h : s.family = some family
  · rw [if_pos h, decide_eq_true h]
    rfl
  · rw [if_neg h, decide_eq_false h]
    rfl

/-- **One event more.** -/
theorem joinGroup_groupOf (hb : b.getD .empty = groupOf L sources) (h : joinGroup L b s = .ok g) :
    g = groupOf L (sources ++ [s]) := by
  unfold joinGroup at h
  obtain ⟨floor, hfloor, h⟩ := bind_eq_ok.1 h
  rw [hb, ← eventClearanceFloor_eq_ok hfloor] at h
  have hfamily : ∀ family, s.family = some family →
      ∀ family', ofFamily family' (sources ++ [s]) =
        ofFamily family' sources ++ if family = family' then [s] else [] := by
    intro family hs family'
    simp only [ofFamily_concat, hs, Option.some.injEq]
  split_ifs at h with hcatch hcustody hcoldchain hexport
  · cases h
    have hs := hfamily .catches (by simp [SourceEvent.family, hcatch])
    simp [groupOf, hs, List.foldl_append]
  · cases h
    have hs := hfamily .custody (by simp [SourceEvent.family, hcatch, hcustody])
    simp [groupOf, hs, List.foldl_append]
  · obtain ⟨sample, hsample, h⟩ := bind_eq_ok.1 h
    cases h
    have hs := hfamily .coldchain (by simp [SourceEvent.family, hcatch, hcustody, hcoldchain])
    simp [groupOf, hs, List.foldl_append, List.filterMap_append, hsample, Except.toOption]
  · cases h
    have hs := hfamily .exports (by simp [SourceEvent.family, hcatch, hcustody, hcoldchain, hexport])
    simp [groupOf, hs, List.foldl_append]

theorem foldGroup_groupOf (h : foldGroup (joinGroup L) none sources = .ok b) :
    b.getD .empty = groupOf L sources :=
  foldGroup_induct (P := fun done b => b.getD .empty = groupOf L done) rfl
    (fun _ _ _ _ hP hd => joinGroup_groupOf hP hd) h

/-! ## The records of some events -/

/-- The consignments of some events, in order. -/
def consignments (L : Library) (events : List (Row F)) : List Text :=
  (events.filterMap (consignmentOf L)).dedup.insertionSort (· ≤ ·)

/-- The events of a consignment, as they are read. -/
def sourcesOf (L : Library) (events : List (Row F)) (consignment : Text) : List (SourceEvent F) :=
  entriesOf (decodeSource L) events consignment

variable {events : List (Row F)} {groups : Members (Group F)} {consignment : Text}

theorem mem_consignments : consignment ∈ consignments L events ↔
    ∃ e ∈ events, consignmentOf L e = some consignment := by
  rw [consignments, List.mem_insertionSort, List.mem_dedup, List.mem_filterMap]

/-- **The groups, in order.** -/
theorem sorted_groups (h : groupEvents L events = .ok groups) :
    sortBy Prod.fst groups =
      (consignments L events).map fun k => (k, groupOf L (sourcesOf L events k)) := by
  have hdistinct := groupEvents_distinct h
  have hkeys : (sortBy Prod.fst groups).map Prod.fst = consignments L events := by
    have hmap : sortBy id (groups.map Prod.fst) = (sortBy Prod.fst groups).map Prod.fst :=
      sortBy_map Prod.fst groups
    have hnodup : ((groups.map Prod.fst).map id).Nodup := by
      rw [List.map_id]
      exact hdistinct
    rw [← hmap]
    refine sortBy_perm ((List.perm_ext_iff_of_nodup hdistinct (List.nodup_dedup _)).2 fun k => ?_) hnodup
    rw [List.mem_dedup, List.mem_filterMap, ← not_iff_not, ← Members.get_eq_none,
      groupEvents_get_eq_none h]
    simp only [not_exists, not_and]
  have hentries : ∀ p ∈ sortBy Prod.fst groups, p = (p.1, groupOf L (sourcesOf L events p.1)) := by
    intro p hp
    have hget := (Members.get_eq_some hdistinct).2 (mem_sortBy.1 hp)
    have hgroup := foldGroup_groupOf (groupEvents_get h p.1)
    rw [hget] at hgroup
    exact Prod.ext rfl hgroup
  rw [← hkeys, List.map_map]
  exact (List.map_id _).symm.trans (List.map_congr_left hentries)

/-- **The assembly returns** where it accepts every event and every
consignment has a record. -/
theorem buildConsignmentRecords_eq_ok {t : ℤ} {records : List (Row F)} :
    buildConsignmentRecords L t events = .ok records ↔ events ≠ [] ∧ (∀ e ∈ events, Accepted L e) ∧
      collect ((consignments L events).map fun k =>
        consignmentRecord L t k (groupOf L (sourcesOf L events k))) = .ok records := by
  have hsorted : ∀ {groups : Members (Group F)}, groupEvents L events = .ok groups →
      (sortBy Prod.fst groups).map (fun g => consignmentRecord L t g.1 g.2) =
        (consignments L events).map fun k =>
          consignmentRecord L t k (groupOf L (sourcesOf L events k)) := by
    intro groups h
    rw [sorted_groups h, List.map_map]
    rfl
  unfold buildConsignmentRecords
  rw [guard_eq_ok, bind_eq_ok]
  refine and_congr_right fun _ => ?_
  constructor
  · rintro ⟨groups, hgroups, h⟩
    exact ⟨groupEvents_isOk.1 ⟨groups, hgroups⟩, by rwa [← hsorted hgroups]⟩
  · rintro ⟨haccepted, h⟩
    obtain ⟨groups, hgroups⟩ := groupEvents_isOk.2 haccepted
    exact ⟨groups, hgroups, by rwa [hsorted hgroups]⟩

end Fisheries

end Lakehouse

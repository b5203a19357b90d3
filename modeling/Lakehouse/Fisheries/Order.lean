import Lakehouse.Fisheries.Groups
import Lakehouse.Common.Decimal
/-!
# The order of the events

A consignment's record takes everything from its events as a set, but for
one column: its export reference is that of the export event that came
last. So the order of the events does not matter exactly where all export
events of a consignment carry one reference, or where no order of them can
be assembled.
-/

namespace Lakehouse

namespace Fisheries

open Ingest

variable {F : Type} [PyFloat F] {L : Library}

/-! ## What is published -/

/-- What is published of an assembly: its records, but for the instant they
were assembled at. -/
def published (L : Library) (t : ℤ) (events : List (Row F)) : Option (List (Row F)) :=
  (buildConsignmentRecords L t events).toOption.map (List.map withoutAssembledAt)

/-- The reference of an export event. -/
def referenceOf (L : Library) (s : SourceEvent F) : Except PyError Text :=
  requireCanonicalText L (fieldOrNone s.payload (lit "exportReference")) (lit "exportReference") 256

/-- **The group has a record**, at least in some order of its export events:
it has one catch event, whose fields are valid, and one of its export
events, if there are any, has a reference. -/
def Recordable (L : Library) (g : Group F) : Prop :=
  ∃ c, g.catches = [c] ∧
    (∃ species, requireCanonicalText L (fieldOrNone c.payload (lit "speciesCode"))
      (lit "speciesCode") 64 = .ok species) ∧
    (∃ weight, finiteNumber L (c.payload.get (lit "catchWeightKg")) (lit "catchWeightKg") c.eventId =
      .ok weight ∧ PyFloat.lt weight (PyFloat.ofInt 0) = false) ∧
    (g.exports = [] ∨ ∃ s ∈ g.exports, ∃ reference, referenceOf L s = .ok reference)

/-- **Some order of the events can be assembled.** Samples read from a table
can always be written (`written_of_representable`). -/
structure Assemblable (L : Library) (events : List (Row F)) : Prop where
  nonempty : events ≠ []
  accepted : ∀ e ∈ events, Accepted L e
  recordable : ∀ k ∈ consignments L events, Recordable L (groupOf L (sourcesOf L events k))
  written : ∀ k ∈ consignments L events, ∃ digest,
    coldchainDigest L (sortedSamples (groupOf L (sourcesOf L events k))) = .ok digest

/-- The export events of a consignment. -/
def exportsOf (L : Library) (events : List (Row F)) (consignment : Text) : List (SourceEvent F) :=
  ofFamily .exports (sourcesOf L events consignment)

/-- **All export events of a consignment carry one reference**, or none. -/
def AlikeReferences (L : Library) (events : List (Row F)) : Prop :=
  ∀ k, ∀ s ∈ exportsOf L events k, ∀ s' ∈ exportsOf L events k,
    (referenceOf L s).toOption = (referenceOf L s').toOption

/-! ## Records -/

variable {t : ℤ} {consignment : Text} {g g' : Group F} {r : Row F}

omit [PyFloat F] in
/-- The reference of a group is that of its last export event. -/
theorem exportReference_eq (g : Group F) : exportReference L g =
    match g.exports.getLast? with
    | none => .ok none
    | some s => some <$> referenceOf L s := by
  unfold exportReference referenceOf
  cases g.exports.getLast? with
  | none => rfl
  | some s =>
    dsimp only
    cases requireCanonicalText L (fieldOrNone s.payload (lit "exportReference"))
      (lit "exportReference") 256 <;> rfl

/-- **Where a group has a record.** -/
theorem exists_consignmentRecord : (∃ r, consignmentRecord L t consignment g = .ok r) ↔
    ∃ c, g.catches = [c] ∧
      (∃ species, requireCanonicalText L (fieldOrNone c.payload (lit "speciesCode"))
        (lit "speciesCode") 64 = .ok species) ∧
      (∃ weight, finiteNumber L (c.payload.get (lit "catchWeightKg")) (lit "catchWeightKg") c.eventId =
        .ok weight ∧ PyFloat.lt weight (PyFloat.ofInt 0) = false) ∧
      (∃ digest, coldchainDigest L (sortedSamples g) = .ok digest) ∧
      ∃ reference, exportReference L g = .ok reference := by
  unfold consignmentRecord
  constructor
  · rintro ⟨r, h⟩
    split at h
    swap
    · cases h
    rename_i c hc
    obtain ⟨species, hspecies, h⟩ := bind_eq_ok.1 h
    obtain ⟨weight, hweight, h⟩ := bind_eq_ok.1 h
    obtain ⟨hpos, h⟩ := guard_eq_ok.1 h
    obtain ⟨reference, hreference, h⟩ := bind_eq_ok.1 h
    obtain ⟨custodyJson, -, h⟩ := bind_eq_ok.1 h
    obtain ⟨digest, hdigest, -⟩ := bind_eq_ok.1 h
    exact ⟨c, hc, ⟨species, hspecies⟩, ⟨weight, hweight, by simpa using hpos⟩, ⟨digest, hdigest⟩,
      ⟨reference, hreference⟩⟩
  · rintro ⟨c, hc, ⟨species, hspecies⟩, ⟨weight, hweight, hpos⟩, ⟨digest, hdigest⟩, reference,
      hreference⟩
    have htexts : ∀ ids : List Text, ∃ json, dumpsTexts (F := F) ids = .ok json := fun ids =>
      ⟨_, dumps_texts {} ids⟩
    obtain ⟨custodyJson, hcustody⟩ := htexts (custodyIds g)
    obtain ⟨sourceJson, hsource⟩ := htexts (sourceIds c g)
    rw [hc]
    dsimp only
    rw [hspecies, ok_bind, hweight, ok_bind, if_neg (by simp [hpos]), hreference, ok_bind, hcustody,
      ok_bind, hdigest, ok_bind, hsource, ok_bind]
    exact ⟨_, rfl⟩

/-! ## Groups of the same events -/

/-- **Groups of the same events**, in any order. -/
structure SameEvents (g g' : Group F) : Prop where
  catches : g.catches.Perm g'.catches
  custody : g.custody.Perm g'.custody
  coldchain : g.coldchain.Perm g'.coldchain
  exports : g.exports.Perm g'.exports
  floor : g.clearanceFloor = g'.clearanceFloor
  /-- No two samples share an event. -/
  samples : (g.coldchain.map Sample.eventId).Nodup

variable {sources sources' : List (SourceEvent F)} {events events' : List (Row F)}

omit [PyFloat F] in
/-- The events of a family are permuted with the list. -/
theorem ofFamily_perm (h : sources.Perm sources') (family : Family) :
    (ofFamily family sources).Perm (ofFamily family sources') := h.filter _

/-- The samples keep the order of the events they are read from. -/
theorem samples_sublist (sources : List (SourceEvent F)) :
    ((sources.filterMap fun s => (sampleOf L s).toOption).map Sample.eventId).Sublist
      (sources.map SourceEvent.eventId) := by
  induction sources with
  | nil => exact .slnil
  | cons s sources ih =>
    cases hs : sampleOf L s with
    | error e =>
      rw [List.filterMap_cons_none (by rw [hs]; rfl), List.map_cons]
      exact ih.cons _
    | ok sample =>
      have hid : sample.eventId = s.eventId := by
        obtain ⟨temperature, -, hs⟩ := bind_eq_ok.1 hs
        obtain ⟨-, hs⟩ := guard_eq_ok.1 hs
        cases hs
        rfl
      rw [List.filterMap_cons_some (b := sample) (by rw [hs]; rfl), List.map_cons, List.map_cons, hid]
      exact ih.cons_cons _

/-- **Two orders of events of distinct ids give groups of the same events.** -/
theorem sameEvents_groupOf (h : sources.Perm sources')
    (hids : (sources.map SourceEvent.eventId).Nodup) :
    SameEvents (groupOf L sources) (groupOf L sources') where
  catches := ofFamily_perm h _
  custody := ofFamily_perm h _
  coldchain := (ofFamily_perm h _).filterMap _
  exports := ofFamily_perm h _
  floor := by
    have hcomm : RightCommutative fun (floor : Clearance) (s : SourceEvent F) =>
        max floor (clearanceOf L s.row) := ⟨fun _ _ _ => max_right_comm _ _ _⟩
    exact h.foldl_eq _
  samples := hids.sublist ((samples_sublist _).trans (List.filter_sublist.map _))

/-- The ids of the source events are those of some of the rows, in their
order. -/
theorem ids_filterMap (events : List (Row F)) :
    ((events.filterMap fun e => (sourceEvent L e).toOption.map Prod.snd).map fun s =>
        (Cell.text s.eventId : Cell F)).Sublist (events.map fun e => e.get "event_id") := by
  induction events with
  | nil => exact .slnil
  | cons e events ih =>
    cases hs : sourceEvent L e with
    | error err =>
      rw [List.filterMap_cons_none (by rw [hs]; rfl), List.map_cons]
      exact ih.cons _
    | ok p =>
      rw [List.filterMap_cons_some (b := p.2) (by rw [hs]; rfl), List.map_cons, List.map_cons,
        (sourceEvent_eq_ok hs).2]
      exact ih.cons_cons _

/-- The events of a consignment have their rows' ids. -/
theorem nodup_sourcesOf (hids : (events.map fun e => e.get "event_id").Nodup) (consignment : Text) :
    ((sourcesOf L events consignment).map SourceEvent.eventId).Nodup := by
  have hcells : (((sourcesOf L events consignment).map SourceEvent.eventId).map
      (Cell.text (F := F))).Nodup := by
    rw [List.map_map, sourcesOf, entriesOf_source]
    exact hids.sublist ((ids_filterMap _).trans (List.filter_sublist.map _))
  exact hcells.of_map

/-- A consignment's events are permuted with the rows. -/
theorem sourcesOf_perm (h : events.Perm events') (consignment : Text) :
    (sourcesOf L events consignment).Perm (sourcesOf L events' consignment) :=
  ((h.filterMap _).filter _).map _

/-- The consignments of a content do not depend on its order. -/
theorem consignments_perm (h : events.Perm events') :
    consignments L events = consignments L events' :=
  insertionSort_perm (h.filterMap _).dedup

omit [PyFloat F] in
/-- Samples of distinct events are sorted alike, in any order. -/
theorem sortedSamples_perm (h : g.coldchain.Perm g'.coldchain)
    (hids : (g.coldchain.map Sample.eventId).Nodup) : sortedSamples g = sortedSamples g' := by
  refine sortBy_perm h (hids.of_map.map_on fun s hs s' hs' hkey => ?_)
  exact List.inj_on_of_nodup_map hids hs hs'
    (congrArg (fun key : ℤ ×ₗ Text => (ofLex key).2) hkey)

omit [PyFloat F] in
/-- The samples sorted by event id are the same. -/
theorem SameEvents.sortedSamples (h : SameEvents g g') : sortedSamples g = sortedSamples g' :=
  sortedSamples_perm h.coldchain h.samples

/-- Whether a group can be recorded does not depend on the order of its
events. -/
theorem SameEvents.recordable (h : SameEvents g g') (hg : Recordable L g) : Recordable L g' := by
  obtain ⟨c, hc, hspecies, hweight, hexports⟩ := hg
  refine ⟨c, List.perm_singleton.1 (hc ▸ h.catches).symm, hspecies, hweight, ?_⟩
  obtain hnil | ⟨s, hs, hreference⟩ := hexports
  · exact Or.inl (List.nil_perm.1 (hnil ▸ h.exports))
  · exact Or.inr ⟨s, h.exports.mem_iff.1 hs, hreference⟩

/-- **Groups of the same events have the same record**, where they have the
same reference. -/
theorem SameEvents.record (h : SameEvents g g')
    (hreference : (exportReference L g).toOption = (exportReference L g').toOption) :
    (consignmentRecord L t consignment g).toOption = (consignmentRecord L t consignment g').toOption := by
  have hcustody : custodyIds g = custodyIds g' := insertionSort_perm (h.custody.map _)
  have hsamples := h.sortedSamples
  have hsource : ∀ c, sourceIds c g = sourceIds c g' := by
    intro c
    rw [sourceIds, sourceIds, hcustody, hsamples]
    exact insertionSort_perm ((h.exports.map _).append_left _)
  have hrefused : ∀ {g : Group F}, (¬∃ r, consignmentRecord L t consignment g = .ok r) →
      (consignmentRecord L t consignment g).toOption = none := by
    intro g hnone
    cases hr : consignmentRecord L t consignment g with
    | error e => rfl
    | ok r => exact absurd ⟨r, hr⟩ hnone
  by_cases hok : (∃ c, g.catches = [c]) ∧ ∃ reference, exportReference L g = .ok reference
  · obtain ⟨⟨c, hc⟩, reference, href⟩ := hok
    have hc' : g'.catches = [c] := List.perm_singleton.1 (hc ▸ h.catches).symm
    have href' : exportReference L g' = .ok reference := by
      rw [href] at hreference
      exact toOption_eq_some.1 hreference.symm
    unfold consignmentRecord
    rw [hc, hc']
    simp only [href, href', hcustody, hsamples, hsource, h.floor]
  · rw [hrefused, hrefused]
    · rw [exists_consignmentRecord]
      rintro ⟨c, hc', -, -, -, reference, href'⟩
      refine hok ⟨⟨c, List.perm_singleton.1 (hc' ▸ h.catches)⟩, reference, ?_⟩
      rw [href'] at hreference
      exact toOption_eq_some.1 hreference
    · rw [exists_consignmentRecord]
      rintro ⟨c, hc, -, -, -, href⟩
      exact hok ⟨⟨c, hc⟩, href⟩

/-! ## Where the assembly returns -/

omit [PyFloat F] in
/-- The export reference is that of the last export; there is none without an
export. -/
theorem exportReference_eq_ok {reference : Option Text} :
    exportReference L g = .ok reference ↔ g.exports = [] ∧ reference = none ∨
      ∃ s r, g.exports.getLast? = some s ∧ referenceOf L s = .ok r ∧ reference = some r := by
  rw [exportReference_eq]
  cases hlast : g.exports.getLast? with
  | none => simp [List.getLast?_eq_none_iff.1 hlast, eq_comm]
  | some s =>
    have hne : g.exports ≠ [] := by
      rintro hnil
      rw [hnil] at hlast
      cases hlast
    cases hr : referenceOf L s with
    | error e => simp [hne, hr]
    | ok r => simp [hne, hr, eq_comm]

/-- **The assembly returns** where the events can be assembled and the last
export event of every consignment has a reference. -/
theorem exists_build : (∃ records, buildConsignmentRecords L t events = .ok records) ↔
    Assemblable L events ∧ ∀ k ∈ consignments L events,
      ∃ reference, exportReference L (groupOf L (sourcesOf L events k)) = .ok reference := by
  constructor
  · rintro ⟨records, h⟩
    obtain ⟨hne, haccepted, h⟩ := buildConsignmentRecords_eq_ok.1 h
    have hrecord : ∀ k ∈ consignments L events, ∃ r,
        consignmentRecord L t k (groupOf L (sourcesOf L events k)) = .ok r := by
      intro k hk
      rw [collect_eq_ok, List.forall₂_map_left_iff] at h
      obtain ⟨r, -, hr⟩ := exists_of_forall₂ h.flip hk
      exact ⟨r, hr⟩
    refine ⟨⟨hne, haccepted, fun k hk => ?_, fun k hk => ?_⟩, fun k hk => ?_⟩
    · obtain ⟨c, hc, hspecies, hweight, -, reference, hreference⟩ :=
        exists_consignmentRecord.1 (hrecord k hk)
      refine ⟨c, hc, hspecies, hweight, ?_⟩
      obtain ⟨hnil, -⟩ | ⟨s, r, hs, hr, -⟩ := exportReference_eq_ok.1 hreference
      · exact Or.inl hnil
      · exact Or.inr ⟨s, List.mem_of_getLast? hs, r, hr⟩
    · obtain ⟨_, _, -, -, hdigest, -⟩ := exists_consignmentRecord.1 (hrecord k hk)
      exact hdigest
    · obtain ⟨_, _, -, -, -, hreference⟩ := exists_consignmentRecord.1 (hrecord k hk)
      exact hreference
  · rintro ⟨⟨hne, haccepted, hrecordable, hwritten⟩, hreference⟩
    have hrecord : ∀ k ∈ consignments L events, ∃ r,
        consignmentRecord L t k (groupOf L (sourcesOf L events k)) = .ok r := by
      intro k hk
      obtain ⟨c, hc, hspecies, hweight, -⟩ := hrecordable k hk
      exact exists_consignmentRecord.2 ⟨c, hc, hspecies, hweight, hwritten k hk, hreference k hk⟩
    obtain ⟨records, hrecords⟩ := exists_collect_map hrecord
    exact ⟨records, buildConsignmentRecords_eq_ok.2 ⟨hne, haccepted, hrecords⟩⟩

/-- Whether some order can be assembled does not depend on the order. -/
theorem Assemblable.perm (h : Assemblable L events) (hp : events.Perm events')
    (hids : (events.map fun e => e.get "event_id").Nodup) : Assemblable L events' where
  nonempty hnil := h.nonempty (List.perm_nil.1 (hnil ▸ hp))
  accepted e he := h.accepted e (hp.mem_iff.2 he)
  recordable k hk := (sameEvents_groupOf (sourcesOf_perm hp k) (nodup_sourcesOf hids k)).recordable
    (h.recordable k (consignments_perm hp ▸ hk))
  written k hk := by
    rw [← (sameEvents_groupOf (sourcesOf_perm hp k) (nodup_sourcesOf hids k)).sortedSamples]
    exact h.written k (consignments_perm hp ▸ hk)

/-- A consignment's exports are permuted with the rows. -/
theorem exportsOf_perm (hp : events.Perm events') (k : Text) :
    (exportsOf L events k).Perm (exportsOf L events' k) := ofFamily_perm (sourcesOf_perm hp k) _

omit [PyFloat F] in
/-- Among alike references it does not matter which comes last. -/
theorem exportReference_of_alike (hp : g.exports.Perm g'.exports)
    (halike : ∀ s ∈ g.exports, ∀ s' ∈ g.exports,
      (referenceOf L s).toOption = (referenceOf L s').toOption)
    {reference : Option Text} (h : exportReference L g = .ok reference) :
    exportReference L g' = .ok reference := by
  rw [exportReference_eq_ok] at h ⊢
  obtain ⟨hnil, rfl⟩ | ⟨s, r, hs, hr, rfl⟩ := h
  · exact Or.inl ⟨List.nil_perm.1 (hnil ▸ hp), rfl⟩
  · have hmem := List.mem_of_getLast? hs
    have hne : g'.exports ≠ [] := List.ne_nil_of_mem (hp.mem_iff.1 hmem)
    refine Or.inr ⟨g'.exports.getLast hne, r, List.getLast?_eq_some_getLast hne, ?_, rfl⟩
    have hlast := hp.mem_iff.2 (List.getLast_mem hne)
    rw [← toOption_eq_some, ← halike s hmem _ hlast, hr]
    rfl

/-- **Alike references make the order irrelevant.** -/
theorem build_perm (halike : AlikeReferences L events) (hp : events.Perm events')
    (hids : (events.map fun e => e.get "event_id").Nodup) :
    (buildConsignmentRecords L t events).toOption = (buildConsignmentRecords L t events').toOption := by
  have hreference : ∀ k, (exportReference L (groupOf L (sourcesOf L events k))).toOption =
      (exportReference L (groupOf L (sourcesOf L events' k))).toOption := by
    intro k
    have hexports := exportsOf_perm (L := L) hp k
    refine Option.ext fun reference => ?_
    rw [toOption_eq_some, toOption_eq_some]
    constructor
    · exact exportReference_of_alike hexports (halike k)
    · exact exportReference_of_alike hexports.symm fun s hs s' hs' =>
        halike k s (hexports.mem_iff.2 hs) s' (hexports.mem_iff.2 hs')
  have hrecord : ∀ k r, consignmentRecord L t k (groupOf L (sourcesOf L events k)) = .ok r ↔
      consignmentRecord L t k (groupOf L (sourcesOf L events' k)) = .ok r := by
    intro k r
    have hsame := sameEvents_groupOf (L := L) (sourcesOf_perm (L := L) hp k) (nodup_sourcesOf hids k)
    rw [← toOption_eq_some, ← toOption_eq_some, hsame.record (hreference k)]
  have hcollect : ∀ records, collect ((consignments L events).map fun k =>
        consignmentRecord L t k (groupOf L (sourcesOf L events k))) = .ok records ↔
      collect ((consignments L events').map fun k =>
        consignmentRecord L t k (groupOf L (sourcesOf L events' k))) = .ok records := by
    intro records
    rw [collect_eq_ok, collect_eq_ok, List.forall₂_map_left_iff, List.forall₂_map_left_iff,
      consignments_perm hp]
    simp only [hrecord]
  have hnil : events ≠ [] ↔ events' ≠ [] := by
    rw [ne_eq, ne_eq, ← List.length_eq_zero_iff, ← List.length_eq_zero_iff, hp.length_eq]
  have haccepted : (∀ e ∈ events, Accepted L e) ↔ ∀ e ∈ events', Accepted L e :=
    forall_congr' fun e => imp_congr hp.mem_iff Iff.rfl
  refine Option.ext fun records => ?_
  rw [toOption_eq_some, toOption_eq_some, buildConsignmentRecords_eq_ok,
    buildConsignmentRecords_eq_ok, hnil, haccepted, hcollect]

/-! ## An event put last -/

/-- A consignment's events are those that rows of it decode to. -/
theorem mem_sourcesOf {k : Text} {s : SourceEvent F} :
    s ∈ sourcesOf L events k ↔ ∃ e ∈ events, sourceEvent L e = .ok (k, s) := by
  rw [sourcesOf, entriesOf_source, List.mem_filterMap]
  constructor
  · rintro ⟨e, he, hs⟩
    have hk : consignmentOf L e = some k := of_decide_eq_true (List.mem_filter.1 he).2
    replace he := (List.mem_filter.1 he).1
    obtain ⟨⟨k', s'⟩, hsource, rfl⟩ := Option.map_eq_some_iff.1 hs
    rw [consignmentOf, hsource] at hk
    cases hk
    exact ⟨e, he, toOption_eq_some.1 hsource⟩
  · rintro ⟨e, he, hs⟩
    refine ⟨e, List.mem_filter.2 ⟨he, ?_⟩, by rw [hs]; rfl⟩
    rw [consignmentOf, hs]
    simp [Except.toOption]

/-- An id is that of one event of one consignment. -/
theorem source_unique (hids : (events.map fun e => e.get "event_id").Nodup) {k k' : Text}
    {s s' : SourceEvent F} (hs : s ∈ sourcesOf L events k) (hs' : s' ∈ sourcesOf L events k')
    (hid : s.eventId = s'.eventId) : s = s' := by
  obtain ⟨e, he, hs⟩ := mem_sourcesOf.1 hs
  obtain ⟨e', he', hs'⟩ := mem_sourcesOf.1 hs'
  have hcell : e.get "event_id" = e'.get "event_id" := by
    rw [(sourceEvent_eq_ok hs).2, (sourceEvent_eq_ok hs').2, hid]
  have hrow := List.inj_on_of_nodup_map hids he he' hcell
  rw [hrow, hs'] at hs
  cases hs
  rfl

/-- Where an event stands once that of an id is put last: events with a
reference come behind those without one. -/
def SourceEvent.rank (L : Library) (id : Text) (s : SourceEvent F) : ℕ :=
  if s.eventId = id then 2 else if (referenceOf L s).toOption.isSome then 1 else 0

/-- **The events with that of an id last.** -/
def arranged (L : Library) (id : Text) (events : List (Row F)) : List (Row F) :=
  sortBy (fun e => ((sourceEvent L e).toOption.map fun p => p.2.rank L id).getD 0) events

/-- An arranged content has the same rows. -/
theorem perm_arranged (L : Library) (id : Text) (events : List (Row F)) :
    events.Perm (arranged L id events) := (perm_sortBy _ _).symm

/-- An arranged content lists an event of the chosen id behind the others. -/
theorem pairwise_rank (L : Library) (id : Text) (events : List (Row F)) (k : Text) :
    (exportsOf L (arranged L id events) k).Pairwise fun s s' => s.rank L id ≤ s'.rank L id := by
  have hrows := pairwise_sortBy (fun e => ((sourceEvent L e).toOption.map fun p =>
    p.2.rank L id).getD 0) events
  rw [exportsOf, sourcesOf, entriesOf_source]
  refine (List.Pairwise.filterMap _ (fun e e' hle s hs s' hs' => ?_) (hrows.filter _)).filter _
  obtain ⟨p, hp, rfl⟩ := Option.map_eq_some_iff.1 hs
  obtain ⟨p', hp', rfl⟩ := Option.map_eq_some_iff.1 hs'
  rw [hp, hp'] at hle
  exact hle

/-- The last export event of a consignment has the greatest rank. -/
theorem rank_le_last {id : Text} {k : Text} {s x : SourceEvent F} (hs : s ∈ exportsOf L events k)
    (hx : (exportsOf L (arranged L id events) k).getLast? = some x) :
    s.rank L id ≤ x.rank L id := by
  have hmem := (exportsOf_perm (perm_arranged L id events) k).mem_iff.1 hs
  have hpairwise := pairwise_rank L id events k
  obtain ⟨init, hinit⟩ := List.getLast?_eq_some_iff.1 hx
  rw [hinit] at hmem hpairwise
  obtain hmem | hmem := List.mem_append.1 hmem
  · exact (List.pairwise_append.1 hpairwise).2.2 s hmem x (List.mem_singleton.2 rfl)
  · rw [List.mem_singleton.1 hmem]

/-- The last export of an arranged content is an event of its consignment. -/
theorem mem_exportsOf_of_last {id : Text} {k : Text} {x : SourceEvent F}
    (hx : (exportsOf L (arranged L id events) k).getLast? = some x) : x ∈ sourcesOf L events k :=
  (List.mem_filter.1 ((exportsOf_perm (perm_arranged L id events) k).mem_iff.2
    (List.mem_of_getLast? hx))).1

/-- Any export can be made the last one of its consignment. -/
theorem last_arranged (hids : (events.map fun e => e.get "event_id").Nodup) {k : Text}
    {s : SourceEvent F} (hs : s ∈ exportsOf L events k) :
    (exportsOf L (arranged L s.eventId events) k).getLast? = some s := by
  have hmem := (exportsOf_perm (perm_arranged L s.eventId events) k).mem_iff.1 hs
  have hx := List.getLast?_eq_some_getLast (List.ne_nil_of_mem hmem)
  generalize (exportsOf L (arranged L s.eventId events) k).getLast (List.ne_nil_of_mem hmem) = x at hx
  have hrank := rank_le_last hs hx
  have hid : x.eventId = s.eventId := by
    by_contra hne
    rw [SourceEvent.rank, SourceEvent.rank, if_pos rfl, if_neg hne] at hrank
    split_ifs at hrank <;> omega
  rw [hx, source_unique hids (mem_exportsOf_of_last hx) (List.mem_filter.1 hs).1 hid]

/-- **Put last, an event with a reference** lets the assembly return. -/
theorem build_arranged (h : Assemblable L events)
    (hids : (events.map fun e => e.get "event_id").Nodup) {k : Text} {s : SourceEvent F} {r : Text}
    (hs : s ∈ exportsOf L events k) (hr : referenceOf L s = .ok r) :
    ∃ records, buildConsignmentRecords L t (arranged L s.eventId events) = .ok records := by
  have hp := perm_arranged L s.eventId events
  refine exists_build.2 ⟨h.perm hp hids, fun k' hk' => ?_⟩
  have hk' : k' ∈ consignments L events := by rwa [consignments_perm hp]
  cases hlast : (exportsOf L (arranged L s.eventId events) k').getLast? with
  | none => exact ⟨none, exportReference_eq_ok.2 (Or.inl ⟨List.getLast?_eq_none_iff.1 hlast, rfl⟩)⟩
  | some x =>
    have hx : ∃ r, referenceOf L x = .ok r := by
      by_cases hid : x.eventId = s.eventId
      · rw [source_unique hids (mem_exportsOf_of_last hlast) (List.mem_filter.1 hs).1 hid]
        exact ⟨r, hr⟩
      · obtain ⟨_, -, -, -, hexports⟩ := h.recordable k' hk'
        obtain hnil | ⟨v, hv, rv, hrv⟩ := hexports
        · have hmem := (exportsOf_perm hp k').mem_iff.2 (List.mem_of_getLast? hlast)
          have hempty : exportsOf L events k' = [] := hnil
          rw [hempty] at hmem
          cases hmem
        · have hrank := rank_le_last hv hlast
          have hpos : 1 ≤ v.rank L s.eventId := by
            rw [SourceEvent.rank, hrv]
            split_ifs
            · decide
            · exact le_rfl
            · rename_i hnone
              exact absurd rfl hnone
          replace hrank := hpos.trans hrank
          rw [SourceEvent.rank, if_neg hid] at hrank
          split_ifs at hrank with hsome
          · obtain ⟨rx, hrx⟩ := Option.isSome_iff_exists.1 hsome
            exact ⟨rx, toOption_eq_some.1 hrx⟩
          · omega
    obtain ⟨rx, hrx⟩ := hx
    exact ⟨some rx, exportReference_eq_ok.2 (Or.inr ⟨x, rx, hlast, hrx, rfl⟩)⟩

/-! ## Order independence -/

/-- What is published does not depend on the time. -/
theorem published_time (t t' : ℤ) (events : List (Row F)) :
    published L t events = published L t' events := by
  unfold published
  have hbuilds : (∃ records, buildConsignmentRecords L t events = .ok records) ↔
      ∃ records, buildConsignmentRecords L t' events = .ok records :=
    exists_build.trans exists_build.symm
  cases h : buildConsignmentRecords L t events with
  | error e =>
    cases h' : buildConsignmentRecords L t' events with
    | error e' => rfl
    | ok records' =>
      obtain ⟨records, hrecords⟩ := hbuilds.2 ⟨records', h'⟩
      rw [h] at hrecords
      cases hrecords
  | ok records =>
    obtain ⟨records', h'⟩ := hbuilds.1 ⟨records, h⟩
    rw [h']
    have hcollect : ∀ {t : ℤ} {records : List (Row F)},
        buildConsignmentRecords L t events = .ok records →
        List.Forall₂ (fun g r => consignmentRecord L t g.1 g.2 = .ok r)
          ((consignments L events).map fun k => (k, groupOf L (sourcesOf L events k))) records := by
      intro t records h
      have hrecords := (buildConsignmentRecords_eq_ok.1 h).2.2
      rw [collect_eq_ok, List.forall₂_map_left_iff] at hrecords
      rwa [List.forall₂_map_left_iff]
    exact congrArg some (map_withoutAssembledAt_eq (hcollect h) (hcollect h'))

/-- The reference a record publishes. -/
theorem exportReference_of_record (h : consignmentRecord L t consignment g = .ok r) :
    ∃ reference, exportReference L g = .ok reference ∧
      (withoutAssembledAt r).get "export_reference" = optionalText reference := by
  unfold consignmentRecord at h
  split at h
  swap
  · cases h
  obtain ⟨species, -, h⟩ := bind_eq_ok.1 h
  obtain ⟨weight, -, h⟩ := bind_eq_ok.1 h
  obtain ⟨-, h⟩ := guard_eq_ok.1 h
  obtain ⟨reference, hreference, h⟩ := bind_eq_ok.1 h
  obtain ⟨custodyJson, -, h⟩ := bind_eq_ok.1 h
  obtain ⟨digest, -, h⟩ := bind_eq_ok.1 h
  obtain ⟨sourceJson, -, h⟩ := bind_eq_ok.1 h
  cases h
  exact ⟨reference, hreference, rfl⟩

omit [PyFloat F] in
/-- Records published alike, consignment by consignment. -/
theorem records_of_published {ks : List Text} {f f' : Text → Except PyError (Row F)}
    {records records' : List (Row F)} (h : collect (ks.map f) = .ok records)
    (h' : collect (ks.map f') = .ok records')
    (heq : records.map withoutAssembledAt = records'.map withoutAssembledAt) :
    ∀ k ∈ ks, ∃ r r', f k = .ok r ∧ f' k = .ok r' ∧ withoutAssembledAt r = withoutAssembledAt r' := by
  rw [collect_eq_ok, List.forall₂_map_left_iff] at h h'
  induction h generalizing records' with
  | nil => exact fun _ hk => absurd hk List.not_mem_nil
  | @cons k r _ _ hr _ ih =>
    cases h' with
    | @cons _ r' _ records' hr' hrest =>
      rw [List.map_cons, List.map_cons] at heq
      obtain ⟨hhead, htail⟩ := List.cons.inj heq
      exact List.forall_mem_cons.2 ⟨⟨r, r', hr, hr', hhead⟩, ih hrest htail⟩

/-- **Two export events of a consignment** published alike, each put last,
carry one reference. -/
theorem alike_of_published (h : Assemblable L events)
    (hids : (events.map fun e => e.get "event_id").Nodup) {k : Text} {s s' : SourceEvent F} {x : Text}
    (hs : s ∈ exportsOf L events k) (hs' : s' ∈ exportsOf L events k)
    (hr : referenceOf L s = .ok x)
    (hall : published L t (arranged L s.eventId events) = published L t (arranged L s'.eventId events)) :
    referenceOf L s' = .ok x := by
  obtain ⟨records, hrecords⟩ := build_arranged (t := t) h hids hs hr
  unfold published at hall
  rw [hrecords] at hall
  obtain ⟨records', hrecords', hsame⟩ := Option.map_eq_some_iff.1 hall.symm
  rw [toOption_eq_some] at hrecords'
  have hk : k ∈ consignments L events := by
    obtain ⟨e, he, hsource⟩ := mem_sourcesOf.1 (List.mem_filter.1 hs).1
    exact mem_consignments.2 ⟨e, he, by rw [consignmentOf, hsource]; rfl⟩
  have hcollect := (buildConsignmentRecords_eq_ok.1 hrecords).2.2
  have hcollect' := (buildConsignmentRecords_eq_ok.1 hrecords').2.2
  rw [← consignments_perm (perm_arranged L _ events)] at hcollect hcollect'
  obtain ⟨r, r', hrecord, hrecord', heq⟩ := records_of_published hcollect hcollect' hsame.symm k hk
  obtain ⟨reference, href, hcell⟩ := exportReference_of_record hrecord
  obtain ⟨reference', href', hcell'⟩ := exportReference_of_record hrecord'
  have hlast : ∀ {s : SourceEvent F} {reference : Option Text}, s ∈ exportsOf L events k →
      exportReference L (groupOf L (sourcesOf L (arranged L s.eventId events) k)) = .ok reference →
      ∃ y, referenceOf L s = .ok y ∧ reference = some y := by
    intro s reference hs href
    have hlast := last_arranged hids hs
    obtain ⟨hnil, -⟩ | ⟨s₂, y, hs₂, hy, rfl⟩ := exportReference_eq_ok.1 href
    · have hempty : exportsOf L (arranged L s.eventId events) k = [] := hnil
      rw [hempty] at hlast
      cases hlast
    · obtain rfl := Option.some.inj (hlast.symm.trans hs₂)
      exact ⟨y, hy, rfl⟩
  obtain ⟨y, hy, rfl⟩ := hlast hs href
  obtain ⟨y', hy', rfl⟩ := hlast hs' href'
  rw [heq, hcell'] at hcell
  obtain rfl := Except.ok.inj (hr.symm.trans hy)
  rw [hy']
  have hyy : (Cell.text y' : Cell F) = .text x := hcell
  cases hyy
  rfl

/-- Nothing is published of a content that cannot be assembled. -/
theorem published_eq_none (h : ¬Assemblable L events) : published L t events = none := by
  unfold published
  cases hbuild : buildConsignmentRecords L t events with
  | error e => rfl
  | ok records => exact absurd (exists_build.1 ⟨records, hbuild⟩).1 h

/-- **The assembly does not depend on the order of its events** exactly
where no order can be assembled, or the export events of every consignment
carry one reference. -/
theorem published_perm_iff (t : ℤ) (hids : (events.map fun e => e.get "event_id").Nodup) :
    (∀ events' t', events.Perm events' → published L t' events' = published L t events) ↔
      (Assemblable L events → AlikeReferences L events) := by
  constructor
  · intro hall h k s hs s' hs'
    have hsame : published L t (arranged L s.eventId events) =
        published L t (arranged L s'.eventId events) :=
      (hall _ t (perm_arranged L _ events)).trans (hall _ t (perm_arranged L _ events)).symm
    cases hr : referenceOf L s with
    | ok x => rw [alike_of_published h hids hs hs' hr hsame]
    | error e =>
      cases hr' : referenceOf L s' with
      | ok x =>
        rw [alike_of_published h hids hs' hs hr' hsame.symm] at hr
        cases hr
      | error e' => rfl
  · intro halike events' t' hp
    rw [published_time t' t events']
    by_cases h : Assemblable L events
    · rw [published, published, build_perm (halike h) hp hids]
    · have hids' : (events'.map fun e => e.get "event_id").Nodup := (hp.map _).nodup_iff.1 hids
      rw [published_eq_none h, published_eq_none fun h' => h (h'.perm hp.symm hids')]

/-! ## Two declarations -/

/-- An event of one consignment, of some type and with some more fields. -/
def consignmentEvent (id eventType fields : String) : Row Decimal :=
  [("event_id", .text (lit id)), ("event_type", .text (lit eventType)),
    ("occurred_at", .instant 1786521600000000),
    ("payload_json", .text (lit "\x7b\x22consignmentId\x22:\x22C-1\x22" ++ lit fields ++ lit "\x7d")),
    ("record_classification", .null)]

def tunaCatch : Row Decimal := consignmentEvent "e-1" "fisheries.catch.v1"
  ",\x22speciesCode\x22:\x22TUNA\x22,\x22catchWeightKg\x22:125"

/-- An export declaration. -/
def exportEvent (id reference : String) : Row Decimal :=
  consignmentEvent id "export.declaration.v1" (",\x22exportReference\x22:\x22" ++ reference ++ "\x22")

/-- **Two declarations with one reference**, around the catch and in the
other order. -/
theorem published_swap_same :
    published Library.ascii 1 [exportEvent "e-3" "EXP-1", exportEvent "e-2" "EXP-1", tunaCatch] =
      published Library.ascii 0 [tunaCatch, exportEvent "e-2" "EXP-1", exportEvent "e-3" "EXP-1"] := by
  refine (published_perm_iff 0 (by decide +kernel)).2 (fun _ => ?_) _ 1 (List.reverse_perm _).symm
  have hone : ∀ k, ∀ s ∈ exportsOf Library.ascii
      [tunaCatch, exportEvent "e-2" "EXP-1", exportEvent "e-3" "EXP-1"] k,
      (referenceOf Library.ascii s).toOption = some (lit "EXP-1") := by
    intro k s hs
    obtain ⟨hs, hfamily⟩ := List.mem_filter.1 hs
    obtain ⟨e, he, hsource⟩ := mem_sourcesOf.1 hs
    have hall : ∀ e ∈ [tunaCatch, exportEvent "e-2" "EXP-1", exportEvent "e-3" "EXP-1"],
        (sourceEvent Library.ascii e).toOption.all (fun p => p.2.family ≠ some .exports ∨
          (referenceOf Library.ascii p.2).toOption = some (lit "EXP-1")) = true := by decide +kernel
    have he := hall e he
    rw [hsource] at he
    exact (of_decide_eq_true he).resolve_left (not_not_intro (of_decide_eq_true hfamily))
  intro k s hs s' hs'
  rw [hone k s hs, hone k s' hs']

/-- **Two declarations with different references**, in both orders. -/
theorem published_swap_two : ∃ events' : List (Row Decimal),
    [tunaCatch, exportEvent "e-2" "EXP-1", exportEvent "e-3" "EXP-2"].Perm events' ∧
      published Library.ascii 0 events' ≠
        published Library.ascii 0 [tunaCatch, exportEvent "e-2" "EXP-1", exportEvent "e-3" "EXP-2"] := by
  refine ⟨[tunaCatch, exportEvent "e-3" "EXP-2", exportEvent "e-2" "EXP-1"],
    (List.Perm.swap _ _ _).cons _, fun hsame => ?_⟩
  have hreferences := congrArg (Option.map (List.map fun r : Row Decimal => r.get "export_reference")) hsame
  exact absurd hreferences (by decide +kernel)

end Fisheries

end Lakehouse

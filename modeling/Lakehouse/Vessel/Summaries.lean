import Lakehouse.Common.Dict
import Lakehouse.Common.Greatest
import Lakehouse.Vessel.Partition
/-!
# Summaries, in any order of the rows

The rollup keeps, for a geofence and a vessel, the first of the earliest
observations inside and the first of the latest (`mem_buildGeofenceSummaries`).
Their times are the same in any order of the rows; which observations they
are is not, where several share the earliest or the latest time
(`summaries_orderFree_iff`).
-/

namespace Lakehouse

namespace Vessel

variable {F : Type} [PyFloat F] [PyMath F] {L : Library}

/-! ## The rollup, without the ways to raise -/

/-- An observation is inside. -/
def Geofence.holds (geofence : Geofence F) (o : Observation F) : Bool :=
  match containsPosition geofence.geometry ⟨o.latitude, o.longitude⟩ with
  | .ok inside => inside
  | .error _ => false

/-- The observations of one vessel inside a geofence, as the rows come. -/
def inside (geofence : Geofence F) (mmsi : Text) (os : List (Observation F)) :
    List (Observation F) := os.filter fun o => o.mmsi = mmsi && geofence.holds o

/-- The text of a geometry. -/
def Geofence.wkt (geofence : Geofence F) : Text :=
  match geofencePolygonWkt geofence.geometry with
  | .ok text => text
  | .error _ => []

/-- An entry after one observation more. -/
def GeofenceSummary.seenBy (s : GeofenceSummary) (o : Observation F) : GeofenceSummary :=
  { s with
    observationCount := s.observationCount + 1
    firstSeenAt := if o.occurredAt < s.firstSeenAt then o.occurredAt else s.firstSeenAt
    firstEventId := if o.occurredAt < s.firstSeenAt then o.eventId else s.firstEventId
    lastSeenAt := if s.lastSeenAt < o.occurredAt then o.occurredAt else s.lastSeenAt
    lastEventId := if s.lastSeenAt < o.occurredAt then o.eventId else s.lastEventId }

/-- The entry of the observations one is the first and one the last of. -/
def entryOf (now : ℤ) (geofence : Geofence F) (count : ℕ) (first last : Observation F) :
    GeofenceSummary where
  geofenceId := geofence.identifier
  mmsi := first.mmsi
  observationCount := count
  firstSeenAt := first.occurredAt
  lastSeenAt := last.occurredAt
  firstEventId := first.eventId
  lastEventId := last.eventId
  geometryWkt := geofence.wkt
  summarizedAt := now

/-- An entry after one observation more, or the first. -/
def seenNext (now : ℤ) (entry : Option GeofenceSummary) (c : Geofence F × Observation F) :
    GeofenceSummary :=
  match entry with
  | some s => s.seenBy c.2
  | none => entryOf now c.1 1 c.2 c.2

/-- What one observation adds, by geofence and MMSI. -/
def contactsOf (geofences : List (Geofence F)) (o : Observation F) :
    List ((Text × Text) × (Geofence F × Observation F)) :=
  (geofences.filter fun g => g.holds o).map fun g => ((g.identifier, o.mmsi), (g, o))

/-- What all of them add. -/
def contacts (geofences : List (Geofence F)) (os : List (Observation F)) :
    List ((Text × Text) × (Geofence F × Observation F)) := os.flatMap (contactsOf geofences)

section Pure

variable [LawfulFloat F] [LawfulMath F] {o : Observation F} {os : List (Observation F)}

omit [PyMath F] [LawfulFloat F] [LawfulMath F] in
/-- A summary takes in an observation's row as the observation. -/
theorem seen_row (s : GeofenceSummary) (o : Observation F) :
    s.seen L o.row o.occurredAt = .ok (s.seenBy o) := by
  rw [GeofenceSummary.seen, GeofenceSummary.seenFirst, GeofenceSummary.seenBy]
  simp only
  split_ifs with hfirst
  all_goals
    simp only [eventIdOf_row, ok_bind, pure_eq_ok, GeofenceSummary.seenLast]
    split_ifs
  all_goals rfl

/-- The test of a valid position is the geofence's own. -/
theorem containsPosition_row (h : o.Valid L) (geofence : Geofence F) :
    containsPosition geofence.geometry ⟨o.latitude, o.longitude⟩ = .ok (geofence.holds o) := by
  obtain ⟨b, hb⟩ : ∃ b, containsPosition geofence.geometry ⟨o.latitude, o.longitude⟩ = .ok b :=
    containsPosition_isOk h.motion.latitude.1 (validateGeometry_eq_ok geofence.valid)
  rw [Geofence.holds, hb]

omit [LawfulFloat F] [LawfulMath F] in
/-- An entry begun by an observation's row is that of the one observation. -/
theorem newEntry_row (now : ℤ) (o : Observation F) (geofence : Geofence F) :
    newEntry L now o.mmsi o.occurredAt o.row geofence = .ok (entryOf now geofence 1 o o) := by
  obtain ⟨t, ht⟩ := geofencePolygonWkt_isOk (validateGeometry_eq_ok geofence.valid)
  rw [newEntry, eventIdOf_row, ok_bind, ht, entryOf, Geofence.wkt, ht]
  rfl

/-- **One observation against one geofence** is one item of the dict. -/
theorem aggregateOne_row (h : o.Valid L) (now : ℤ) (geofence : Geofence F) {aggregates : Aggregates}
    (hd : (aggregates.map Prod.fst).Nodup) :
    aggregateOne L now o.mmsi o.occurredAt ⟨o.latitude, o.longitude⟩ o.row aggregates geofence =
      .ok (if geofence.holds o then Dict.upsert (geofence.identifier, o.mmsi)
        (fun entry => seenNext now entry (geofence, o)) aggregates else aggregates) := by
  rw [aggregateOne, containsPosition_row h, ok_bind]
  cases hin : geofence.holds o with
  | false => rfl
  | true =>
    rw [if_neg (by simp), if_pos rfl]
    simp only [Dict.get_eq_lookup]
    cases hget : Dict.get (geofence.identifier, o.mmsi) aggregates with
    | some entry =>
      simp only [seen_row, ok_bind, pure_eq_ok]
      rw [Dict.upsert_eq_map hd hget]
      rfl
    | none =>
      simp only [newEntry_row, ok_bind, pure_eq_ok]
      rw [Dict.upsert_eq_concat hget]
      rfl

/-- **One row** is the items of its contacts. -/
theorem aggregateRow_row (h : o.Valid L) (now : ℤ) (geofences : List (Geofence F))
    {aggregates : Aggregates} (hd : (aggregates.map Prod.fst).Nodup) :
    aggregateRow L now geofences aggregates o.row =
        .ok ((contactsOf geofences o).foldl (fun d p =>
          Dict.upsert p.1 (fun entry => seenNext now entry p.2) d) aggregates) ∧
      (((contactsOf geofences o).foldl (fun d p =>
        Dict.upsert p.1 (fun entry => seenNext now entry p.2) d) aggregates).map Prod.fst).Nodup := by
  have hinstant : instantOf o.row = .ok o.occurredAt := rfl
  have hlat : fieldOf o.row (lit "latitude") = .ok (.float o.latitude) := rfl
  have hlon : fieldOf o.row (lit "longitude") = .ok (.float o.longitude) := rfl
  rw [aggregateRow, h.normalizeMmsi, ok_bind, hinstant, ok_bind, hlat, ok_bind]
  simp only [PyObject.toFloat, ok_bind, hlon, h.position]
  induction geofences generalizing aggregates with
  | nil => exact ⟨rfl, hd⟩
  | cons geofence geofences ih =>
    rw [List.foldlM_cons, aggregateOne_row h now geofence hd, ok_bind]
    cases hin : geofence.holds o with
    | false =>
      rw [if_neg (by simp), contactsOf, List.filter_cons_of_neg (by simp [hin])]
      exact ih hd
    | true =>
      rw [if_pos rfl, contactsOf, List.filter_cons_of_pos (by simp [hin]), List.map_cons, List.foldl_cons]
      exact ih (Dict.nodup_upsert hd)

/-- **The rollup is a dict filled in one pass.** -/
theorem buildGeofenceSummaries_rows (h : ∀ o ∈ os, o.Valid L) (now : ℤ)
    {geofences : List (Geofence F)} (hne : geofences ≠ []) :
    buildGeofenceSummaries L now (os.map Observation.row) geofences =
      .ok ((sortBy (fun e => toLex e.1)
        (Dict.accumulate (seenNext now) (contacts geofences os))).map Prod.snd) := by
  have hfold : ∀ aggregates : Aggregates, (aggregates.map Prod.fst).Nodup →
      (os.map Observation.row).foldlM (aggregateRow L now geofences) aggregates =
        .ok ((contacts geofences os).foldl (fun d p =>
          Dict.upsert p.1 (fun entry => seenNext now entry p.2) d) aggregates) := by
    induction os with
    | nil => exact fun _ _ => rfl
    | cons o os ih =>
      intro aggregates hd
      obtain ⟨ho, hos⟩ := List.forall_mem_cons.1 h
      obtain ⟨hrow, hd'⟩ := aggregateRow_row ho now geofences hd
      rw [List.map_cons, List.foldlM_cons, hrow, ok_bind, ih hos _ hd', contacts, contacts,
        List.flatMap_cons, List.foldl_append]
  rw [buildGeofenceSummaries, if_neg hne, hfold [] List.nodup_nil, ok_bind]
  rfl

end Pure

/-! ## What an entry holds -/

section Entries

variable {geofences : List (Geofence F)} {geofence : Geofence F} {mmsi : Text} {now : ℤ}
variable {o : Observation F} {os : List (Observation F)}

/-- The observations inside are those of the vessel that the geofence holds. -/
theorem mem_inside :
    o ∈ inside geofence mmsi os ↔ o ∈ os ∧ o.mmsi = mmsi ∧ geofence.holds o = true := by
  rw [inside, List.mem_filter, Bool.and_eq_true, decide_eq_true_eq]

/-- The earliest observations are the greatest in this order. -/
def earlier (o : Observation F) : ℤᵒᵈ := OrderDual.toDual o.occurredAt

/-- **An entry sums up some observations**: their number, the first of the
earliest of them and the first of the latest. -/
def SumsUp (now : ℤ) (geofence : Geofence F) (os : List (Observation F)) (s : GeofenceSummary) :
    Prop :=
  ∃ first last, FirstGreatest earlier os first ∧ FirstGreatest Observation.occurredAt os last ∧
    s = entryOf now geofence os.length first last

/-- **A summary that takes in a further observation sums up one more.** -/
theorem SumsUp.concat {s : GeofenceSummary} (h : SumsUp now geofence os s)
    (hmmsi : ∀ u ∈ os, u.mmsi = o.mmsi) : SumsUp now geofence (os ++ [o]) (s.seenBy o) := by
  obtain ⟨first, last, hfirst, hlast, rfl⟩ := h
  refine ⟨_, _, hfirst.concat o, hlast.concat o, ?_⟩
  have hlt : ∀ a b : Observation F, earlier a < earlier b ↔ b.occurredAt < a.occurredAt :=
    fun _ _ => OrderDual.toDual_lt_toDual
  have hmmsi : first.mmsi = o.mmsi := hmmsi first hfirst.mem
  rw [GeofenceSummary.seenBy, entryOf, entryOf, List.length_append, List.length_singleton]
  simp only [keepGreatest, hlt]
  split_ifs
  all_goals simp [hmmsi]

/-- What sums up the observations is determined. -/
theorem SumsUp.unique {s s' : GeofenceSummary} (h : SumsUp now geofence os s)
    (h' : SumsUp now geofence os s') : s = s' := by
  obtain ⟨first, last, hfirst, hlast, rfl⟩ := h
  obtain ⟨first', last', hfirst', hlast', rfl⟩ := h'
  rw [hfirst.unique hfirst', hlast.unique hlast']

/-- **The entry that some observations leave.** -/
theorem exists_sumsUp (now : ℤ) (geofence : Geofence F) (hmmsi : ∀ o ∈ os, o.mmsi = mmsi)
    (hne : os ≠ []) :
    ∃ s, (os.map fun o => (geofence, o)).foldl (fun b c => some (seenNext now b c)) none = some s ∧
      SumsUp now geofence os s := by
  induction os using List.reverseRecOn with
  | nil => exact absurd rfl hne
  | append_singleton os o ih =>
    rw [List.map_append, List.foldl_append]
    obtain rfl | hos := eq_or_ne os []
    · exact ⟨_, rfl, o, o, .singleton o, .singleton o, rfl⟩
    · obtain ⟨s, hs, hsums⟩ := ih (fun u hu => hmmsi u (List.mem_append_left _ hu)) hos
      rw [hs]
      refine ⟨s.seenBy o, rfl, hsums.concat fun u hu => ?_⟩
      rw [hmmsi u (List.mem_append_left _ hu), hmmsi o (by simp)]

/-- The contacts are the pairs of a geofence and an observation it holds. -/
theorem mem_contacts {key : Text × Text} {c : Geofence F × Observation F} :
    (key, c) ∈ contacts geofences os ↔ c.1 ∈ geofences ∧ c.2 ∈ os ∧ c.1.holds c.2 = true ∧
      key = (c.1.identifier, c.2.mmsi) := by
  obtain ⟨g, o⟩ := c
  simp only [contacts, contactsOf, List.mem_flatMap, List.mem_map, List.mem_filter, Prod.mk.injEq]
  constructor
  · rintro ⟨o', ho', g', ⟨hg', hin⟩, rfl, rfl, rfl⟩
    exact ⟨hg', ho', hin, rfl⟩
  · rintro ⟨hg, ho, hin, rfl⟩
    exact ⟨o, ho, g, ⟨hg, hin⟩, rfl, rfl, rfl⟩

/-- Geofences are told by their identifiers. -/
theorem filter_identifier (hids : (geofences.map Geofence.identifier).Nodup)
    (hg : geofence ∈ geofences) :
    geofences.filter (fun g => g.identifier = geofence.identifier) = [geofence] := by
  induction geofences with
  | nil => exact absurd hg List.not_mem_nil
  | cons g geofences ih =>
    rw [List.map_cons, List.nodup_cons] at hids
    obtain rfl | hmem := List.mem_cons.1 hg
    · rw [List.filter_cons_of_pos (by simp), List.filter_eq_nil_iff.2]
      intro g hg' heq
      exact hids.1 (List.mem_map.2 ⟨g, hg', by simpa using heq⟩)
    · rw [List.filter_cons_of_neg, ih hids.2 hmem]
      intro heq
      have heq : g.identifier = geofence.identifier := by simpa using heq
      exact hids.1 (List.mem_map.2 ⟨geofence, hmem, heq.symm⟩)

/-- An observation has one contact with a geofence that holds it, under its
own vessel. -/
theorem valuesOf_contactsOf (hids : (geofences.map Geofence.identifier).Nodup)
    (hg : geofence ∈ geofences) (mmsi : Text) (o : Observation F) :
    Dict.valuesOf (geofence.identifier, mmsi) (contactsOf geofences o) =
      if o.mmsi = mmsi && geofence.holds o then [(geofence, o)] else [] := by
  rw [Dict.valuesOf, contactsOf, List.filter_map, List.map_map]
  by_cases hm : o.mmsi = mmsi
  · have hkey : ((fun p : (Text × Text) × (Geofence F × Observation F) =>
          decide (p.1 = (geofence.identifier, mmsi))) ∘ fun g => ((g.identifier, o.mmsi), (g, o))) =
        fun g => decide (g.identifier = geofence.identifier) := by
      funext g
      simp [hm]
    rw [hkey, List.filter_comm, filter_identifier hids hg]
    cases hin : geofence.holds o with
    | false => simp [hin]
    | true => simp [hin, hm]
  · rw [List.filter_eq_nil_iff.2 (by simp [hm])]
    simp [hm]

/-- **What is added under one key** are the observations of the vessel inside
the geofence. -/
theorem valuesOf_contacts (hids : (geofences.map Geofence.identifier).Nodup)
    (hg : geofence ∈ geofences) (mmsi : Text) (os : List (Observation F)) :
    Dict.valuesOf (geofence.identifier, mmsi) (contacts geofences os) =
      (inside geofence mmsi os).map fun o => (geofence, o) := by
  induction os with
  | nil => rfl
  | cons o os ih =>
    have happend : Dict.valuesOf (geofence.identifier, mmsi) (contacts geofences (o :: os)) =
        Dict.valuesOf (geofence.identifier, mmsi) (contactsOf geofences o) ++
          Dict.valuesOf (geofence.identifier, mmsi) (contacts geofences os) := by
      rw [Dict.valuesOf, contacts, List.flatMap_cons, List.filter_append, List.map_append]
      rfl
    rw [happend, valuesOf_contactsOf hids hg, ih, inside, inside, List.filter_cons]
    split_ifs
    · rfl
    · rfl

/-- **The entries** sum up, for each geofence and vessel, the observations of
the one inside the other. -/
theorem mem_accumulate_contacts (hids : (geofences.map Geofence.identifier).Nodup)
    {key : Text × Text} {s : GeofenceSummary} :
    (key, s) ∈ Dict.accumulate (seenNext now) (contacts geofences os) ↔
      ∃ g ∈ geofences, key.1 = g.identifier ∧ SumsUp now g (inside g key.2 os) s := by
  have hvessel : ∀ (g : Geofence F) mmsi, ∀ o ∈ inside g mmsi os, o.mmsi = mmsi :=
    fun g mmsi o ho => (mem_inside.1 ho).2.1
  obtain ⟨id, mmsi⟩ := key
  rw [Dict.mem_iff_get (Dict.nodup_accumulate _ _), Dict.get_accumulate]
  constructor
  · intro hget
    obtain ⟨⟨g, o⟩, hc⟩ : ∃ c, ((id, mmsi), c) ∈ contacts geofences os := by
      by_contra hnone
      have hnil : Dict.valuesOf (id, mmsi) (contacts geofences os) = [] :=
        List.eq_nil_iff_forall_not_mem.2 fun c hc => hnone ⟨c, Dict.mem_valuesOf.1 hc⟩
      rw [hnil] at hget
      cases hget
    obtain ⟨hg, ho, hin, hkey⟩ := mem_contacts.1 hc
    cases hkey
    rw [valuesOf_contacts hids hg] at hget
    have hne : inside g o.mmsi os ≠ [] := List.ne_nil_of_mem (mem_inside.2 ⟨ho, rfl, hin⟩)
    obtain ⟨s', hs', hsums⟩ := exists_sumsUp now g (hvessel g o.mmsi) hne
    obtain rfl := Option.some.inj (hs'.symm.trans hget)
    exact ⟨g, hg, rfl, hsums⟩
  · rintro ⟨g, hg, rfl, hsums⟩
    have hne : inside g mmsi os ≠ [] := by
      obtain ⟨first, -, hfirst, -⟩ := hsums
      exact List.ne_nil_of_mem hfirst.mem
    obtain ⟨s', hs', hsums'⟩ := exists_sumsUp now g (hvessel g mmsi) hne
    rw [valuesOf_contacts hids hg, hs', hsums.unique hsums']

/-! ## The rows -/

/-- The key a row is sorted by. -/
def GeofenceSummary.key (s : GeofenceSummary) : Text ×ₗ Text := toLex (s.geofenceId, s.mmsi)

/-- A summary carries the ids of its geofence and its vessel. -/
theorem SumsUp.key {s : GeofenceSummary} (h : SumsUp now geofence (inside geofence mmsi os) s) :
    s.geofenceId = geofence.identifier ∧ s.mmsi = mmsi := by
  obtain ⟨first, last, hfirst, -, rfl⟩ := h
  exact ⟨rfl, (mem_inside.1 hfirst.mem).2.1⟩

variable [LawfulFloat F] [LawfulMath F]

/-- **What the rollup returns**: a row for each geofence and each vessel seen
inside, by their keys. -/
theorem mem_buildGeofenceSummaries (h : ∀ o ∈ os, o.Valid L)
    (hids : (geofences.map Geofence.identifier).Nodup) (hne : geofences ≠ []) (now : ℤ) :
    ∃ gold, buildGeofenceSummaries L now (os.map Observation.row) geofences = .ok gold ∧
      gold.Pairwise (fun s s' => s.key < s'.key) ∧
      ∀ s, s ∈ gold ↔ ∃ g ∈ geofences, SumsUp now g (inside g s.mmsi os) s := by
  refine ⟨_, buildGeofenceSummaries_rows h now hne, ?_, fun s => ?_⟩
  · have hkey : ∀ e ∈ sortBy (fun e => toLex e.1)
        (Dict.accumulate (seenNext now) (contacts geofences os)), toLex e.1 = e.2.key := by
      rintro ⟨⟨id, mmsi⟩, s⟩ he
      obtain ⟨g, -, hg, hsums⟩ := (mem_accumulate_contacts hids).1 (mem_sortBy.1 he)
      simp only at hg hsums
      rw [GeofenceSummary.key, hsums.key.1, hsums.key.2, hg]
    have hsorted := pairwise_sortBy (fun e => toLex e.1)
      (Dict.accumulate (seenNext now) (contacts geofences os))
    have hnodup := (((perm_sortBy (fun e => toLex e.1)
      (Dict.accumulate (seenNext now) (contacts geofences os))).map Prod.fst).nodup_iff).2
        (Dict.nodup_accumulate _ _)
    rw [List.pairwise_map]
    refine (hsorted.and (List.pairwise_map.1 hnodup)).imp_of_mem fun he he' hboth => ?_
    rw [← hkey _ he, ← hkey _ he']
    exact lt_of_le_of_ne hboth.1 fun heq => hboth.2 (toLex.injective heq)
  · rw [List.mem_map]
    constructor
    · rintro ⟨⟨⟨id, mmsi⟩, s⟩, he, rfl⟩
      obtain ⟨g, hg, -, hsums⟩ := (mem_accumulate_contacts hids).1 (mem_sortBy.1 he)
      simp only at hsums ⊢
      exact ⟨g, hg, by rwa [hsums.key.2]⟩
    · rintro ⟨g, hg, hsums⟩
      exact ⟨((g.identifier, s.mmsi), s),
        mem_sortBy.2 ((mem_accumulate_contacts hids).2 ⟨g, hg, rfl, hsums⟩), rfl⟩

/-! ## The order of the rows -/

/-- A row, but for when it was made. -/
def GeofenceSummary.withoutSummarizedAt (s : GeofenceSummary) : GeofenceSummary :=
  { s with summarizedAt := 0 }

/-- The times at which a vessel was inside. -/
def timesInside (geofence : Geofence F) (mmsi : Text) (os : List (Observation F)) : Set ℤ :=
  { us | ∃ o ∈ inside geofence mmsi os, o.occurredAt = us }

/-- **The rows do not depend on the order of the observations.** -/
def OrderFree (L : Library) (geofences : List (Geofence F)) (os : List (Observation F)) : Prop :=
  ∀ os', os.Perm os' → ∀ now now' : ℤ,
    (buildGeofenceSummaries L now' (os'.map Observation.row) geofences).map
        (List.map GeofenceSummary.withoutSummarizedAt) =
      (buildGeofenceSummaries L now (os.map Observation.row) geofences).map
        (List.map GeofenceSummary.withoutSummarizedAt)

/-- **The rows count what is inside**: one row for each geofence and vessel
seen in it, with the number of the observations and the first and the last
of their times. -/
def RollsUp (L : Library) (geofences : List (Geofence F)) (os : List (Observation F)) : Prop :=
  geofences ≠ [] → ∀ now, ∃ gold,
    buildGeofenceSummaries L now (os.map Observation.row) geofences = .ok gold ∧
      gold.Pairwise (fun s s' => s.key < s'.key) ∧
      (∀ g ∈ geofences, ∀ mmsi, inside g mmsi os ≠ [] →
        ∃ s ∈ gold, s.geofenceId = g.identifier ∧ s.mmsi = mmsi) ∧
      ∀ s ∈ gold, ∃ g ∈ geofences, s.geofenceId = g.identifier ∧
        s.observationCount = (inside g s.mmsi os).length ∧
        IsLeast (timesInside g s.mmsi os) s.firstSeenAt ∧
        IsGreatest (timesInside g s.mmsi os) s.lastSeenAt

/-- **No two observations share the earliest or the latest time** of a vessel
inside a geofence. -/
def Untied (geofences : List (Geofence F)) (os : List (Observation F)) : Prop :=
  ∀ g ∈ geofences, ∀ mmsi, ∀ o ∈ inside g mmsi os, ∀ o' ∈ inside g mmsi os,
    o.occurredAt = o'.occurredAt →
    IsLeast (timesInside g mmsi os) o.occurredAt ∨ IsGreatest (timesInside g mmsi os) o.occurredAt →
    o = o'

omit [LawfulFloat F] [LawfulMath F] in
/-- The first observation inside has the least time. -/
theorem isLeast_timesInside {first : Observation F}
    (h : FirstGreatest earlier (inside geofence mmsi os) first) :
    IsLeast (timesInside geofence mmsi os) first.occurredAt := by
  refine ⟨⟨first, h.mem, rfl⟩, ?_⟩
  rintro _ ⟨o, ho, rfl⟩
  exact OrderDual.toDual_le_toDual.1 (h.le o ho)

omit [LawfulFloat F] [LawfulMath F] in
/-- The last observation inside has the greatest time. -/
theorem isGreatest_timesInside {last : Observation F}
    (h : FirstGreatest Observation.occurredAt (inside geofence mmsi os) last) :
    IsGreatest (timesInside geofence mmsi os) last.occurredAt := by
  refine ⟨⟨last, h.mem, rfl⟩, ?_⟩
  rintro _ ⟨o, ho, rfl⟩
  exact h.le o ho

/-- **The rows count what is inside**, whatever the order. -/
theorem rollsUp (h : ∀ o ∈ os, o.Valid L) (hids : (geofences.map Geofence.identifier).Nodup) :
    RollsUp L geofences os := by
  intro hne now
  obtain ⟨gold, hgold, hsorted, hmem⟩ := mem_buildGeofenceSummaries h hids hne now
  refine ⟨gold, hgold, hsorted, fun g hg mmsi hin => ?_, fun s hs => ?_⟩
  · have hvessel : ∀ o ∈ inside g mmsi os, o.mmsi = mmsi := fun o ho => (mem_inside.1 ho).2.1
    obtain ⟨s, -, hsums⟩ := exists_sumsUp now g hvessel hin
    exact ⟨s, (hmem s).2 ⟨g, hg, by rwa [hsums.key.2]⟩, hsums.key⟩
  · obtain ⟨g, hg, hsums⟩ := (hmem s).1 hs
    obtain ⟨first, last, hfirst, hlast, heq⟩ := hsums
    have hfirstAt : s.firstSeenAt = first.occurredAt := congrArg GeofenceSummary.firstSeenAt heq
    have hlastAt : s.lastSeenAt = last.occurredAt := congrArg GeofenceSummary.lastSeenAt heq
    refine ⟨g, hg, congrArg GeofenceSummary.geofenceId heq,
      congrArg GeofenceSummary.observationCount heq, ?_, ?_⟩
    · rw [hfirstAt]
      exact isLeast_timesInside hfirst
    · rw [hlastAt]
      exact isGreatest_timesInside hlast

variable {os' : List (Observation F)}

omit [LawfulFloat F] [LawfulMath F] in
/-- The observations inside are permuted with the rows. -/
theorem inside_perm (hp : os.Perm os') (geofence : Geofence F) (mmsi : Text) :
    (inside geofence mmsi os).Perm (inside geofence mmsi os') := hp.filter _

omit [LawfulFloat F] [LawfulMath F] in
/-- The times inside do not depend on the order of the rows. -/
theorem timesInside_perm (hp : os.Perm os') (geofence : Geofence F) (mmsi : Text) :
    timesInside geofence mmsi os = timesInside geofence mmsi os' := by
  ext us
  simp only [timesInside, Set.mem_ofPred_eq, (inside_perm hp geofence mmsi).mem_iff]

omit [LawfulFloat F] [LawfulMath F] in
/-- Whether observations are untied does not depend on their order. -/
theorem Untied.perm (h : Untied geofences os) (hp : os.Perm os') : Untied geofences os' := by
  intro g hg mmsi o ho o' ho' heq hextreme
  rw [← timesInside_perm hp] at hextreme
  exact h g hg mmsi o ((inside_perm hp g mmsi).mem_iff.2 ho) o'
    ((inside_perm hp g mmsi).mem_iff.2 ho') heq hextreme

omit [LawfulFloat F] [LawfulMath F] in
/-- **Without ties an entry is that of any order**, but for when it was made. -/
theorem SumsUp.perm (h : Untied geofences os) (hg : geofence ∈ geofences) (hp : os.Perm os')
    {s s' : GeofenceSummary} {now' : ℤ} (hs : SumsUp now geofence (inside geofence mmsi os) s)
    (hs' : SumsUp now' geofence (inside geofence mmsi os') s') :
    s'.withoutSummarizedAt = s.withoutSummarizedAt := by
  obtain ⟨first, last, hfirst, hlast, rfl⟩ := hs
  obtain ⟨first', last', hfirst', hlast', rfl⟩ := hs'
  have hinside := inside_perm hp geofence mmsi
  have hsameFirst : first' = first := by
    refine hfirst.perm hfirst' hinside fun u hu heq => ?_
    have htime : u.occurredAt = first.occurredAt := OrderDual.toDual_inj.1 heq
    exact h geofence hg mmsi u hu first hfirst.mem htime
      (.inl (htime ▸ isLeast_timesInside hfirst))
  have hsameLast : last' = last := by
    refine hlast.perm hlast' hinside fun u hu heq => ?_
    exact h geofence hg mmsi u hu last hlast.mem heq (.inr (heq ▸ isGreatest_timesInside hlast))
  rw [hsameFirst, hsameLast, hinside.length_eq]
  rfl

omit [LawfulFloat F] [LawfulMath F] in
/-- Each row has its like in any order. -/
theorem Untied.exists_mem (h : Untied geofences os) (hp : os.Perm os') {now' : ℤ}
    {gold gold' : List GeofenceSummary}
    (hmem : ∀ s, s ∈ gold ↔ ∃ g ∈ geofences, SumsUp now g (inside g s.mmsi os) s)
    (hmem' : ∀ s, s ∈ gold' ↔ ∃ g ∈ geofences, SumsUp now' g (inside g s.mmsi os') s)
    {s : GeofenceSummary} (hs : s ∈ gold) :
    ∃ s' ∈ gold', s'.withoutSummarizedAt = s.withoutSummarizedAt := by
  obtain ⟨g, hg, hsums⟩ := (hmem s).1 hs
  have hvessel : ∀ o ∈ inside g s.mmsi os', o.mmsi = s.mmsi := fun o ho => (mem_inside.1 ho).2.1
  have hne : inside g s.mmsi os' ≠ [] := by
    obtain ⟨first, -, hfirst, -⟩ := hsums
    exact List.ne_nil_of_mem ((inside_perm hp g s.mmsi).mem_iff.1 hfirst.mem)
  obtain ⟨s', -, hsums'⟩ := exists_sumsUp now' g hvessel hne
  exact ⟨s', (hmem' s').2 ⟨g, hg, by rwa [hsums'.key.2]⟩, hsums.perm h hg hp hsums'⟩

/-- **Without ties the rows do not depend on the order.** -/
theorem Untied.orderFree (h : Untied geofences os) (hvalid : ∀ o ∈ os, o.Valid L)
    (hids : (geofences.map Geofence.identifier).Nodup) : OrderFree L geofences os := by
  intro os' hp now now'
  by_cases hne : geofences = []
  · rw [buildGeofenceSummaries, buildGeofenceSummaries, if_pos hne, if_pos hne]
  obtain ⟨gold, hgold, hsorted, hmem⟩ := mem_buildGeofenceSummaries hvalid hids hne now
  obtain ⟨gold', hgold', hsorted', hmem'⟩ := mem_buildGeofenceSummaries
    (fun o ho => hvalid o (hp.mem_iff.2 ho)) hids hne now'
  rw [hgold, hgold', Except.map, Except.map]
  refine congrArg Except.ok (eq_of_mem_iff GeofenceSummary.key (List.pairwise_map.2 hsorted')
    (List.pairwise_map.2 hsorted) fun s => ?_)
  rw [List.mem_map, List.mem_map]
  constructor
  · rintro ⟨s', hs', rfl⟩
    exact (h.perm hp).exists_mem hp.symm hmem' hmem hs'
  · rintro ⟨s, hs, rfl⟩
    exact h.exists_mem hp hmem hmem' hs

/-- **Rows that do not depend on the order** have one entry for any order. -/
theorem OrderFree.eq (h : OrderFree L geofences os) (hvalid : ∀ o ∈ os, o.Valid L)
    (hids : (geofences.map Geofence.identifier).Nodup) (hg : geofence ∈ geofences)
    {os₁ os₂ : List (Observation F)} (hp₁ : os.Perm os₁) (hp₂ : os.Perm os₂)
    {s₁ s₂ : GeofenceSummary} (h₁ : SumsUp 0 geofence (inside geofence mmsi os₁) s₁)
    (h₂ : SumsUp 0 geofence (inside geofence mmsi os₂) s₂) : s₁ = s₂ := by
  have hne : geofences ≠ [] := List.ne_nil_of_mem hg
  have hnow : ∀ {g : Geofence F} {us s}, SumsUp 0 g us s → s.withoutSummarizedAt = s := by
    rintro g us s ⟨first, last, -, -, rfl⟩
    rfl
  obtain ⟨gold₁, hgold₁, -, hmem₁⟩ := mem_buildGeofenceSummaries
    (fun o ho => hvalid o (hp₁.mem_iff.2 ho)) hids hne 0
  obtain ⟨gold₂, hgold₂, -, hmem₂⟩ := mem_buildGeofenceSummaries
    (fun o ho => hvalid o (hp₂.mem_iff.2 ho)) hids hne 0
  have hsame := (h os₁ hp₁ 0 0).trans (h os₂ hp₂ 0 0).symm
  rw [hgold₁, hgold₂, Except.map, Except.map, Except.ok.injEq] at hsame
  have hs₁ : s₁ ∈ gold₁ := (hmem₁ s₁).2 ⟨geofence, hg, by rwa [h₁.key.2]⟩
  obtain ⟨s, hs, heq⟩ := List.mem_map.1 (hsame ▸ List.mem_map_of_mem hs₁)
  obtain ⟨g, hg', hsums⟩ := (hmem₂ s).1 hs
  rw [hnow h₁, hnow hsums] at heq
  subst heq
  have hidentifier : g.identifier = geofence.identifier := hsums.key.1.symm.trans h₁.key.1
  obtain rfl := List.inj_on_of_nodup_map hids hg' hg hidentifier
  rw [h₁.key.2] at hsums
  exact hsums.unique h₂

omit [LawfulFloat F] [LawfulMath F] in
/-- Any observation inside may come first. -/
theorem exists_perm_inside (ho : o ∈ inside geofence mmsi os) :
    ∃ os' rest, os.Perm os' ∧ inside geofence mmsi os' = o :: rest := by
  obtain ⟨hmem, hmmsi, hin⟩ := mem_inside.1 ho
  obtain ⟨pre, post, rfl⟩ := List.append_of_mem hmem
  exact ⟨o :: (pre ++ post), inside geofence mmsi (pre ++ post), List.perm_middle,
    List.filter_cons_of_pos (by simp [hmmsi, hin])⟩

omit [LawfulFloat F] [LawfulMath F] in
/-- One of the earliest that comes first is the one kept. -/
theorem eq_of_isLeast {first : Observation F} {rest : List (Observation F)}
    (hinside : inside geofence mmsi os = o :: rest)
    (hleast : IsLeast (timesInside geofence mmsi os) o.occurredAt)
    (h : FirstGreatest earlier (inside geofence mmsi os) first) : first = o := by
  have hrest : ∀ u ∈ rest, earlier u ≤ earlier o := fun u hu =>
    OrderDual.toDual_le_toDual.2 (hleast.2 ⟨u, hinside ▸ List.mem_cons_of_mem o hu, rfl⟩)
  exact (hinside ▸ h).unique (.cons hrest)

omit [LawfulFloat F] [LawfulMath F] in
/-- One of the latest that comes first is the one kept. -/
theorem eq_of_isGreatest {last : Observation F} {rest : List (Observation F)}
    (hinside : inside geofence mmsi os = o :: rest)
    (hgreatest : IsGreatest (timesInside geofence mmsi os) o.occurredAt)
    (h : FirstGreatest Observation.occurredAt (inside geofence mmsi os) last) : last = o := by
  have hrest : ∀ u ∈ rest, u.occurredAt ≤ o.occurredAt := fun u hu =>
    hgreatest.2 ⟨u, hinside ▸ List.mem_cons_of_mem o hu, rfl⟩
  exact (hinside ▸ h).unique (.cons hrest)

/-- **Rows that do not depend on the order have no ties**: of two tied
observations either may come first. -/
theorem OrderFree.untied (h : OrderFree L geofences os) (hvalid : ∀ o ∈ os, o.Valid L)
    (heventIds : (os.map Observation.eventId).Nodup)
    (hids : (geofences.map Geofence.identifier).Nodup) : Untied geofences os := by
  intro g hg mmsi o ho o' ho' htime hextreme
  obtain ⟨os₁, rest₁, hp₁, hfirst₁⟩ := exists_perm_inside ho
  obtain ⟨os₂, rest₂, hp₂, hfirst₂⟩ := exists_perm_inside ho'
  have hvessel : ∀ os', ∀ u ∈ inside g mmsi os', u.mmsi = mmsi := fun _ u hu => (mem_inside.1 hu).2.1
  obtain ⟨s₁, -, hs₁⟩ := exists_sumsUp 0 g (hvessel os₁) (hfirst₁ ▸ List.cons_ne_nil o rest₁)
  obtain ⟨s₂, -, hs₂⟩ := exists_sumsUp 0 g (hvessel os₂) (hfirst₂ ▸ List.cons_ne_nil o' rest₂)
  have heq := h.eq hvalid hids hg hp₁ hp₂ hs₁ hs₂
  obtain ⟨first₁, last₁, hleast₁, hgreatest₁, rfl⟩ := hs₁
  obtain ⟨first₂, last₂, hleast₂, hgreatest₂, rfl⟩ := hs₂
  have hinj : o.eventId = o'.eventId → o = o' :=
    List.inj_on_of_nodup_map heventIds (mem_inside.1 ho).1 (mem_inside.1 ho').1
  obtain hleast | hgreatest := hextreme
  · obtain rfl := eq_of_isLeast hfirst₁ (timesInside_perm hp₁ g mmsi ▸ hleast) hleast₁
    obtain rfl := eq_of_isLeast hfirst₂ (timesInside_perm hp₂ g mmsi ▸ htime ▸ hleast) hleast₂
    exact hinj (congrArg GeofenceSummary.firstEventId heq)
  · obtain rfl := eq_of_isGreatest hfirst₁ (timesInside_perm hp₁ g mmsi ▸ hgreatest) hgreatest₁
    obtain rfl := eq_of_isGreatest hfirst₂ (timesInside_perm hp₂ g mmsi ▸ htime ▸ hgreatest)
      hgreatest₂
    exact hinj (congrArg GeofenceSummary.lastEventId heq)

/-- **When the rows do not depend on the order of the observations**: they
always count what is inside, and which observations they name is fixed
exactly where none are tied. -/
theorem summaries_orderFree_iff (hvalid : ∀ o ∈ os, o.Valid L)
    (heventIds : (os.map Observation.eventId).Nodup)
    (hids : (geofences.map Geofence.identifier).Nodup) :
    OrderFree L geofences os ∧ RollsUp L geofences os ↔ Untied geofences os := by
  constructor
  · rintro ⟨hfree, -⟩
    exact hfree.untied hvalid heventIds hids
  · intro huntied
    exact ⟨huntied.orderFree hvalid hids, rollsUp hvalid hids⟩

end Entries

/-! ## Two observations in a harbour -/

/-- A degree around the place. -/
def harbourFence : Geofence Decimal := ⟨lit "harbour", harbour, by decide, validate_harbour⟩

/-- An hour apart, none is tied. -/
theorem summaries_orderFree_hour :
    OrderFree Library.ascii [harbourFence] hourApart.rows ∧
      RollsUp Library.ascii [harbourFence] hourApart.rows := by
  have hids : ([harbourFence].map Geofence.identifier).Nodup := List.nodup_singleton _
  refine (summaries_orderFree_iff hourApart.valid hourApart.nodup hids).2 ?_
  intro g _ mmsi o ho o' ho' htime _
  have hrow : ∀ {u}, u ∈ inside g mmsi hourApart.rows →
      u = sighting "obs-2" 3600000001 ∨ u = sighting "obs-1" 1 := fun hu => by
    simpa [hourApart, sightings] using (mem_inside.1 hu).1
  obtain rfl | rfl := hrow ho
  · obtain rfl | rfl := hrow ho'
    · rfl
    · exact absurd htime (by decide)
  · obtain rfl | rfl := hrow ho'
    · exact absurd htime (by decide)
    · rfl

/-- Of two observations of one instant the row that comes first is named. -/
theorem not_orderFree_twice : ¬OrderFree Library.ascii [harbourFence] twice.rows := by
  intro h
  have hsame := congrArg (fun rows => rows.toOption.map (List.map GeofenceSummary.firstEventId))
    (h twice.rows.reverse (List.reverse_perm _).symm 0 0)
  have hreversed : ((buildGeofenceSummaries Library.ascii 0
      (twice.rows.reverse.map Observation.row) [harbourFence]).map
        (List.map GeofenceSummary.withoutSummarizedAt)).toOption.map
          (List.map GeofenceSummary.firstEventId) = some [lit "obs-1"] := by decide +kernel
  have hinOrder : ((buildGeofenceSummaries Library.ascii 0
      (twice.rows.map Observation.row) [harbourFence]).map
        (List.map GeofenceSummary.withoutSummarizedAt)).toOption.map
          (List.map GeofenceSummary.firstEventId) = some [lit "obs-2"] := by decide +kernel
  simp only [hreversed, hinOrder] at hsame
  exact absurd hsame (by decide)

end Vessel

end Lakehouse

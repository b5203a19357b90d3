import Lakehouse.Vessel.Processable
import Lakehouse.Vessel.Spark
/-!
# The two trajectory engines

The reference path cuts a track at exact gaps, after dropping repeated
points, and keeps the order of instants; the Spark engine cuts at gaps
of whole seconds, drops nothing, and orders the points of a segment by
whole second and event id. They agree exactly on the tables where none
of this makes a difference between neighbours (`engines_agree_iff`).
-/

namespace Lakehouse

namespace Vessel

variable {F : Type} [PyFloat F] [PyMath F] (L : Library)

/-- **A table of bronze observations**: valid rows with distinct event ids,
no more than a list can hold. -/
structure BronzeTable (F : Type) [PyFloat F] [LawfulFloat F] (L : Library) where
  rows : List (Observation F)
  valid : ∀ o ∈ rows, o.Valid L
  nodup : (rows.map Observation.eventId).Nodup
  size : rows.length < maxSize

/-- The thresholds the job accepts: `0 < gap_hours <= 168`, which neither an
infinity nor a NaN meets. -/
structure AcceptedGap (gapHours : F) : Prop where
  finite : PyFloat.isFinite gapHours = true
  pos : PyFloat.lt (PyFloat.ofInt 0) gapHours = true
  le : PyFloat.le gapHours (PyFloat.ofInt 168) = true

/-- `gap_hours * 3600.0`. -/
def gapSeconds (gapHours : F) : F :=
  PyFloat.mul gapHours (PyFloat.ofNumeral ⟨false, lit "3600", some (lit "0"), none⟩)

/-- The view of a segment with these points. -/
def viewOf (mmsi : Text) (index : ℤ) (points : List (TrackPoint F)) : SegmentView where
  trajectoryId := sha2 L (trajectoryMaterial mmsi (firstEventId points) (lastEventId points))
  mmsi := mmsi
  segmentIndex := index
  pointCount := points.length
  sourceFirstEventId := firstEventId points
  sourceLastEventId := lastEventId points
  pointOrder := points.map TrackPoint.eventId

/-- The view of a segment of the reference path, from its row. -/
def referenceView (s : Segment F) (row : TrajectoryRow) : SegmentView where
  trajectoryId := row.trajectoryId
  mmsi := row.mmsi
  segmentIndex := row.segmentIndex
  pointCount := row.pointCount
  sourceFirstEventId := row.sourceFirstEventId
  sourceLastEventId := row.sourceLastEventId
  pointOrder := s.points.map TrackPoint.eventId

/-- **The segments and rows of the Python engine.** -/
def referenceSegments (now : ℤ) (gapHours tolerance : F) (os : List (Observation F)) :
    Except PyError (List SegmentView) := do
  let segs ← segments L (os.map Observation.row) (PyMath.hours gapHours)
  let rows ← assembleVesselTrajectories L now (os.map Observation.row) (PyMath.hours gapHours)
    tolerance
  return (segs.zip rows).map fun p => referenceView p.1 p.2

/-- **The engines agree**: the Python engine returns, and both write the
same segments. -/
def EnginesAgree (epoch : ℤ → ℤ) (now : ℤ) (gapHours tolerance : F) (os : List (Observation F)) :
    Prop :=
  ∃ views, referenceSegments L now gapHours tolerance os = .ok views ∧
    ∀ v, v ∈ views ↔ v ∈ sparkSegments L epoch (gapSeconds gapHours) os

/-- Two observations of one vessel, the second right after the first, on
which the engines do the same: it is no repeat, the gap between them
exceeds the threshold exactly where it does in whole seconds, and if it
does not, they come in the order of whole second and event id. -/
structure Indifferent (epoch : ℤ → ℤ) (gapHours : F) (p q : TrackPoint F) : Prop where
  distinct : repeats p q = false
  cut : exceedsGap (PyMath.hours gapHours) p q =
    exceedsSeconds (gapSeconds gapHours) (epoch p.occurredAt) (epoch q.occurredAt)
  order : exceedsSeconds (gapSeconds gapHours) (epoch p.occurredAt) (epoch q.occurredAt) = false →
    structOrder epoch p ≤ structOrder epoch q

/-! ## Spark -/

section Spark

variable {L} {epoch : ℤ → ℤ} {gapSeconds : F} {os : List (Observation F)}

/-- Neighbours Spark keeps together. -/
def together (epoch : ℤ → ℤ) (gapSeconds : F) (p q : TrackPoint F) : Bool :=
  !exceedsSeconds gapSeconds (epoch p.occurredAt) (epoch q.occurredAt)

omit [PyMath F] in
/-- **The running sum numbers the segments.** -/
theorem flagWindow_numbered (mmsi : Text) {previous : Option ℤ} {total : ℤ} {i : ℕ}
    {p : TrackPoint F} {points : List (TrackPoint F)}
    (hi : (i : ℤ) = total + newSegment gapSeconds previous (epoch p.occurredAt) - 1) :
    (flagWindow epoch gapSeconds mmsi previous total (p :: points)).map
        (fun f => (f.mmsi, f.segmentIndex, f.point)) =
      (numbered (together epoch gapSeconds) i (p :: points)).map
        fun x => (mmsi, (x.1 : ℤ), x.2) := by
  induction points generalizing previous total i p with
  | nil => simp [flagWindow, numbered, hi]
  | cons q points ih =>
    rw [flagWindow, numbered, List.map_cons, List.map_cons]
    refine congrArg₂ _ (by rw [hi]) (ih ?_)
    rw [newSegment, together]
    cases exceedsSeconds gapSeconds (epoch p.occurredAt) (epoch q.occurredAt)
    · simp
      omega
    · simp
      omega

omit [PyMath F] in
/-- The window's flags number the points by their runs. -/
theorem flagWindow_none (mmsi : Text) (points : List (TrackPoint F)) :
    (flagWindow epoch gapSeconds mmsi none 0 points).map
        (fun f => (f.mmsi, f.segmentIndex, f.point)) =
      (numbered (together epoch gapSeconds) 0 points).map fun x => (mmsi, (x.1 : ℤ), x.2) := by
  cases points with
  | nil => rfl
  | cons p points => exact flagWindow_numbered mmsi (by simp [newSegment])

/-- The segments of one vessel, as Spark cuts them. -/
def sparkRuns (epoch : ℤ → ℤ) (gapSeconds : F) (os : List (Observation F)) (mmsi : Text) :
    List (List (TrackPoint F)) :=
  (orderedTrack os mmsi).splitBy (together epoch gapSeconds)

omit [PyFloat F] [PyMath F] in
/-- A key that alone contributes contributes once. -/
theorem flatMap_of_nodup {α β : Type} [DecidableEq α] {l : List α} (hl : l.Nodup) {f : α → List β}
    {a : α} (h : ∀ b ∈ l, b ≠ a → f b = []) : l.flatMap f = if a ∈ l then f a else [] := by
  induction l with
  | nil => rfl
  | cons b l ih =>
    obtain ⟨hb, hl⟩ := List.nodup_cons.1 hl
    rw [List.flatMap_cons, ih hl fun c hc => h c (List.mem_cons_of_mem b hc)]
    by_cases hab : a = b
    · subst hab
      rw [if_neg hb, if_pos List.mem_cons_self, List.append_nil]
    · rw [h b List.mem_cons_self (Ne.symm hab), List.nil_append]
      simp [hab]

omit [PyMath F] in
/-- The flagged points of one vessel and one number. -/
theorem flagged_filter (os : List (Observation F)) (mmsi : Text) (k : ℕ) :
    ((flagged epoch gapSeconds os).filter
        fun f => f.mmsi = mmsi ∧ f.segmentIndex = (k : ℤ)).map Flagged.point =
      (sparkRuns epoch gapSeconds os mmsi)[k]?.getD [] := by
  have hwindow : ∀ m : Text,
      ((flagWindow epoch gapSeconds m none 0 (window os m)).filter
          fun f => f.mmsi = mmsi ∧ f.segmentIndex = (k : ℤ)).map Flagged.point =
        if m = mmsi then (sparkRuns epoch gapSeconds os mmsi)[k]?.getD [] else [] := by
    intro m
    have hview : ((flagWindow epoch gapSeconds m none 0 (window os m)).filter
          fun f => f.mmsi = mmsi ∧ f.segmentIndex = (k : ℤ)).map Flagged.point =
        (((flagWindow epoch gapSeconds m none 0 (window os m)).map
          fun f => (f.mmsi, f.segmentIndex, f.point)).filter
            fun t => t.1 = mmsi ∧ t.2.1 = (k : ℤ)).map fun t => t.2.2 := by
      rw [List.filter_map, List.map_map]
      rfl
    rw [hview, flagWindow_none, List.filter_map, List.map_map]
    split_ifs with hm
    · subst hm
      rw [sparkRuns, orderedTrack, ← numbered_filter 0 k]
      have hfilter : (fun x : ℕ × TrackPoint F =>
          decide (m = m ∧ ((x.1 : ℤ) = (k : ℤ)))) = fun x => decide (x.1 = 0 + k) := by
        funext x
        congr 1
        simp
      exact congrArg (fun p => ((numbered (together epoch gapSeconds) 0
        (window os m)).filter p).map Prod.snd) hfilter
    · rw [List.filter_eq_nil_iff.2 fun x _ => by simp [hm], List.map_nil]
  rw [flagged, List.filter_flatMap, List.map_flatMap]
  rw [flatMap_of_nodup (a := mmsi) (List.nodup_dedup _)
    (fun m _ hm => by rw [hwindow, if_neg hm]), hwindow, if_pos rfl]
  split_ifs with hmem
  · rfl
  · have hnone : pointsOf os mmsi = [] := by
      rw [List.mem_dedup] at hmem
      refine List.eq_nil_iff_forall_not_mem.2 fun p hp => hmem ?_
      obtain ⟨o, ho, hm, -⟩ := mem_pointsOf.1 hp
      exact hm ▸ List.mem_map_of_mem ho
    simp [sparkRuns, orderedTrack, hnone]

omit [PyMath F] in
/-- The groups are the runs of the vessels. -/
theorem mem_groups {key : Text × ℤ} :
    key ∈ groups epoch gapSeconds os ↔
      ∃ k : ℕ, key.2 = k ∧ k < (sparkRuns epoch gapSeconds os key.1).length := by
  obtain ⟨mmsi, index⟩ := key
  have hpoints : ∀ k : ℕ, k < (sparkRuns epoch gapSeconds os mmsi).length ↔
      ∃ f ∈ flagged epoch gapSeconds os, f.mmsi = mmsi ∧ f.segmentIndex = (k : ℤ) := by
    intro k
    have hfilter : _ = (sparkRuns epoch gapSeconds os mmsi)[k]?.getD [] := flagged_filter os mmsi k
    constructor
    · intro hk
      rw [List.getElem?_eq_getElem hk, Option.getD_some] at hfilter
      have hne : (sparkRuns epoch gapSeconds os mmsi)[k] ≠ [] :=
        List.ne_nil_of_mem_splitBy (List.getElem_mem hk)
      rw [← hfilter] at hne
      obtain ⟨p, hp⟩ := List.exists_mem_of_ne_nil _ hne
      obtain ⟨f, hf, -⟩ := List.mem_map.1 hp
      obtain ⟨hmem, hkey⟩ := List.mem_filter.1 hf
      exact ⟨f, hmem, of_decide_eq_true hkey⟩
    · rintro ⟨f, hmem, hkey⟩
      by_contra hk
      rw [List.getElem?_eq_none (not_lt.1 hk), Option.getD_none, List.map_eq_nil_iff] at hfilter
      exact List.not_mem_nil (hfilter ▸ List.mem_filter.2 ⟨hmem, decide_eq_true hkey⟩)
  rw [groups, List.mem_dedup, List.mem_map]
  constructor
  · rintro ⟨f, hf, hkey⟩
    have hindex : ∃ k : ℕ, f.segmentIndex = k := by
      obtain ⟨m, -, hf⟩ := List.mem_flatMap.1 hf
      have hview := List.mem_map_of_mem (f := fun f : Flagged F => (f.mmsi, f.segmentIndex, f.point)) hf
      rw [flagWindow_none] at hview
      obtain ⟨x, -, hx⟩ := List.mem_map.1 hview
      exact ⟨x.1, (congrArg (fun t => t.2.1) hx).symm⟩
    obtain ⟨k, hk⟩ := hindex
    cases hkey
    exact ⟨k, hk, (hpoints k).2 ⟨f, hf, rfl, hk⟩⟩
  · rintro ⟨k, rfl, hk⟩
    obtain ⟨f, hf, rfl, hindex⟩ := (hpoints k).1 hk
    exact ⟨f, hf, by rw [hindex]⟩

omit [PyMath F] in
/-- **What the Spark engine writes.** -/
theorem mem_sparkSegments {v : SegmentView} :
    v ∈ sparkSegments L epoch gapSeconds os ↔ ∃ (mmsi : Text) (k : ℕ) (run : List (TrackPoint F)),
      (sparkRuns epoch gapSeconds os mmsi)[k]? = some run ∧
        v = viewOf L mmsi k (sortBy (structOrder epoch) run) := by
  have hview : ∀ (mmsi : Text) (k : ℕ), k < (sparkRuns epoch gapSeconds os mmsi).length →
      collected epoch gapSeconds os (mmsi, (k : ℤ)) =
        sortBy (structOrder epoch) ((sparkRuns epoch gapSeconds os mmsi)[k]?.getD []) := by
    intro mmsi k _
    rw [collected, flagged_filter]
  rw [sparkSegments, List.mem_map]
  constructor
  · rintro ⟨⟨mmsi, index⟩, hkey, rfl⟩
    obtain ⟨k, rfl, hk⟩ := mem_groups.1 hkey
    refine ⟨mmsi, k, _, List.getElem?_eq_getElem hk, ?_⟩
    simp only [hview mmsi k hk, List.getElem?_eq_getElem hk, Option.getD_some]
    rfl
  · rintro ⟨mmsi, k, run, hrun, rfl⟩
    obtain ⟨hk, -⟩ := List.getElem?_eq_some_iff.1 hrun
    refine ⟨(mmsi, (k : ℤ)), mem_groups.2 ⟨k, rfl, hk⟩, ?_⟩
    simp only [hview mmsi k hk, hrun, Option.getD_some]
    rfl

end Spark

/-! ## The reference path -/

section Reference

variable {L} {now : ℤ} {gapHours tolerance : F}

/-- The row of a segment shows the segment. -/
theorem trajectoryRow_eq_ok {gapThreshold : ℤ} {s : Segment F} {row : TrajectoryRow}
    (hs : s.points ≠ []) (h : trajectoryRow L gapThreshold tolerance now s = .ok row) :
    referenceView s row = viewOf L s.mmsi s.segmentIndex s.points := by
  obtain ⟨simplified, -, h⟩ := bind_eq_ok.1 h
  have hpos : 0 < s.points.length := List.length_pos_iff.2 hs
  rw [item_eq_ok hpos, ok_bind, item_eq_ok (Nat.sub_one_lt hpos.ne'), ok_bind] at h
  obtain ⟨g, -, h⟩ := bind_eq_ok.1 h
  obtain ⟨id, hid, h⟩ := bind_eq_ok.1 h
  obtain ⟨json, -, h⟩ := bind_eq_ok.1 h
  cases h
  have hfirst : s.points[0].eventId = firstEventId s.points := by
    rw [firstEventId, List.head?_eq_getElem?, List.getElem?_eq_getElem hpos]
    rfl
  have hlast : s.points[s.points.length - 1].eventId = lastEventId s.points := by
    rw [lastEventId, List.getLast?_eq_getElem?,
      List.getElem?_eq_getElem (Nat.sub_one_lt hpos.ne')]
    rfl
  rw [trajectoryId, hfirst, hlast] at hid
  obtain ⟨b, hb, hid⟩ := bind_eq_ok.1 hid
  cases hid
  obtain ⟨-, rfl⟩ := Text.utf8_eq_some.1 (encodeUtf8_eq_ok.1 hb)
  rw [referenceView, viewOf, hfirst, hlast]
  rfl

/-- The rows of segments show them one by one. -/
theorem zip_trajectoryRows {gapThreshold : ℤ} {segs : List (Segment F)} {rows : List TrajectoryRow}
    (hne : ∀ s ∈ segs, s.points ≠ []) (h : List.Forall₂
      (fun s row => trajectoryRow L gapThreshold tolerance now s = .ok row) segs rows) :
    (segs.zip rows).map (fun p => referenceView p.1 p.2) =
      segs.map fun s => viewOf L s.mmsi s.segmentIndex s.points := by
  induction h with
  | nil => rfl
  | cons hrow _ ih =>
    rw [List.zip_cons_cons, List.map_cons, List.map_cons,
      trajectoryRow_eq_ok (hne _ List.mem_cons_self) hrow,
      ih fun s hs => hne s (List.mem_cons_of_mem _ hs)]

variable [LawfulFloat F] {os : List (Observation F)}

/-- **What the Python engine writes**, where it returns. -/
theorem mem_referenceSegments (h : ∀ o ∈ os, o.Valid L) (hgap : 0 < PyMath.hours gapHours)
    {views : List SegmentView}
    (hviews : referenceSegments L now gapHours tolerance os = .ok views) {v : SegmentView} :
    v ∈ views ↔ ∃ (mmsi : Text) (k : ℕ) (run : List (TrackPoint F)),
      (vesselSegments (PyMath.hours gapHours) os mmsi)[k]? = some run ∧ v = viewOf L mmsi k run := by
  obtain ⟨segs, hsegs, hmem⟩ := segments_rows h hgap
  obtain ⟨segs', hsegs', hviews⟩ := bind_eq_ok.1 hviews
  obtain rfl : segs = segs' := Except.ok.inj (hsegs.symm.trans hsegs')
  obtain ⟨rows, hrows, hviews⟩ := bind_eq_ok.1 hviews
  cases hviews
  rw [assembleVesselTrajectories, hsegs, ok_bind, collect_eq_ok, List.forall₂_map_left_iff] at hrows
  have hne : ∀ s ∈ segs, s.points ≠ [] := fun s hs =>
    List.ne_nil_of_mem_splitBy (List.mem_of_getElem? ((hmem s).1 hs).1)
  rw [zip_trajectoryRows hne hrows, List.mem_map]
  constructor
  · rintro ⟨s, hs, rfl⟩
    exact ⟨s.mmsi, s.segmentIndex, s.points, ((hmem s).1 hs).1, rfl⟩
  · rintro ⟨mmsi, k, run, hrun, rfl⟩
    exact ⟨⟨mmsi, k, run, (orderedTrack os mmsi).length -
      (deduplicated (orderedTrack os mmsi)).length⟩, (hmem _).2 ⟨hrun, rfl⟩, rfl⟩

end Reference

/-! ## Both -/

omit [PyFloat F] [PyMath F] in
/-- A view is the vessel, the index and the event ids in order. -/
theorem viewOf_inj {mmsi mmsi' : Text} {k k' : ℕ} {points points' : List (TrackPoint F)} :
    viewOf L mmsi k points = viewOf L mmsi' k' points' ↔
      mmsi = mmsi' ∧ k = k' ∧
        points.map TrackPoint.eventId = points'.map TrackPoint.eventId := by
  have hfirst : ∀ points : List (TrackPoint F),
      firstEventId points = (points.map TrackPoint.eventId).head?.getD [] := by
    intro points
    rw [firstEventId, List.head?_map]
  have hlast : ∀ points : List (TrackPoint F),
      lastEventId points = (points.map TrackPoint.eventId).getLast?.getD [] := by
    intro points
    rw [lastEventId, List.getLast?_map]
  constructor
  · intro h
    simp only [viewOf, SegmentView.mk.injEq, Nat.cast_inj] at h
    exact ⟨h.2.1, h.2.2.1, h.2.2.2.2.2.2⟩
  · rintro ⟨rfl, rfl, hids⟩
    have hlength : points.length = points'.length := by
      simpa using congrArg List.length hids
    rw [viewOf, viewOf, hfirst, hlast, hfirst points', hlast points', hids, hlength]

omit [PyFloat F] [PyMath F] in
/-- Families of segments with the same views are the same, event id by
event id. -/
theorem views_eq_iff (runs runs' : Text → List (List (TrackPoint F))) :
    (∀ v, (∃ (mmsi : Text) (k : ℕ) (run : List (TrackPoint F)), (runs mmsi)[k]? = some run ∧
          v = viewOf L mmsi k run) ↔
        ∃ (mmsi : Text) (k : ℕ) (run : List (TrackPoint F)), (runs' mmsi)[k]? = some run ∧
          v = viewOf L mmsi k run) ↔
      ∀ mmsi, (runs mmsi).map (List.map TrackPoint.eventId) =
        (runs' mmsi).map (List.map TrackPoint.eventId) := by
  have hsome : ∀ {rs : List (List (TrackPoint F))} {k : ℕ} {ids : List Text},
      (rs.map (List.map TrackPoint.eventId))[k]? = some ids ↔
        ∃ run, rs[k]? = some run ∧ run.map TrackPoint.eventId = ids := by
    intro rs k ids
    rw [List.getElem?_map, Option.map_eq_some_iff]
  have hhalf : ∀ rs rs' : Text → List (List (TrackPoint F)),
      (∀ v, (∃ (mmsi : Text) (k : ℕ) (run : List (TrackPoint F)), (rs mmsi)[k]? = some run ∧
          v = viewOf L mmsi k run) →
        ∃ (mmsi : Text) (k : ℕ) (run : List (TrackPoint F)), (rs' mmsi)[k]? = some run ∧
          v = viewOf L mmsi k run) ↔
      ∀ (mmsi : Text) (k : ℕ) (ids : List Text),
        ((rs mmsi).map (List.map TrackPoint.eventId))[k]? = some ids →
        ((rs' mmsi).map (List.map TrackPoint.eventId))[k]? = some ids := by
    intro rs rs'
    constructor
    · intro h mmsi k ids hids
      obtain ⟨run, hrun, hids⟩ := hsome.1 hids
      obtain ⟨mmsi', k', run', hrun', hview⟩ := h _ ⟨mmsi, k, run, hrun, rfl⟩
      obtain ⟨rfl, rfl, heq⟩ := (viewOf_inj L).1 hview
      exact hsome.2 ⟨run', hrun', heq.symm.trans hids⟩
    · rintro h _ ⟨mmsi, k, run, hrun, rfl⟩
      obtain ⟨run', hrun', heq⟩ := hsome.1 (h mmsi k _ (hsome.2 ⟨run, hrun, rfl⟩))
      exact ⟨mmsi, k, run', hrun', (viewOf_inj L).2 ⟨rfl, rfl, heq.symm⟩⟩
  constructor
  · intro h mmsi
    refine List.ext_getElem? fun k => Option.ext fun ids => ?_
    exact ⟨(hhalf runs runs').1 (fun v => (h v).1) mmsi k ids,
      (hhalf runs' runs).1 (fun v => (h v).2) mmsi k ids⟩
  · intro h v
    exact ⟨(hhalf runs runs').2 (fun mmsi k ids hids => h mmsi ▸ hids) v,
      (hhalf runs' runs).2 (fun mmsi k ids hids => (h mmsi).symm ▸ hids) v⟩

section Agreement

variable {L} [LawfulFloat F] [LawfulMath F] {epoch : ℤ → ℤ} {now : ℤ} {gapHours tolerance : F}

/-- An accepted gap is within the range of a `timedelta`. -/
theorem AcceptedGap.hours_lt (h : AcceptedGap gapHours) : PyMath.hours gapHours < timedeltaBound := by
  have hpos := (LawfulFloat.lt_iff (LawfulFloat.finite_ofInt (by decide)) h.finite).1 h.pos
  have hle := (PyFloat.le_iff h.finite (LawfulFloat.finite_ofInt (by decide))).1 h.le
  rw [LawfulFloat.val_ofInt (by decide)] at hpos hle
  have hbound := LawfulMath.hours_le h.finite (by simpa using hpos) (by simpa using hle)
  unfold timedeltaBound
  omega

omit [PyMath F] [LawfulMath F] in
/-- A vessel's points are of distinct events. -/
theorem BronzeTable.nodup_track (T : BronzeTable F L) (mmsi : Text) :
    ((orderedTrack T.rows mmsi).map TrackPoint.eventId).Nodup := by
  have hperm := (perm_sortBy TrackPoint.order (pointsOf T.rows mmsi)).map TrackPoint.eventId
  rw [orderedTrack, hperm.nodup_iff, pointsOf, List.map_map]
  exact T.nodup.sublist (List.filter_sublist.map Observation.eventId)

omit [LawfulMath F] in
/-- One vessel on which the engines agree. -/
theorem runs_eq_iff (T : BronzeTable F L) (mmsi : Text) :
    (vesselSegments (PyMath.hours gapHours) T.rows mmsi).map (List.map TrackPoint.eventId) =
        ((sparkRuns epoch (gapSeconds gapHours) T.rows mmsi).map (sortBy (structOrder epoch))).map
          (List.map TrackPoint.eventId) ↔
      (orderedTrack T.rows mmsi).IsChain (Indifferent epoch gapHours) := by
  rw [vesselSegments, sparkRuns, deduplicated, List.map_map]
  refine (map_splitBy_destutter_iff (T.nodup_track mmsi)).trans ?_
  refine List.IsChain.iff fun p q => ?_
  constructor
  · rintro ⟨hdistinct, hcut, horder⟩
    refine ⟨hdistinct, by simpa [together] using hcut, fun hfalse => horder ?_⟩
    simp [together, hfalse]
  · rintro ⟨hdistinct, hcut, horder⟩
    refine ⟨hdistinct, by simpa [together] using hcut, fun htrue => horder ?_⟩
    simpa [together] using htrue

/-- **When the two engines agree**: the threshold does not round to zero
(or there is nothing to cut), and wherever two observations of a vessel
follow each other, the differences between the engines make none. -/
theorem engines_agree_iff (T : BronzeTable F L) (hgap : AcceptedGap gapHours)
    (htolerance : Usable tolerance) :
    EnginesAgree L epoch now gapHours tolerance T.rows ↔
      (T.rows ≠ [] → 0 < PyMath.hours gapHours) ∧
        ∀ mmsi, (orderedTrack T.rows mmsi).IsChain (Indifferent epoch gapHours) := by
  have hspark : ∀ v, v ∈ sparkSegments L epoch (gapSeconds gapHours) T.rows ↔
      ∃ (mmsi : Text) (k : ℕ) (run : List (TrackPoint F)),
        ((sparkRuns epoch (gapSeconds gapHours) T.rows mmsi).map
          (sortBy (structOrder epoch)))[k]? = some run ∧ v = viewOf L mmsi k run := by
    intro v
    rw [mem_sparkSegments]
    constructor
    · rintro ⟨mmsi, k, run, hrun, rfl⟩
      exact ⟨mmsi, k, _, by rw [List.getElem?_map, hrun]; rfl, rfl⟩
    · rintro ⟨mmsi, k, run, hrun, rfl⟩
      rw [List.getElem?_map, Option.map_eq_some_iff] at hrun
      obtain ⟨run, hrun, rfl⟩ := hrun
      exact ⟨mmsi, k, run, hrun, rfl⟩
  -- with a positive gap both engines return, and their segments are compared
  have hpositive : 0 < PyMath.hours gapHours →
      (EnginesAgree L epoch now gapHours tolerance T.rows ↔
        ∀ mmsi, (orderedTrack T.rows mmsi).IsChain (Indifferent epoch gapHours)) := by
    intro hpos
    obtain ⟨segs, hsegs, -⟩ := segments_rows T.valid hpos
    obtain ⟨rows, hrows⟩ := assembleVesselTrajectories_isOk T.valid T.size hpos hgap.hours_lt
      htolerance now
    obtain ⟨views, hviews⟩ : ∃ views,
        referenceSegments L now gapHours tolerance T.rows = .ok views :=
      ⟨_, by rw [referenceSegments, hsegs, ok_bind, hrows]; rfl⟩
    have hmem := fun v => mem_referenceSegments T.valid hpos hviews (v := v)
    have hchain := (views_eq_iff L (vesselSegments (PyMath.hours gapHours) T.rows)
      fun mmsi => (sparkRuns epoch (gapSeconds gapHours) T.rows mmsi).map
        (sortBy (structOrder epoch))).trans (forall_congr' fun mmsi => runs_eq_iff T mmsi)
    rw [← hchain]
    constructor
    · rintro ⟨views', hviews', h⟩ v
      obtain rfl : views = views' := Except.ok.inj (hviews.symm.trans hviews')
      rw [← hmem, ← hspark]
      exact h v
    · intro h
      exact ⟨views, hviews, fun v => by rw [hmem, hspark]; exact h v⟩
  -- without rows the gap is not looked at
  by_cases hne : T.rows = []
  · have htrack : ∀ mmsi, orderedTrack T.rows mmsi = [] := by
      intro mmsi
      simp [orderedTrack, pointsOf, hne]
    refine ⟨fun _ => ⟨fun h => absurd hne h, fun mmsi => by rw [htrack]; exact .nil⟩, fun _ => ?_⟩
    rw [hne]
    exact ⟨[], rfl, fun v => Iff.rfl⟩
  · constructor
    · intro h
      obtain ⟨views, hviews, -⟩ := id h
      obtain ⟨segs, hsegs, -⟩ := bind_eq_ok.1 hviews
      have hpos := gap_pos_of_segments T.valid hsegs hne
      exact ⟨fun _ => hpos, (hpositive hpos).1 h⟩
    · rintro ⟨hpos, h⟩
      exact (hpositive (hpos hne)).2 h

end Agreement

/-! ## Two observations of one vessel -/

/-- An observation of a vessel, some time after an instant. -/
def sighting (id : String) (us : ℤ) : Observation Decimal where
  eventId := lit id
  mmsi := lit "657123400"
  occurredAt := 1772352000000000 + us
  recordedAt := 1772352000000000 + us
  latitude := .fin false 35 (-1)
  longitude := .fin false (35000000000 + us.toNat) (-10)
  speedKnots := none
  headingDegrees := none
  decodeSource := lit "payload"
  producer := lit "geo-service"
  sourceRecordReference := lit "c0ffee"
  payloadJson := lit "\x7b\x7d"
  ingestedAt := 0

/-- Two hours. -/
def twoHours : Decimal := .fin false 2 0

/-- Two hours are an accepted gap. -/
theorem twoHours_accepted : AcceptedGap twoHours := ⟨by decide, by decide, by decide⟩

/-- The sightings are valid observations. -/
theorem sighting_valid {id : String} {us : ℤ} (hus : 0 ≤ us ∧ us < 7200000000)
    (hlongitude : InRange (-180) 180 (sighting id us).longitude)
    (hid : Ingest.requireCanonicalText Library.ascii (.str (lit id) : Doc Decimal) (lit "event_id")
      256 = .ok (lit id)) : (sighting id us).Valid Library.ascii where
  mmsi := (by decide : IsMmsi (lit "657123400"))
  motion :=
    { latitude := (within_iff (x := (.fin false 35 (-1) : Decimal)) (by decide) (by decide)
        (by decide)).1 (by decide)
      longitude := hlongitude
      speedKnots := nofun
      headingDegrees := nofun }
  eventId := hid
  occurredAt := by
    have hbounds : IsoTime.bounds = (-62135596800000000, 253402300799999999) := by decide
    rw [hbounds]
    change _ ≤ 1772352000000000 + us ∧ 1772352000000000 + us ≤ _
    simp only
    omega

/-- The table of two observations. -/
def sightings (us us' : ℤ) (hus : 0 ≤ us ∧ us < 7200000000) (hus' : 0 ≤ us' ∧ us' < 7200000000)
    (h : InRange (-180) 180 (sighting "obs-2" us).longitude)
    (h' : InRange (-180) 180 (sighting "obs-1" us').longitude) :
    BronzeTable Decimal Library.ascii where
  rows := [sighting "obs-2" us, sighting "obs-1" us']
  valid := by
    have hid : ∀ {id : String}, id ∈ ["obs-1", "obs-2"] →
        Ingest.requireCanonicalText Library.ascii (.str (lit id) : Doc Decimal) (lit "event_id")
          256 = .ok (lit id) := by
      intro id hmem
      simp only [List.mem_cons, List.not_mem_nil, or_false] at hmem
      obtain rfl | rfl := hmem
      · exact toOption_eq_some.1 (by decide +kernel)
      · exact toOption_eq_some.1 (by decide +kernel)
    intro o ho
    simp only [List.mem_cons, List.not_mem_nil, or_false] at ho
    obtain rfl | rfl := ho
    · exact sighting_valid hus h (hid (by simp))
    · exact sighting_valid hus' h' (hid (by simp))
  nodup := by
    rw [List.map_cons, List.map_cons, List.map_nil]
    exact (by decide : [lit "obs-2", lit "obs-1"].Nodup)
  size := by
    rw [List.length_cons, List.length_cons, List.length_nil]
    decide

/-- The first sighting is within the two hours. -/
theorem first_early : (0 : ℤ) ≤ 1 ∧ (1 : ℤ) < 7200000000 := by decide

/-- The first sighting is on the globe. -/
theorem first_inRange : InRange (-180) 180 (sighting "obs-1" 1).longitude :=
  (within_iff (by decide) (by decide) (by decide)).1 (by decide)

/-- An hour apart. -/
def hourApart : BronzeTable Decimal Library.ascii :=
  sightings 3600000001 1 (by decide) first_early
    ((within_iff (by decide) (by decide) (by decide)).1 (by decide)) first_inRange

/-- Within one second. -/
def secondApart : BronzeTable Decimal Library.ascii :=
  sightings 200001 800001 (by decide) (by decide)
    ((within_iff (by decide) (by decide) (by decide)).1 (by decide))
    ((within_iff (by decide) (by decide) (by decide)).1 (by decide))

/-- Two sightings an hour apart. -/
theorem engines_agree_hour : EnginesAgree Library.ascii (· / 1000000) 0 twoHours
    defaultSimplifyTolerance hourApart.rows := by
  refine (engines_agree_iff hourApart twoHours_accepted usable_default).2
    ⟨fun _ => by decide, fun mmsi => ?_⟩
  by_cases hmmsi : mmsi = lit "657123400"
  · have htrack : orderedTrack hourApart.rows (lit "657123400") =
        [(sighting "obs-1" 1).point, (sighting "obs-2" 3600000001).point] := by decide +kernel
    rw [hmmsi, htrack, List.isChain_pair]
    exact ⟨by decide, by decide, by decide⟩
  · have htrack : orderedTrack hourApart.rows mmsi = [] := by
      have hnone : ∀ o ∈ hourApart.rows, o.mmsi = lit "657123400" := by
        simp [hourApart, sightings, sighting]
      rw [orderedTrack, pointsOf, List.filter_eq_nil_iff.2 fun o ho => ?_]
      · rfl
      · rw [hnone o ho, decide_eq_true_eq]
        exact Ne.symm hmmsi
    rw [htrack]
    exact .nil

/-- **Within one second** the reference path keeps the order of instants, the
Spark engine that of event ids. -/
theorem engines_disagree_second : ¬EnginesAgree Library.ascii (· / 1000000) 0 twoHours
    defaultSimplifyTolerance secondApart.rows := by
  rintro ⟨views, hviews, h⟩
  have hpython : (referenceSegments Library.ascii 0 twoHours defaultSimplifyTolerance
      secondApart.rows).toOption.map (List.map SegmentView.pointOrder) =
        some [[lit "obs-2", lit "obs-1"]] := by decide +kernel
  have hspark : (sparkSegments Library.ascii (· / 1000000) (gapSeconds twoHours)
      secondApart.rows).map SegmentView.pointOrder = [[lit "obs-1", lit "obs-2"]] := by
    decide +kernel
  rw [hviews] at hpython
  have hviews' : views.map SegmentView.pointOrder = [[lit "obs-2", lit "obs-1"]] :=
    Option.some.inj hpython
  have hmem : [lit "obs-2", lit "obs-1"] ∈ views.map SegmentView.pointOrder := by simp [hviews']
  obtain ⟨v, hv, horder⟩ := List.mem_map.1 hmem
  have hsame := List.mem_map_of_mem (f := SegmentView.pointOrder) ((h v).1 hv)
  rw [hspark, horder, List.mem_singleton] at hsame
  exact absurd hsame (by decide)

end Vessel

end Lakehouse

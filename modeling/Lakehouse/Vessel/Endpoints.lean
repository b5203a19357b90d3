import Lakehouse.Vessel.RdpStructure
/-!
# Which points a simplified track keeps

The coordinates RDP keeps are searched for among the points, each after
the one before. Between the ends each is found where it was kept, for it
is the first of the farthest and so the first at its place
(`matchPoints_between`). The end is not: where the track was at its last
place before, the search ends there. `keepsEnds_iff` says when it does
not.
-/

namespace Lakehouse

namespace Vessel

open OrderedFloat

variable {F : Type} [PyFloat F] [PyMath F]

/-! ## The retries -/

/-- The tolerance of a retry. -/
def halved (tolerance : F) (k : ℕ) : F := (fun x => PyFloat.div x (PyFloat.ofInt 2))^[k] tolerance

/-- A line that is taken. -/
def Taken (coordinates : List (Coordinate F)) : Prop :=
  coordinates.length ≤ 2 ∨ isSimpleLine coordinates = true

/-- The line made at a tolerance is not taken. -/
def Rejects (points : List (TrackPoint F)) (tolerance : F) : Prop :=
  ∃ simplified, rdpSimplify (points.map TrackPoint.coordinate) tolerance = .ok simplified ∧
    ¬Taken simplified

variable {points simplified : List (TrackPoint F)} {t : F}

/-- **How the retries end**: with the points as they are, or those of the
first line that is taken. -/
theorem simplifyLoop_eq_ok {retries : ℕ} :
    simplifyLoop points retries t = .ok simplified ↔
      ∃ k ≤ retries, (∀ j < k, Rejects points (halved t j)) ∧
        (k = retries ∧ simplified = points ∨ k < retries ∧ ∃ line,
          rdpSimplify (points.map TrackPoint.coordinate) (halved t k) = .ok line ∧ Taken line ∧
            simplified = matchPoints line points) := by
  -- each turn halves the tolerance, so the induction is over all of them
  induction retries generalizing t with
  | zero =>
    rw [simplifyLoop, Except.ok.injEq]
    constructor
    · rintro rfl
      exact ⟨0, le_rfl, fun j hj => absurd hj (Nat.not_lt_zero j), .inl ⟨rfl, rfl⟩⟩
    · rintro ⟨k, hk, -, ⟨-, rfl⟩ | ⟨hlt, -⟩⟩
      · rfl
      · exact absurd hlt (Nat.not_lt_zero k)
  | succ retries ih =>
    have hhalved : ∀ k, halved (PyFloat.div t (PyFloat.ofInt 2)) k = halved t (k + 1) :=
      fun k => (Function.iterate_succ_apply _ k t).symm
    rw [simplifyLoop, bind_eq_ok]
    constructor
    · rintro ⟨line, hline, h⟩
      split_ifs at h with htaken
      · rw [Bool.or_eq_true, decide_eq_true_eq] at htaken
        exact ⟨0, Nat.zero_le _, fun j hj => absurd hj (Nat.not_lt_zero j),
          .inr ⟨Nat.succ_pos _, line, hline, htaken, (Except.ok.inj h).symm⟩⟩
      · rw [Bool.or_eq_true, decide_eq_true_eq] at htaken
        obtain ⟨k, hk, hrejects, hor⟩ := ih.1 h
        refine ⟨k + 1, Nat.succ_le_succ hk, fun j hj => ?_, ?_⟩
        · cases j with
          | zero => exact ⟨line, hline, htaken⟩
          | succ j => exact hhalved j ▸ hrejects j (Nat.lt_of_succ_lt_succ hj)
        · rw [← hhalved]
          exact hor.imp (fun h => ⟨congrArg Nat.succ h.1, h.2⟩) fun h => ⟨Nat.succ_lt_succ h.1, h.2⟩
    · rintro ⟨k, hk, hrejects, hor⟩
      cases k with
      | zero =>
        obtain ⟨hzero, -⟩ | ⟨-, line, hline, htaken, rfl⟩ := hor
        · exact absurd hzero (Nat.succ_ne_zero _).symm
        · refine ⟨line, hline, if_pos ?_⟩
          rwa [Bool.or_eq_true, decide_eq_true_eq]
      | succ k =>
        obtain ⟨line, hline, htaken⟩ := hrejects 0 (Nat.succ_pos k)
        refine ⟨line, hline, ?_⟩
        rw [if_neg (by rwa [Bool.or_eq_true, decide_eq_true_eq]), ih]
        refine ⟨k, Nat.le_of_succ_le_succ hk, fun j hj => ?_, ?_⟩
        · rw [hhalved]
          exact hrejects (j + 1) (Nat.succ_lt_succ hj)
        · rw [hhalved]
          exact hor.imp (fun h => ⟨Nat.succ.inj h.1, h.2⟩) fun h => ⟨Nat.lt_of_succ_lt_succ h.1, h.2⟩

/-! ## The search for the points -/

omit [PyMath F] in
/-- **A coordinate is found** at the first point of its place. -/
theorem matchPoints_append {c : Coordinate F} {gap rest : List (TrackPoint F)} {p : TrackPoint F}
    (hgap : ∀ u ∈ gap, sameCoordinate u.coordinate c = false)
    (hp : sameCoordinate p.coordinate c = true) (cs : List (Coordinate F)) :
    matchPoints (c :: cs) (gap ++ p :: rest) = p :: matchPoints cs rest := by
  have hdrop : (gap ++ p :: rest).dropWhile (fun p => !sameCoordinate p.coordinate c) =
      p :: rest := by
    rw [List.dropWhile_append_of_pos fun u hu => by simp [hgap u hu],
      List.dropWhile_cons_of_neg (by simp [hp])]
  rw [matchPoints, hdrop]

omit [PyFloat F] [PyMath F] in
/-- A position splits those between two others in one way. -/
theorem between_split {i j m : ℕ} {gap l : List ℕ} (h : between i j = gap ++ m :: l) :
    gap = between i m ∧ l = between m j := by
  have hm := mem_between.1 (h ▸ List.mem_append_right gap List.mem_cons_self)
  have hleft : m ∉ between i m := fun hmem => absurd (mem_between.1 hmem).2 (lt_irrefl m)
  have hright : m ∉ between m j := fun hmem => absurd (mem_between.1 hmem).1 (lt_irrefl m)
  rw [between_eq_append hm.1 hm.2, List.append_cons_inj_of_notMem hleft hright] at h
  exact ⟨h.1.symm, h.2.2.symm⟩

omit [PyMath F] in
/-- **Between the ends each point is found where it was kept.** -/
theorem matchPoints_between {f : ℕ → TrackPoint F} {i j : ℕ} {r : List ℕ}
    (h : Leftmost (fun u m => sameCoordinate (f u).coordinate (f m).coordinate = true) (between i j) r)
    (hself : ∀ m ∈ r, sameCoordinate (f m).coordinate (f m).coordinate = true)
    (cs : List (Coordinate F)) (tail : List (TrackPoint F)) :
    matchPoints (r.map (fun k => (f k).coordinate) ++ cs) ((between i j).map f ++ tail) =
      r.map f ++ matchPoints cs ((between (r.getLastD i) j).map f ++ tail) := by
  generalize hl : between i j = l at h
  induction h generalizing i with
  | nil =>
    subst hl
    rfl
  | @cons m gap l r hgap _ ih =>
    obtain ⟨rfl, rfl⟩ := between_split hl
    obtain ⟨hm, hself⟩ := List.forall_mem_cons.1 hself
    have hskip : ∀ u ∈ (between i m).map f, sameCoordinate u.coordinate (f m).coordinate = false := by
      intro u hu
      obtain ⟨k, hk, rfl⟩ := List.mem_map.1 hu
      exact Bool.eq_false_iff.2 (hgap k hk)
    rw [List.map_append, List.map_cons, List.append_assoc, List.cons_append, List.map_cons,
      List.cons_append, matchPoints_append hskip hm, ih hself rfl, List.getLastD_cons]
    rfl

variable [OrderedFloat F] [SquareRoots F] [SignlessZero F]

/-- **Coordinates at one place lie as far from a chord.** -/
theorem chordDistance_congr {u v : Coordinate F} (a b : Coordinate F)
    (h : sameCoordinate u v = true) : chordDistance a b u = chordDistance a b v := by
  rw [sameCoordinate, Bool.and_eq_true, eq_iff, eq_iff] at h
  obtain ⟨⟨-, h₁⟩, -, h₂⟩ := h
  by_cases hzero : PyFloat.eq (PyFloat.add (PyFloat.mul (PyFloat.sub b.1 a.1) (PyFloat.sub b.1 a.1))
      (PyFloat.mul (PyFloat.sub b.2 a.2) (PyFloat.sub b.2 a.2))) PyMath.zero = true
  · have hpoint : ∀ p, perpendicularDistance p a b =
        .ok (PyMath.hypot (PyFloat.sub p.1 a.1) (PyFloat.sub p.2 a.2)) := fun p => if_pos hzero
    rw [chordDistance_eq (hpoint u), chordDistance_eq (hpoint v)]
    exact SignlessZero.hypot_congr (SignlessZero.sub_congr h₁ rfl) (SignlessZero.sub_congr h₂ rfl)
  · have hpos := SquareRoots.add_nonneg (SquareRoots.mul_self_nonneg (PyFloat.sub b.1 a.1))
      (SquareRoots.mul_self_nonneg (PyFloat.sub b.2 a.2))
    have hroot := SquareRoots.sqrt_ne_zero hpos (Bool.eq_false_iff.2 hzero)
    have hline : ∀ p, perpendicularDistance p a b = _ := fun p => by
      rw [perpendicularDistance, if_neg hzero, PyMath.squareRoot, if_neg (by simp [hpos]), ok_bind,
        PyMath.divide, if_neg (by simp [hroot])]
    rw [chordDistance_eq (hline u), chordDistance_eq (hline v)]
    refine SignlessZero.div_congr (SignlessZero.abs_congr ?_) rfl hroot
    exact SignlessZero.sub_congr (SignlessZero.add_congr (SignlessZero.sub_congr
      (SignlessZero.mul_congr rfl h₁) (SignlessZero.mul_congr rfl h₂)) rfl) rfl

omit [PyFloat F] [PyMath F] [OrderedFloat F] [SquareRoots F] [SignlessZero F] in
/-- The place of a point among the coordinates is its place in the track. -/
theorem place_coordinate (points : List (TrackPoint F)) (p : TrackPoint F) (i : ℕ) :
    place (points.map TrackPoint.coordinate) p.coordinate i = (points.getD i p).coordinate := by
  rw [place, List.getD_eq_getElem?_getD, List.getD_eq_getElem?_getD, List.getElem?_map,
    Option.getD_map]

omit [PyFloat F] [PyMath F] [OrderedFloat F] [SquareRoots F] [SignlessZero F] in
/-- A track is read back by its positions. -/
theorem map_getD_range (points : List (TrackPoint F)) (p : TrackPoint F) :
    (List.range points.length).map (fun i => points.getD i p) = points := by
  refine List.ext_getElem (by simp) fun i _ hi => ?_
  rw [List.getElem_map, List.getElem_range, List.getD_eq_getElem?_getD,
    List.getElem?_eq_getElem hi, Option.getD_some]

omit [PyMath F] [SquareRoots F] [SignlessZero F] in
/-- A point in the plane is at its own place. -/
theorem TrackPoint.Finite.self {p : TrackPoint F} (h : p.Finite) :
    sameCoordinate p.coordinate p.coordinate = true := by
  rw [sameCoordinate, Bool.and_eq_true, eq_iff, eq_iff]
  exact ⟨⟨number_of_isFinite h.1, rfl⟩, number_of_isFinite h.2, rfl⟩

omit [PyFloat F] [PyMath F] [OrderedFloat F] [SquareRoots F] [SignlessZero F] in
/-- The positions between, with the last. -/
theorem between_concat {i j : ℕ} (h : i < j) : between i j ++ [j] = between i (j + 1) := by
  rw [between_eq_append h (Nat.lt_succ_self j), between, between, Nat.sub_self]
  rfl

omit [PyMath F] [SquareRoots F] [SignlessZero F] in
/-- A finite point shares its own coordinates. -/
theorem sameCoordinate_getD (hfin : ∀ p ∈ points, p.Finite) (p : TrackPoint F) {i : ℕ}
    (hi : i < points.length) :
    sameCoordinate (points.getD i p).coordinate (points.getD i p).coordinate = true := by
  have hmem : points.getD i p ∈ points := by
    rw [List.getD_eq_getElem?_getD, List.getElem?_eq_getElem hi, Option.getD_some]
    exact List.getElem_mem hi
  exact (hfin _ hmem).self

/-- **The positions kept of some points** are the first at their places. -/
theorem exists_kept_positions (ht : Tolerable t) (hn : 2 < points.length) (p : TrackPoint F) :
    ∃ r, keptPositions (points.map TrackPoint.coordinate) t =
        .ok (0 :: (r ++ [points.length - 1])) ∧
      (∀ i ∈ r, 0 < i ∧ i < points.length - 1) ∧ r.getLastD 0 < points.length - 1 ∧
      Leftmost (fun u m => sameCoordinate (points.getD u p).coordinate
        (points.getD m p).coordinate = true) (between 0 (points.length - 1)) r := by
  have hn' : 2 < (points.map TrackPoint.coordinate).length := by rwa [List.length_map]
  obtain ⟨r, hr, hpositions⟩ := keptPositions_eq ht hn' p.coordinate
  rw [List.length_map] at hr hpositions
  have hbetween : ∀ i ∈ r, 0 < i ∧ i < points.length - 1 := fun i hi =>
    mem_between.1 (hr.sublist.subset hi)
  refine ⟨r, hpositions, hbetween, ?_, hr.leftmost fun a b u v huv => ?_⟩
  · obtain hzero | hmem := List.mem_cons.1 (List.getLastD_mem_cons (l := r) (a := 0))
    · rw [hzero]
      omega
    · exact (hbetween _ hmem).2
  · rw [distanceAt, distanceAt, place_coordinate, place_coordinate, place_coordinate,
      place_coordinate]
    exact chordDistance_congr _ _ huv

omit [OrderedFloat F] [SquareRoots F] [SignlessZero F] in
/-- The line made is that of the points at the positions kept. -/
theorem line_of_keptPositions {kept : List ℕ} {line : List (Coordinate F)} (p : TrackPoint F)
    (hkept : keptPositions (points.map TrackPoint.coordinate) t = .ok kept)
    (hlt : ∀ i ∈ kept, i < points.length)
    (hline : rdpSimplify (points.map TrackPoint.coordinate) t = .ok line) :
    line = kept.map fun i => (points.getD i p).coordinate := by
  have hplace : place (points.map TrackPoint.coordinate) p.coordinate =
      fun i => (points.getD i p).coordinate := funext fun i => place_coordinate points p i
  rw [rdpSimplify_eq_map, hkept, Except.map, coordinatesAt_eq p.coordinate, hplace] at hline
  · exact (Except.ok.inj hline).symm
  · intro i hi
    rw [List.length_map]
    exact hlt i hi

/-- **What is found for the coordinates kept**: the points they were kept of,
but for the end the first point at its place after the last of the others. -/
theorem matchPoints_kept (ht : Tolerable t) (hn : 2 < points.length) (hfin : ∀ p ∈ points, p.Finite)
    {p : TrackPoint F} :
    ∃ r k, keptPositions (points.map TrackPoint.coordinate) t =
        .ok (0 :: (r ++ [points.length - 1])) ∧
      (r.getLastD 0 < k ∧ k < points.length) ∧
      sameCoordinate (points.getD k p).coordinate
        (points.getD (points.length - 1) p).coordinate = true ∧
      (∀ i, r.getLastD 0 < i → i < k → sameCoordinate (points.getD i p).coordinate
        (points.getD (points.length - 1) p).coordinate = false) ∧
      ∀ line, rdpSimplify (points.map TrackPoint.coordinate) t = .ok line →
        matchPoints line points = (0 :: (r ++ [k])).map fun i => points.getD i p := by
  set f := fun i => points.getD i p with hf
  set last := points.length - 1 with hlast
  have hself : ∀ i < points.length, sameCoordinate (f i).coordinate (f i).coordinate = true :=
    fun i hi => sameCoordinate_getD hfin p hi
  obtain ⟨r, hpositions, hbetween, hbefore, hleft⟩ := exists_kept_positions ht hn p
  -- the end is at its own place, so that the search finds some point
  have hend : ∃ k, r.getLastD 0 < k ∧ sameCoordinate (f k).coordinate (f last).coordinate = true :=
    ⟨last, hbefore, hself last (by omega)⟩
  obtain ⟨hk, hsame⟩ := Nat.find_spec hend
  have hkn : Nat.find hend < points.length :=
    (Nat.find_min' hend ⟨hbefore, hself last (by omega)⟩).trans_lt (by omega)
  have hfirst : ∀ i, r.getLastD 0 < i → i < Nat.find hend →
      sameCoordinate (f i).coordinate (f last).coordinate = false := fun i hi hik =>
    Bool.eq_false_iff.2 fun h => Nat.find_min hend hik ⟨hi, h⟩
  refine ⟨r, Nat.find hend, hpositions, ⟨hk, hkn⟩, hsame, hfirst, fun line hline => ?_⟩
  have hpoints : points = f 0 :: ((between 0 last).map f ++ [f last]) := by
    conv_lhs => rw [← map_getD_range points p, range_eq_between hn]
    rw [List.map_cons, List.map_append, List.map_singleton]
  have hcoordinates : line = (f 0).coordinate :: (r.map (fun k => (f k).coordinate) ++
      [(f last).coordinate]) := by
    rw [line_of_keptPositions p hpositions ?_ hline, List.map_cons, List.map_append,
      List.map_singleton]
    intro i hi
    simp only [List.mem_cons, List.mem_append, List.not_mem_nil, or_false] at hi
    obtain rfl | hi | rfl := hi
    · omega
    · exact (hbetween i hi).2.trans_le (Nat.sub_le _ _)
    · omega
  have hrest : (between (r.getLastD 0) last).map f ++ [f last] =
      (between (r.getLastD 0) (Nat.find hend)).map f ++ f (Nat.find hend) ::
        (between (Nat.find hend) (last + 1)).map f := by
    rw [← List.map_singleton, ← List.map_append, between_concat hbefore,
      between_eq_append hk (by omega), List.map_append, List.map_cons]
  have hzero : matchPoints line points = f 0 :: matchPoints
      (r.map (fun k => (f k).coordinate) ++ [(f last).coordinate])
      ((between 0 last).map f ++ [f last]) := by
    rw [hcoordinates, hpoints]
    exact matchPoints_append (List.forall_mem_nil _) (hself 0 (by omega)) _
  rw [hzero, matchPoints_between hleft (fun m hm => hself m ((hbetween m hm).2.trans (by omega))), hrest,
    matchPoints_append _ hsame]
  · rw [matchPoints, List.map_cons, List.map_append, List.map_singleton]
  · intro u hu
    obtain ⟨i, hi, rfl⟩ := List.mem_map.1 hu
    exact hfirst i (mem_between.1 hi).1 (mem_between.1 hi).2

/-! ## The ends -/

/-- What tells an observation from the others. -/
def TrackPoint.identity (p : TrackPoint F) : Text × ℤ := (p.eventId, p.occurredAt)

/-- Two tracks begin with one observation, and end with one. -/
def SameEnds (simplified points : List (TrackPoint F)) : Prop :=
  simplified.head?.map TrackPoint.identity = points.head?.map TrackPoint.identity ∧
    simplified.getLast?.map TrackPoint.identity = points.getLast?.map TrackPoint.identity

/-- **A simplified track keeps its ends.** -/
def KeepsEnds (points : List (TrackPoint F)) (tolerance : F) : Prop :=
  ∃ simplified, simplifyPreservingTopology points tolerance = .ok simplified ∧
    simplified.Sublist points ∧ SameEnds simplified points

/-- **The end is found**: of the points after the last position RDP keeps
before the end, the first that lies where the track ends is what the track
ends with. -/
def EndFound (points : List (TrackPoint F)) (tolerance : F) : Prop :=
  ∃ before m k p q, keptPositions (points.map TrackPoint.coordinate) tolerance =
      .ok (before ++ [m, points.length - 1]) ∧
    (m < k ∧ points[k]? = some p) ∧ points.getLast? = some q ∧
    sameCoordinate p.coordinate q.coordinate = true ∧ p.identity = q.identity ∧
    ∀ i u, m < i → i < k → points[i]? = some u → sameCoordinate u.coordinate q.coordinate = false

omit [OrderedFloat F] [SquareRoots F] [SignlessZero F] in
/-- A tolerance that the simplification accepts is tolerable. -/
theorem tolerable_of_rdpSimplify {coordinates line : List (Coordinate F)}
    (h : rdpSimplify coordinates t = .ok line) : Tolerable t := by
  rw [rdpSimplify, rdpSimplifyItems] at h
  split_ifs at h with ht
  all_goals
    rw [Bool.or_eq_true, Bool.not_eq_true', not_or, Bool.not_eq_true, Bool.not_eq_false] at ht
    exact ht

/-- The last of a list is the element behind the others. -/
theorem getLastD_of_eq_concat {r before : List ℕ} {m : ℕ} (h : 0 :: r = before ++ [m]) :
    r.getLastD 0 = m := by
  rw [← List.getLastD_cons (a := 0), h, List.getLastD_concat]

/-- **The line made at a tolerance gives back the ends** where the end is
found. -/
theorem sameEnds_iff (hn : 2 < points.length) (hfin : ∀ p ∈ points, p.Finite)
    {line : List (Coordinate F)}
    (hline : rdpSimplify (points.map TrackPoint.coordinate) t = .ok line) :
    SameEnds (matchPoints line points) points ↔ EndFound points t := by
  have hpos : 0 < points.length := by omega
  have hlast : points.length - 1 < points.length := by omega
  obtain ⟨r, k, hpositions, ⟨hk, hkn⟩, hsame, hfirst, hmatch⟩ :=
    matchPoints_kept (tolerable_of_rdpSimplify hline) hn hfin (p := points[0])
  have hgetD : ∀ {i}, (hi : i < points.length) → points.getD i points[0] = points[i] := fun hi => by
    rw [List.getD_eq_getElem?_getD, List.getElem?_eq_getElem hi, Option.getD_some]
  have hend : points.getLast? = some points[points.length - 1] := by
    rw [List.getLast?_eq_getElem?, List.getElem?_eq_getElem hlast]
  have hfront : (matchPoints line points).head? = some points[0] := by
    rw [hmatch line hline, List.map_cons, List.head?_cons, hgetD hpos]
  have hback : (matchPoints line points).getLast? = some points[k] := by
    rw [hmatch line hline, ← List.cons_append, List.map_append, List.map_singleton,
      List.getLast?_concat, hgetD hkn]
  -- the first end is always kept, so the last one decides
  have hsameEnds : SameEnds (matchPoints line points) points ↔
      points[k].identity = points[points.length - 1].identity := by
    rw [SameEnds, hfront, hback, hend, List.head?_eq_getElem?, List.getElem?_eq_getElem hpos]
    simp
  rw [hgetD hkn, hgetD hlast] at hsame
  rw [hgetD hlast] at hfirst
  rw [hsameEnds]
  constructor
  · intro hid
    obtain ⟨before, m, hm⟩ : ∃ before m, 0 :: r = before ++ [m] :=
      ⟨(0 :: r).dropLast, _, (List.dropLast_append_getLast (List.cons_ne_nil 0 r)).symm⟩
    have hlastD := getLastD_of_eq_concat hm
    refine ⟨before, m, k, points[k], points[points.length - 1], ?_,
      ⟨hlastD ▸ hk, List.getElem?_eq_getElem hkn⟩, hend, hsame, hid, fun i u hi hik hu => ?_⟩
    · rw [hpositions, ← List.cons_append, hm, List.append_assoc]
      rfl
    · obtain ⟨hin, rfl⟩ := List.getElem?_eq_some_iff.1 hu
      rw [← hgetD hin]
      exact hfirst i (hlastD ▸ hi) hik
  · rintro ⟨before, m, k', p, q, hpositions', ⟨hmk, hp⟩, hq, hsame', hid, hfirst'⟩
    rw [hpositions] at hpositions'
    have hm : 0 :: r = before ++ [m] := by
      have hcons := Except.ok.inj hpositions'
      rw [← List.cons_append, List.append_cons before m] at hcons
      exact List.append_cancel_right hcons
    have hlastD := getLastD_of_eq_concat hm
    obtain rfl := Option.some.inj (hend.symm.trans hq)
    obtain ⟨hk'n, rfl⟩ := List.getElem?_eq_some_iff.1 hp
    obtain hlt | rfl | hgt := lt_trichotomy k' k
    · have hnot := hfirst k' (hlastD ▸ hmk) hlt
      rw [hgetD hk'n, hsame'] at hnot
      cases hnot
    · exact hid
    · have hnot := hfirst' k _ (hlastD ▸ hk) hgt (List.getElem?_eq_getElem hkn)
      rw [hsame] at hnot
      cases hnot

/-- **When a simplified track keeps its ends**: always with two points; else
where every retry is turned down, or the end is found at the first line that
is taken. -/
theorem keepsEnds_iff (hn : 2 ≤ points.length) (hfin : ∀ p ∈ points, p.Finite) :
    KeepsEnds points t ↔ points.length = 2 ∨
      ∃ k ≤ maxSimplifyRetries, (∀ j < k, Rejects points (halved t j)) ∧
        (k = maxSimplifyRetries ∨ k < maxSimplifyRetries ∧ (∃ line,
          rdpSimplify (points.map TrackPoint.coordinate) (halved t k) = .ok line ∧ Taken line) ∧
            EndFound points (halved t k)) := by
  by_cases hlength : points.length = 2
  · refine iff_of_true ⟨points, ?_, .refl _, rfl, rfl⟩ (.inl hlength)
    rw [simplifyPreservingTopology, if_pos hlength.le]
  have hn : 2 < points.length := lt_of_le_of_ne hn (Ne.symm hlength)
  have hloop : ∀ simplified, simplifyPreservingTopology points t = .ok simplified ↔
      simplifyLoop points maxSimplifyRetries t = .ok simplified := by
    intro simplified
    rw [simplifyPreservingTopology, if_neg (not_le.2 hn)]
  rw [or_iff_right hlength]
  constructor
  -- the loop ends at the first tolerance that is taken, or with the points
  · rintro ⟨simplified, hsimplified, -, hends⟩
    obtain ⟨k, hk, hrejects, ⟨hlast, -⟩ | ⟨hlt, line, hline, htaken, rfl⟩⟩ :=
      simplifyLoop_eq_ok.1 ((hloop simplified).1 hsimplified)
    · exact ⟨k, hk, hrejects, .inl hlast⟩
    · exact ⟨k, hk, hrejects, .inr ⟨hlt, ⟨line, hline, htaken⟩, (sameEnds_iff hn hfin hline).1 hends⟩⟩
  · rintro ⟨k, hk, hrejects, hlast | ⟨hlt, ⟨line, hline, htaken⟩, hfound⟩⟩
    · have hpoints := (hloop points).2 (simplifyLoop_eq_ok.2 ⟨k, hk, hrejects, .inl ⟨hlast, rfl⟩⟩)
      exact ⟨points, hpoints, .refl _, rfl, rfl⟩
    · have hmatched := (hloop _).2 (simplifyLoop_eq_ok.2 ⟨k, hk, hrejects,
        .inr ⟨hlt, line, hline, htaken, rfl⟩⟩)
      exact ⟨_, hmatched, simplifyPreservingTopology_sublist hmatched,
        (sameEnds_iff hn hfin hline).2 hfound⟩

/-- **No other point shares the end's coordinates.** -/
def EndUnshared (points : List (TrackPoint F)) : Prop :=
  ∀ p ∈ points.dropLast, ∀ q ∈ points.getLast?, sameCoordinate p.coordinate q.coordinate = false

/-- An end that shares its coordinates with no other point is found. -/
theorem endFound_of_unshared (ht : Tolerable t) (hn : 2 < points.length)
    (hfin : ∀ p ∈ points, p.Finite) (hend : EndUnshared points) : EndFound points t := by
  have hlast : points.length - 1 < points.length := by omega
  have hq : points.getLast? = some points[points.length - 1] := by
    rw [List.getLast?_eq_getElem?, List.getElem?_eq_getElem hlast]
  obtain ⟨r, hpositions, -, hbefore, -⟩ := exists_kept_positions ht hn points[0]
  obtain ⟨before, m, hm⟩ : ∃ before m, 0 :: r = before ++ [m] :=
    ⟨(0 :: r).dropLast, _, (List.dropLast_append_getLast (List.cons_ne_nil 0 r)).symm⟩
  refine ⟨before, m, points.length - 1, points[points.length - 1], points[points.length - 1], ?_,
    ⟨getLastD_of_eq_concat hm ▸ hbefore, List.getElem?_eq_getElem hlast⟩, hq,
    (hfin _ (List.getElem_mem hlast)).self, rfl, fun i u _ hi hu => hend u ?_ _ hq⟩
  · rw [hpositions, ← List.cons_append, hm, List.append_assoc]
    rfl
  · refine List.mem_of_getElem? (i := i) ?_
    rw [List.getElem?_dropLast, if_pos hi, hu]

/-- **Where no other point shares the end's coordinates**, a track that is
simplified keeps its ends. -/
theorem keepsEnds_of_unshared (hn : 2 ≤ points.length) (hfin : ∀ p ∈ points, p.Finite)
    (hend : EndUnshared points) :
    KeepsEnds points t ↔ ∃ simplified, simplifyPreservingTopology points t = .ok simplified := by
  refine ⟨fun ⟨simplified, h, _⟩ => ⟨simplified, h⟩, fun ⟨simplified, h⟩ =>
    ⟨simplified, h, simplifyPreservingTopology_sublist h, ?_⟩⟩
  rw [simplifyPreservingTopology] at h
  split_ifs at h with hshort
  · cases h
    exact ⟨rfl, rfl⟩
  · obtain ⟨k, -, -, ⟨-, rfl⟩ | ⟨-, line, hline, -, rfl⟩⟩ := simplifyLoop_eq_ok.1 h
    · exact ⟨rfl, rfl⟩
    · exact (sameEnds_iff (not_le.1 hshort) hfin hline).2
        (endFound_of_unshared (tolerable_of_rdpSimplify hline) (not_le.1 hshort) hfin hend)

/-! ### A vessel that returns, and one that stays -/

/-- A point seen some minutes after midnight. -/
def seen (minutes : ℕ) (place : Coordinate F) : TrackPoint F :=
  ⟨60000000 * minutes, place.1, place.2, lit "obs-" ++ Text.ofNat minutes⟩

/-- Out, and back to where it was. -/
def returning : List (TrackPoint ℝ) := [seen 0 (0, 0), seen 1 (3, 4), seen 2 (0, 0)]

/-- The vessel ends where it began, and the end is kept. -/
theorem keepsEnds_returning : KeepsEnds returning (1 : ℝ) := by
  have ht : Tolerable (1 : ℝ) := tolerable_iff.2 one_pos
  have hfar : number (1 : ℝ) <
      distanceAt (returning.map TrackPoint.coordinate) (0, 0) 0 2 1 := by
    have hdistance : perpendicularDistance ((3, 4) : Coordinate ℝ) (0, 0) (0, 0) =
        .ok (Real.sqrt (3 ^ 2 + 4 ^ 2)) := by
      simp [perpendicularDistance]
    change number (1 : ℝ) < chordDistance (0, 0) (0, 0) (3, 4)
    rw [chordDistance_eq hdistance, Reals.number_lt, Real.lt_sqrt zero_le_one]
    norm_num
  have hlength : 2 < (returning.map TrackPoint.coordinate).length := by decide
  obtain ⟨r, hr, hpositions⟩ := keptPositions_eq ht hlength (0, 0)
  have hsplit : Simplified (distanceAt (returning.map TrackPoint.coordinate) (0, 0))
      (number (1 : ℝ)) 0 ([] ++ 1 :: []) 2 ([] ++ 1 :: []) :=
    .split (List.forall_mem_nil _) (List.forall_mem_nil _) hfar (.stop (List.forall_mem_nil _))
      (.stop (List.forall_mem_nil _))
  rw [hr.unique hsplit] at hpositions
  have hline : rdpSimplify (returning.map TrackPoint.coordinate) 1 =
      .ok (returning.map TrackPoint.coordinate) := by
    rw [rdpSimplify_eq_map, hpositions]
    rfl
  have hfin : ∀ p ∈ returning, p.Finite := fun _ _ => ⟨rfl, rfl⟩
  refine (keepsEnds_iff (by decide) hfin).2 (.inr ⟨0, Nat.zero_le _, nofun, .inr ⟨by decide,
    ⟨_, hline, .inr rfl⟩, [0], 1, 2, _, _, hpositions, ⟨by decide, rfl⟩, rfl, ?_, rfl, ?_⟩⟩)
  · exact (hfin (seen 2 (0, 0)) (by simp [returning])).self
  · intro i u hi hik
    omega

/-- Three times at one place. -/
def stationary : List (TrackPoint Decimal) :=
  [0, 1, 2].map fun minutes => seen minutes (PyFloat.ofInt 5, PyFloat.ofInt 4)

/-- The track of a vessel that stays ends with its second point. -/
theorem not_keepsEnds_stationary : 2 ≤ stationary.length ∧
    PyFloat.lt PyMath.zero (PyFloat.ofInt 1 : Decimal) = true ∧
    ¬KeepsEnds stationary (PyFloat.ofInt 1) := by
  refine ⟨by decide, by decide +kernel, ?_⟩
  have hresult : (simplifyPreservingTopology stationary (PyFloat.ofInt 1)).toOption =
      some (stationary.take 2) := by decide +kernel
  rintro ⟨simplified, hsimplified, -, -, hlast⟩
  rw [hsimplified] at hresult
  cases hresult
  exact absurd hlast (by decide)

end Vessel

end Lakehouse

import Lakehouse.Common.FloatOrder
import Lakehouse.Common.Outcome
import Mathlib.Data.List.SplitBy
import Mathlib.Data.List.Destutter
/-!
# Simplification of a track

Ramer-Douglas-Peucker over a work stack, the test for proper
self-intersections and the retries at finer tolerances. Every place the
source can raise is kept: an index, a division, a square root and the
check of the tolerance. The stack loop takes a bound on its rounds; twice
the number of points is enough.
-/

namespace Lakehouse

namespace Vessel

variable {F : Type} [PyFloat F] [PyMath F]

/-- **`TrackPoint`.** -/
structure TrackPoint (F : Type) where
  occurredAt : ℤ
  longitude : F
  latitude : F
  eventId : Text
  deriving DecidableEq

/-- A planar position, longitude first. -/
abbrev Coordinate (F : Type) : Type := F × F

def TrackPoint.coordinate (p : TrackPoint F) : Coordinate F := (p.longitude, p.latitude)

/-- `items[index]`. -/
def item {α : Type} (items : List α) (index : ℕ) : Except PyError α :=
  match items[index]? with
  | some a => .ok a
  | none => .error .indexError

/-- **`_perpendicular_distance`.** -/
def perpendicularDistance (point start stop : Coordinate F) : Except PyError F :=
  let dx := PyFloat.sub stop.1 start.1
  let dy := PyFloat.sub stop.2 start.2
  let lengthSq := PyFloat.add (PyFloat.mul dx dx) (PyFloat.mul dy dy)
  if PyFloat.eq lengthSq PyMath.zero then
    .ok (PyMath.hypot (PyFloat.sub point.1 start.1) (PyFloat.sub point.2 start.2))
  else do
    let numerator := PyFloat.abs (PyFloat.sub (PyFloat.add
      (PyFloat.sub (PyFloat.mul dy point.1) (PyFloat.mul dx point.2)) (PyFloat.mul stop.1 start.2))
      (PyFloat.mul stop.2 start.1))
    PyMath.divide numerator (← PyMath.squareRoot lengthSq)

/-- One round of the search for the farthest point. -/
def farther (coordinates : List (Coordinate F)) (start stop : Coordinate F) (best : ℤ × F)
    (index : ℕ) : Except PyError (ℤ × F) := do
  let distance ← perpendicularDistance (← item coordinates index) start stop
  return if PyFloat.lt best.2 distance then ((index : ℤ), distance) else best

/-- The point between two others farthest from their line, and how far;
`-1` where there is none. -/
def farthest (coordinates : List (Coordinate F)) (first last : ℕ) : Except PyError (ℤ × F) := do
  let start ← item coordinates first
  let stop ← item coordinates last
  (List.range' (first + 1) (last - (first + 1))).foldlM (farther coordinates start stop)
    (-1, PyFloat.ofInt (-1))

/-- The `while stack` loop, for a number of rounds. -/
def rdpLoop (coordinates : List (Coordinate F)) (tolerance : F) :
    ℕ → List (ℕ × ℕ) → List Bool → Except PyError (List Bool)
  | _, [], keep => .ok keep
  | 0, _ :: _, _ => .error (.runtimeError (lit "out of rounds"))
  | rounds + 1, (first, last) :: stack, keep => do
    let (index, distance) ← farthest coordinates first last
    if PyFloat.lt tolerance distance && decide (0 < index) then
      rdpLoop coordinates tolerance rounds
        ((index.toNat, last) :: (first, index.toNat) :: stack) (keep.set index.toNat true)
    else rdpLoop coordinates tolerance rounds stack keep

/-- The items that are kept. -/
def kept {α : Type} (items : List α) (keep : List Bool) : List α :=
  ((items.zip keep).filter Prod.snd).map Prod.fst

/-- `rdp_simplify`, of the items that stand at the coordinates. -/
def rdpSimplifyItems {α : Type} (items : List α) (coordinates : List (Coordinate F))
    (tolerance : F) : Except PyError (List α) :=
  if PyFloat.le tolerance PyMath.zero || !PyFloat.isFinite tolerance then
    .error (.valueError (lit "simplification tolerance must be a positive finite value"))
  else if coordinates.length ≤ 2 then .ok items
  else do
    let last := coordinates.length - 1
    let ends := ((List.replicate coordinates.length false).set 0 true).set last true
    let keep ← rdpLoop coordinates tolerance (2 * coordinates.length) [(0, last)] ends
    return kept items keep

/-- **`rdp_simplify`**: the items are the coordinates. -/
def rdpSimplify (coordinates : List (Coordinate F)) (tolerance : F) :
    Except PyError (List (Coordinate F)) :=
  rdpSimplifyItems coordinates coordinates tolerance

/-- **`_orientation`.** -/
def orientation (a b c : Coordinate F) : F :=
  PyFloat.sub (PyFloat.mul (PyFloat.sub b.1 a.1) (PyFloat.sub c.2 a.2))
    (PyFloat.mul (PyFloat.sub b.2 a.2) (PyFloat.sub c.1 a.1))

/-- **`_segments_intersect`.** -/
def segmentsIntersect (p q : Coordinate F × Coordinate F) : Bool :=
  let positive := fun x : F => PyFloat.lt PyMath.zero x
  (positive (orientation q.1 q.2 p.1) != positive (orientation q.1 q.2 p.2)) &&
    (positive (orientation p.1 p.2 q.1) != positive (orientation p.1 p.2 q.2))

/-- No segment crosses one that comes after the next. -/
def noneIntersect : List (Coordinate F × Coordinate F) → Bool
  | [] => true
  | s :: rest => (rest.drop 1).all (fun t => !segmentsIntersect s t) && noneIntersect rest

/-- **`is_simple_line`.** -/
def isSimpleLine (coordinates : List (Coordinate F)) : Bool :=
  if coordinates.length < 4 then true
  else noneIntersect (coordinates.zip (coordinates.drop 1))

/-- `coordinates[index] == coordinate`. -/
def sameCoordinate (a b : Coordinate F) : Bool := PyFloat.eq a.1 b.1 && PyFloat.eq a.2 b.2

/-- The points of the coordinates that were kept, each searched for after
the one before. -/
def matchPoints : List (Coordinate F) → List (TrackPoint F) → List (TrackPoint F)
  | [], _ => []
  | c :: cs, points =>
    match points.dropWhile fun p => !sameCoordinate p.coordinate c with
    | [] => matchPoints cs points
    | p :: rest => p :: matchPoints cs rest

/-- `MAX_SIMPLIFY_RETRIES`. -/
def maxSimplifyRetries : ℕ := 8

/-- The retries, each at half the tolerance of the one before. -/
def simplifyLoop (points : List (TrackPoint F)) : ℕ → F → Except PyError (List (TrackPoint F))
  | 0, _ => .ok points
  | retries + 1, candidate => do
    let simplified ← rdpSimplify (points.map TrackPoint.coordinate) candidate
    if simplified.length ≤ 2 || isSimpleLine simplified then .ok (matchPoints simplified points)
    else simplifyLoop points retries (PyFloat.div candidate (PyFloat.ofInt 2))

/-- **`simplify_preserving_topology`.** -/
def simplifyPreservingTopology (points : List (TrackPoint F)) (tolerance : F) :
    Except PyError (List (TrackPoint F)) :=
  if points.length ≤ 2 then .ok points else simplifyLoop points maxSimplifyRetries tolerance

omit [PyMath F] in
/-- The points matched are some of the points, in their order. -/
theorem matchPoints_sublist (cs : List (Coordinate F)) (points : List (TrackPoint F)) :
    (matchPoints cs points).Sublist points := by
  induction cs generalizing points with
  | nil => exact List.nil_sublist points
  | cons c cs ih =>
    have hdrop := List.dropWhile_suffix (l := points) fun p => !sameCoordinate p.coordinate c
    rw [matchPoints]
    split
    · exact ih points
    · next p rest hrest =>
      rw [hrest] at hdrop
      exact ((ih rest).cons_cons p).trans hdrop.sublist

/-- **A simplified track is a part of the track.** -/
theorem simplifyPreservingTopology_sublist {points simplified : List (TrackPoint F)} {tolerance : F}
    (h : simplifyPreservingTopology points tolerance = .ok simplified) :
    simplified.Sublist points := by
  have hloop : ∀ retries (tolerance : F), simplifyLoop points retries tolerance = .ok simplified →
      simplified.Sublist points := by
    intro retries
    induction retries with
    | zero =>
      rintro tolerance ⟨⟩
      exact .refl _
    | succ retries ih =>
      intro tolerance h
      obtain ⟨cs, -, h⟩ := bind_eq_ok.1 h
      split_ifs at h
      · cases h
        exact matchPoints_sublist cs points
      · exact ih _ h
  unfold simplifyPreservingTopology at h
  split_ifs at h
  · cases h
    exact .refl _
  · exact hloop _ _ h

/-! ## Nothing in it raises -/

section Returns

variable [SquareRoots F]

/-- A squared length is not negative, and its root is zero only where it is. -/
theorem perpendicularDistance_isOk (point start stop : Coordinate F) :
    ∃ d, perpendicularDistance point start stop = .ok d := by
  unfold perpendicularDistance
  simp only
  split_ifs with h
  · exact ⟨_, rfl⟩
  · have hpos := SquareRoots.add_nonneg (SquareRoots.mul_self_nonneg (PyFloat.sub stop.1 start.1))
      (SquareRoots.mul_self_nonneg (PyFloat.sub stop.2 start.2))
    have hroot := SquareRoots.sqrt_ne_zero hpos (by simpa using h)
    rw [PyMath.squareRoot, if_neg (by simp [hpos]), ok_bind, PyMath.divide, if_neg (by simp [hroot])]
    exact ⟨_, rfl⟩

omit [PyFloat F] [PyMath F] [SquareRoots F] in
/-- An item within the list is read. -/
theorem item_eq_ok {α : Type} {items : List α} {i : ℕ} (h : i < items.length) :
    item items i = .ok items[i] := by
  rw [item, List.getElem?_eq_getElem h]

/-- The search stays between its ends. -/
theorem foldlM_farther {coordinates : List (Coordinate F)} (start stop : Coordinate F)
    {indices : List ℕ} (h : ∀ i ∈ indices, i < coordinates.length) (best : ℤ × F) :
    ∃ found, indices.foldlM (farther coordinates start stop) best = .ok found ∧
      (found.1 = best.1 ∨ ∃ i ∈ indices, found.1 = i) := by
  induction indices generalizing best with
  | nil => exact ⟨best, rfl, .inl rfl⟩
  | cons i indices ih =>
    have hi : i < coordinates.length := h i List.mem_cons_self
    obtain ⟨d, hd⟩ := perpendicularDistance_isOk coordinates[i] start stop
    have hstep : farther coordinates start stop best i =
        .ok (if PyFloat.lt best.2 d then ((i : ℤ), d) else best) := by
      rw [farther, item_eq_ok hi, ok_bind, hd]
      rfl
    obtain ⟨found, hfound, hor⟩ := ih (fun j hj => h j (List.mem_cons_of_mem i hj))
      (if PyFloat.lt best.2 d then ((i : ℤ), d) else best)
    refine ⟨found, by rw [List.foldlM_cons, hstep, ok_bind, hfound], ?_⟩
    obtain hbest | ⟨j, hj, hfj⟩ := hor
    · split_ifs at hbest
      · exact .inr ⟨i, List.mem_cons_self, hbest⟩
      · exact .inl hbest
    · exact .inr ⟨j, List.mem_cons_of_mem i hj, hfj⟩

/-- The farthest point is found, and lies between the ends. -/
theorem farthest_isOk {coordinates : List (Coordinate F)} {first last : ℕ} (h : first < last)
    (hlast : last < coordinates.length) :
    ∃ found, farthest coordinates first last = .ok found ∧
      (0 < found.1 → first < found.1.toNat ∧ found.1.toNat < last) := by
  have hfirst : first < coordinates.length := h.trans hlast
  have hindices : ∀ i ∈ List.range' (first + 1) (last - (first + 1)), i < coordinates.length := by
    intro i hi
    rw [List.mem_range'_1] at hi
    omega
  obtain ⟨found, hfound, hor⟩ := foldlM_farther coordinates[first] coordinates[last] hindices
    (-1, PyFloat.ofInt (-1))
  refine ⟨found, ?_, fun hpos => ?_⟩
  · rw [farthest, item_eq_ok hfirst, ok_bind, item_eq_ok hlast, ok_bind, hfound]
  · obtain hnone | ⟨i, hi, hfi⟩ := hor
    · simp only at hnone
      omega
    · rw [List.mem_range'_1] at hi
      omega

/-- The rounds a stack needs: each split leaves one less. -/
def roundsOf (stack : List (ℕ × ℕ)) : ℕ := (stack.map fun s => 2 * (s.2 - s.1) - 1).sum

/-- **The loop ends within its rounds**, and keeps what was kept. -/
theorem rdpLoop_isOk {coordinates : List (Coordinate F)} (tolerance : F) {rounds : ℕ}
    {stack : List (ℕ × ℕ)} {keep : List Bool}
    (hstack : ∀ s ∈ stack, s.1 < s.2 ∧ s.2 < coordinates.length) (hrounds : roundsOf stack ≤ rounds)
    (h0 : keep[0]? = some true) :
    ∃ keep', rdpLoop coordinates tolerance rounds stack keep = .ok keep' ∧
      keep'[0]? = some true := by
  induction rounds generalizing stack keep with
  | zero =>
    cases stack with
    | nil => exact ⟨keep, by rw [rdpLoop], h0⟩
    | cons s stack =>
      have hs := hstack s List.mem_cons_self
      simp only [roundsOf, List.map_cons, List.sum_cons] at hrounds
      omega
  | succ rounds ih =>
    cases stack with
    | nil => exact ⟨keep, by rw [rdpLoop], h0⟩
    | cons s stack =>
      obtain ⟨first, last⟩ := s
      obtain ⟨hlt, hlen⟩ := hstack _ List.mem_cons_self
      have hrest : ∀ s ∈ stack, s.1 < s.2 ∧ s.2 < coordinates.length :=
        fun s hs => hstack s (List.mem_cons_of_mem _ hs)
      simp only [roundsOf, List.map_cons, List.sum_cons] at hrounds
      obtain ⟨⟨index, distance⟩, hfound, hbetween⟩ := farthest_isOk hlt hlen
      rw [rdpLoop, hfound, ok_bind]
      simp only
      split_ifs with hsplit
      · rw [Bool.and_eq_true, decide_eq_true_eq] at hsplit
        obtain ⟨hfirst, hlast⟩ := hbetween hsplit.2
        simp only at hfirst hlast
        refine ih ?_ ?_ ?_
        · intro s hs
          simp only [List.mem_cons] at hs
          obtain rfl | rfl | hs := hs
          · exact ⟨hlast, hlen⟩
          · exact ⟨hfirst, hlast.trans hlen⟩
          · exact hrest s hs
        · simp only [roundsOf, List.map_cons, List.sum_cons]
          omega
        · rwa [List.getElem?_set_ne (by omega)]
      · exact ih hrest (by unfold roundsOf; omega) h0

omit [PyFloat F] [PyMath F] [SquareRoots F] in
/-- A first item flagged is kept. -/
theorem kept_cons {α : Type} (a : α) (items : List α) {keep : List Bool}
    (h : keep[0]? = some true) : ∃ rest, kept (a :: items) keep = a :: rest := by
  cases keep with
  | nil => cases h
  | cons b keep =>
    cases h
    exact ⟨_, rfl⟩

/-- A tolerance `rdp_simplify` accepts. -/
def Tolerable (tolerance : F) : Prop :=
  PyFloat.le tolerance PyMath.zero = false ∧ PyFloat.isFinite tolerance = true

/-- **RDP returns**, and keeps the first coordinate. -/
theorem rdpSimplify_isOk {c : Coordinate F} {cs : List (Coordinate F)} {tolerance : F}
    (h : Tolerable tolerance) : ∃ rest, rdpSimplify (c :: cs) tolerance = .ok (c :: rest) := by
  rw [rdpSimplify, rdpSimplifyItems, if_neg (by simp [h.1, h.2])]
  split_ifs with hlen
  · exact ⟨cs, rfl⟩
  · simp only [List.length_cons] at hlen
    have hstack : ∀ s ∈ [(0, (c :: cs).length - 1)], s.1 < s.2 ∧ s.2 < (c :: cs).length := by
      intro s hs
      rw [List.mem_singleton.1 hs]
      simp only [List.length_cons]
      omega
    have hrounds : roundsOf [(0, (c :: cs).length - 1)] ≤ 2 * (c :: cs).length := by
      simp only [roundsOf, List.map_cons, List.map_nil, List.sum_cons, List.sum_nil,
        List.length_cons]
      omega
    have hends : (((List.replicate (c :: cs).length false).set 0 true).set
        ((c :: cs).length - 1) true)[0]? = some true := by
      rw [List.getElem?_set_ne (by simp only [List.length_cons]; omega)]
      simp [List.replicate_succ]
    obtain ⟨keep, hkeep, h0⟩ := rdpLoop_isOk tolerance hstack hrounds hends
    obtain ⟨rest, hrest⟩ := kept_cons c cs h0
    refine ⟨rest, ?_⟩
    simp only [hkeep, ok_bind, hrest, pure_eq_ok]

end Returns

/-- A point in the plane. -/
def TrackPoint.Finite (p : TrackPoint F) : Prop :=
  PyFloat.isFinite p.longitude = true ∧ PyFloat.isFinite p.latitude = true

section Usable

variable [LawfulFloat F] [LawfulMath F]

omit [PyMath F] [LawfulMath F] in
/-- A first point that is kept is matched. -/
theorem matchPoints_cons {p : TrackPoint F} (hp : p.Finite) (cs : List (Coordinate F))
    (points : List (TrackPoint F)) : matchPoints (p.coordinate :: cs) (p :: points) ≠ [] := by
  have hsame : sameCoordinate p.coordinate p.coordinate = true := by
    rw [sameCoordinate, Bool.and_eq_true]
    exact ⟨(LawfulFloat.eq_iff hp.1 hp.1).2 rfl, (LawfulFloat.eq_iff hp.2 hp.2).2 rfl⟩
  rw [matchPoints, List.dropWhile_cons_of_neg (by simp [hsame])]
  exact List.cons_ne_nil _ _

/-- The loop returns, and keeps a point. -/
theorem simplifyLoop_isOk {p : TrackPoint F} (hp : p.Finite) (points : List (TrackPoint F))
    {retries : ℕ} {tolerance : F}
    (h : ∀ k < retries, Tolerable ((fun x => PyFloat.div x (PyFloat.ofInt 2))^[k] tolerance)) :
    ∃ q rest, simplifyLoop (p :: points) retries tolerance = .ok (q :: rest) := by
  induction retries generalizing tolerance with
  | zero => exact ⟨p, points, rfl⟩
  | succ retries ih =>
    obtain ⟨rest, hrest⟩ :
        ∃ rest, rdpSimplify (p.coordinate :: points.map TrackPoint.coordinate) tolerance =
          .ok (p.coordinate :: rest) := rdpSimplify_isOk (h 0 retries.succ_pos)
    rw [simplifyLoop, List.map_cons]
    rw [hrest, ok_bind]
    split_ifs
    · obtain ⟨q, qs, hqs⟩ := List.exists_cons_of_ne_nil (matchPoints_cons hp rest points)
      exact ⟨q, qs, by rw [hqs]⟩
    · exact ih fun k hk => by
        have hsucc := h (k + 1) (Nat.succ_lt_succ hk)
        rwa [Function.iterate_succ_apply] at hsucc

/-- A tolerance no retry halves to nothing. -/
def Usable (tolerance : F) : Prop :=
  ∀ k < maxSimplifyRetries, Tolerable ((fun x => PyFloat.div x (PyFloat.ofInt 2))^[k] tolerance)

/-- **Simplification returns**, and leaves a point. -/
theorem simplifyPreservingTopology_isOk {points : List (TrackPoint F)} (hne : points ≠ [])
    (hp : ∀ p ∈ points, p.Finite) {tolerance : F} (h : Usable tolerance) :
    ∃ q rest, simplifyPreservingTopology points tolerance = .ok (q :: rest) := by
  obtain ⟨p, points, rfl⟩ := List.exists_cons_of_ne_nil hne
  rw [simplifyPreservingTopology]
  split_ifs
  · exact ⟨p, points, rfl⟩
  · exact simplifyLoop_isOk (hp p List.mem_cons_self) points h

/-- A float of the size of a tolerance is usable. -/
theorem usable_of_le {tolerance : F} (hfin : PyFloat.isFinite tolerance = true)
    (h : (1 / 2 ^ 200 : ℚ) ≤ LawfulFloat.val tolerance) : Usable tolerance := by
  have hpos : (0 : ℚ) < 1 / 2 ^ 200 := by positivity
  have hhalves : ∀ k : ℕ, k ≤ maxSimplifyRetries →
      PyFloat.isFinite ((fun x => PyFloat.div x (PyFloat.ofInt 2))^[k] tolerance) = true ∧
        LawfulFloat.val ((fun x => PyFloat.div x (PyFloat.ofInt 2))^[k] tolerance) =
          LawfulFloat.val tolerance / 2 ^ k := by
    intro k hk
    induction k with
    | zero => exact ⟨hfin, by simp⟩
    | succ k ih =>
      obtain ⟨hf, hv⟩ := ih (Nat.le_of_succ_le hk)
      have hmin : (1 / 2 ^ 240 : ℚ) ≤ LawfulFloat.val tolerance / 2 ^ k := by
        have hpow : (2 : ℚ) ^ k ≤ 2 ^ maxSimplifyRetries :=
          pow_le_pow_right₀ (by norm_num) (Nat.le_of_succ_le hk)
        calc (1 / 2 ^ 240 : ℚ) ≤ 1 / 2 ^ 200 / 2 ^ maxSimplifyRetries := by
              norm_num [maxSimplifyRetries]
          _ ≤ LawfulFloat.val tolerance / 2 ^ k := div_le_div₀ (hpos.le.trans h) h (by positivity) hpow
      obtain ⟨hf', hv'⟩ := LawfulMath.half hf (hv ▸ hmin)
      rw [Function.iterate_succ_apply']
      exact ⟨hf', by rw [hv', hv, pow_succ, div_div]⟩
  intro k hk
  obtain ⟨hf, hv⟩ := hhalves k hk.le
  have hz : PyFloat.isFinite (PyMath.zero : F) = true := LawfulFloat.finite_ofInt (by decide)
  have hz0 : LawfulFloat.val (PyMath.zero : F) = 0 := by
    rw [PyMath.zero, LawfulFloat.val_ofInt (by decide)]
    simp
  have hval : 0 < LawfulFloat.val tolerance / 2 ^ k := div_pos (hpos.trans_le h) (by positivity)
  refine ⟨?_, hf⟩
  rw [PyFloat.le, Bool.or_eq_false_iff, ← Bool.not_eq_true, ← Bool.not_eq_true,
    LawfulFloat.lt_iff hf hz, LawfulFloat.eq_iff hf hz, hv, hz0]
  exact ⟨hval.le.not_gt, hval.ne'⟩

end Usable

end Vessel

end Lakehouse

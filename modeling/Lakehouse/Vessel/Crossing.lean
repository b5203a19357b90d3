import Lakehouse.Common.Reals
import Lakehouse.Vessel.Simplify
import Mathlib.Tactic.Ring
/-!
# The test for crossings

`is_simple_line` looks at which ends of two legs lie strictly to the left
of the other. Legs that cross properly are told apart so
(`CrossProperly.oneLeft`); so are some that only touch, and then the answer
for the track reversed, which looks at the right, may be another.
`exact_iff` says when it is not.
-/

namespace Lakehouse

namespace Vessel

/-! ## The pairs looked at -/

section Legs

variable {F : Type} {coordinates : List (Coordinate F)} {s t : Coordinate F × Coordinate F}

/-- A leg of a track. -/
def LegAt (coordinates : List (Coordinate F)) (i : ℕ) (s : Coordinate F × Coordinate F) : Prop :=
  coordinates[i]? = some s.1 ∧ coordinates[i + 1]? = some s.2

/-- **Two legs that are not adjacent**, in the order of the track. -/
def NonAdjacent (coordinates : List (Coordinate F)) (s t : Coordinate F × Coordinate F) : Prop :=
  ∃ i j, i + 2 ≤ j ∧ LegAt coordinates i s ∧ LegAt coordinates j t

/-- The legs of a track by their places. -/
theorem getElem?_zip_drop {i : ℕ} :
    (coordinates.zip (coordinates.drop 1))[i]? = some s ↔ LegAt coordinates i s := by
  rw [List.getElem?_zip_eq_some, List.getElem?_drop, Nat.add_comm 1 i]
  rfl

/-- Reversed, a track has its legs the other way. -/
theorem LegAt.reverse {i : ℕ} (h : LegAt coordinates.reverse i s) :
    i + 2 ≤ coordinates.length ∧ LegAt coordinates (coordinates.length - 2 - i) s.swap := by
  have hlength : i + 1 < coordinates.length := by
    rw [← List.length_reverse]
    exact (List.getElem?_eq_some_iff.1 h.2).1
  obtain ⟨h₁, h₂⟩ := h
  rw [List.getElem?_reverse (by omega)] at h₁ h₂
  have hstart : coordinates.length - 2 - i = coordinates.length - 1 - (i + 1) := by omega
  have hstop : coordinates.length - 2 - i + 1 = coordinates.length - 1 - i := by omega
  exact ⟨hlength, by rw [hstart]; exact h₂, by rw [hstop]; exact h₁⟩

/-- Legs apart in a reversed track are apart in the track. -/
theorem NonAdjacent.reverse (h : NonAdjacent coordinates.reverse s t) :
    NonAdjacent coordinates t.swap s.swap := by
  obtain ⟨i, j, hij, hs, ht⟩ := h
  obtain ⟨-, hs⟩ := hs.reverse
  obtain ⟨hlength, ht⟩ := ht.reverse
  exact ⟨_, _, by omega, ht, hs⟩

/-- Legs apart stay so under a map. -/
theorem NonAdjacent.map {f : Coordinate F → Coordinate F} (h : NonAdjacent coordinates s t) :
    NonAdjacent (coordinates.map f) (s.map f f) (t.map f f) := by
  obtain ⟨i, j, hij, ⟨hs₁, hs₂⟩, ht₁, ht₂⟩ := h
  refine ⟨i, j, hij, ⟨?_, ?_⟩, ?_, ?_⟩
  all_goals rw [List.getElem?_map]
  · rw [hs₁]
    rfl
  · rw [hs₂]
    rfl
  · rw [ht₁]
    rfl
  · rw [ht₂]
    rfl

variable [PyFloat F]

/-- Some two legs apart intersect. -/
theorem noneIntersect_eq_false {legs : List (Coordinate F × Coordinate F)} :
    noneIntersect legs = false ↔ ∃ i j s t, i + 2 ≤ j ∧ legs[i]? = some s ∧ legs[j]? = some t ∧
      segmentsIntersect s t = true := by
  induction legs with
  | nil => simp [noneIntersect]
  | cons s legs ih =>
    rw [noneIntersect, Bool.and_eq_false_iff, ih]
    constructor
    · rintro (hall | ⟨i, j, s', t, hij, hs', ht, hintersect⟩)
      · simp only [List.all_eq_false, Bool.not_eq_true', Bool.not_eq_false] at hall
        obtain ⟨t, ht, hintersect⟩ := hall
        obtain ⟨j, hj⟩ := List.mem_iff_getElem?.1 ht
        rw [List.getElem?_drop] at hj
        exact ⟨0, 1 + j + 1, s, t, by omega, rfl, hj, hintersect⟩
      · exact ⟨i + 1, j + 1, s', t, by omega, hs', ht, hintersect⟩
    · rintro ⟨i, j, s', t, hij, hs', ht, hintersect⟩
      cases i with
      | zero =>
        obtain rfl := Option.some.inj hs'
        obtain ⟨k, rfl⟩ := Nat.exists_eq_add_of_le hij
        refine .inl (List.all_eq_false.2 ⟨t, List.mem_iff_getElem?.2 ⟨k, ?_⟩, by simp [hintersect]⟩)
        rw [List.getElem?_drop, ← List.getElem?_cons_succ (a := s)]
        rw [← ht]
        congr 1
        omega
      | succ i =>
        cases j with
        | zero => omega
        | succ j => exact .inr ⟨i, j, s', t, by omega, hs', ht, hintersect⟩

/-- **What the answer says**: some pair is taken to intersect. -/
theorem isSimpleLine_eq_false : isSimpleLine coordinates = false ↔
    ∃ s t, NonAdjacent coordinates s t ∧ segmentsIntersect s t = true := by
  have hlegs : noneIntersect (coordinates.zip (coordinates.drop 1)) = false ↔
      ∃ s t, NonAdjacent coordinates s t ∧ segmentsIntersect s t = true := by
    rw [noneIntersect_eq_false]
    constructor
    · rintro ⟨i, j, s, t, hij, hs, ht, hintersect⟩
      exact ⟨s, t, ⟨i, j, hij, getElem?_zip_drop.1 hs, getElem?_zip_drop.1 ht⟩, hintersect⟩
    · rintro ⟨s, t, ⟨i, j, hij, hs, ht⟩, hintersect⟩
      exact ⟨i, j, s, t, hij, getElem?_zip_drop.2 hs, getElem?_zip_drop.2 ht, hintersect⟩
  rw [isSimpleLine]
  split_ifs with hlength
  · refine iff_of_false (by simp) ?_
    rintro ⟨s, t, ⟨i, j, hij, -, -, hj⟩, -⟩
    obtain ⟨hj, -⟩ := List.getElem?_eq_some_iff.1 hj
    omega
  · exact hlegs

end Legs

/-! ## Sides -/

variable {coordinates : List (Coordinate ℝ)} {s t : Coordinate ℝ × Coordinate ℝ}

/-- **Two legs cross properly**: the ends of each lie strictly on opposite
sides of the line of the other. -/
def CrossProperly (s t : Coordinate ℝ × Coordinate ℝ) : Prop :=
  orientation t.1 t.2 s.1 * orientation t.1 t.2 s.2 < 0 ∧
    orientation s.1 s.2 t.1 * orientation s.1 s.2 t.2 < 0

/-- Of each leg exactly one end is strictly to the left of the other. -/
def OneLeft (s t : Coordinate ℝ × Coordinate ℝ) : Prop :=
  Xor (0 < orientation t.1 t.2 s.1) (0 < orientation t.1 t.2 s.2) ∧
    Xor (0 < orientation s.1 s.2 t.1) (0 < orientation s.1 s.2 t.2)

/-- Of each leg exactly one end is strictly to the right of the other. -/
def OneRight (s t : Coordinate ℝ × Coordinate ℝ) : Prop :=
  Xor (orientation t.1 t.2 s.1 < 0) (orientation t.1 t.2 s.2 < 0) ∧
    Xor (orientation s.1 s.2 t.1 < 0) (orientation s.1 s.2 t.2 < 0)

/-- The test of signs is the exclusive or of being positive. -/
theorem bne_positive {x y : ℝ} :
    (PyFloat.lt PyMath.zero x != PyFloat.lt PyMath.zero y) = true ↔ Xor (0 < x) (0 < y) := by
  rw [bne_iff_ne, ne_eq, Bool.eq_iff_iff, Reals.lt_iff, Reals.lt_iff, Reals.zero_eq,
    xor_iff_not_iff]

/-- **What the test looks at.** -/
theorem segmentsIntersect_iff : segmentsIntersect s t = true ↔ OneLeft s t := by
  rw [segmentsIntersect, Bool.and_eq_true, bne_positive, bne_positive]
  rfl

/-- Of two numbers of opposite signs one is positive and one negative. -/
theorem xor_of_mul_neg {x y : ℝ} (h : x * y < 0) : Xor (0 < x) (0 < y) ∧ Xor (x < 0) (y < 0) := by
  obtain ⟨hx, hy⟩ | ⟨hx, hy⟩ := mul_neg_iff.1 h
  · exact ⟨.inl ⟨hx, hy.not_gt⟩, .inr ⟨hy, hx.not_gt⟩⟩
  · exact ⟨.inr ⟨hy, hx.not_gt⟩, .inl ⟨hx, hy.not_gt⟩⟩

/-- **Legs that cross properly are told apart.** -/
theorem CrossProperly.oneLeft (h : CrossProperly s t) : OneLeft s t :=
  ⟨(xor_of_mul_neg h.1).1, (xor_of_mul_neg h.2).1⟩

/-- Of legs that cross properly one end each is on the right. -/
theorem CrossProperly.oneRight (h : CrossProperly s t) : OneRight s t :=
  ⟨(xor_of_mul_neg h.1).2, (xor_of_mul_neg h.2).2⟩

/-- The reflection in the x axis. -/
def mirror (c : Coordinate ℝ) : Coordinate ℝ := (c.1, -c.2)

/-- A reflection turns an orientation round. -/
theorem orientation_mirror (a b c : Coordinate ℝ) :
    orientation (mirror a) (mirror b) (mirror c) = -orientation a b c := by
  simp only [orientation, mirror, Reals.sub_eq, Reals.mul_eq]
  ring

/-- Swapping two points turns an orientation round. -/
theorem orientation_swap (a b c : Coordinate ℝ) : orientation b a c = -orientation a b c := by
  simp only [orientation, Reals.sub_eq, Reals.mul_eq]
  ring

/-- Reflected, left is right. -/
theorem oneLeft_mirror : OneLeft (s.map mirror mirror) (t.map mirror mirror) ↔ OneRight s t := by
  simp only [OneLeft, OneRight, Prod.map_fst, Prod.map_snd, orientation_mirror, neg_pos]

/-- Against the direction of the legs, left is right. -/
theorem oneLeft_swap : OneLeft t.swap s.swap ↔ OneRight s t := by
  simp only [OneLeft, OneRight, Prod.fst_swap, Prod.snd_swap, orientation_swap s.1 s.2,
    orientation_swap t.1 t.2, neg_pos]
  rw [and_comm, xor_comm, xor_comm (orientation s.1 s.2 t.2 < 0)]

/-! ## The answer -/

/-- Some pair is told apart to the left. -/
theorem isSimpleLine_iff_left :
    isSimpleLine coordinates = false ↔ ∃ s t, NonAdjacent coordinates s t ∧ OneLeft s t := by
  simp only [isSimpleLine_eq_false, segmentsIntersect_iff]

/-- **Reversed, the answer is that of the right.** -/
theorem isSimpleLine_reverse : isSimpleLine coordinates.reverse = false ↔
    ∃ s t, NonAdjacent coordinates s t ∧ OneRight s t := by
  rw [isSimpleLine_iff_left]
  constructor
  · rintro ⟨s, t, hpair, hleft⟩
    exact ⟨t.swap, s.swap, hpair.reverse, oneLeft_swap.1 hleft⟩
  · rintro ⟨s, t, hpair, hright⟩
    rw [← coordinates.reverse_reverse] at hpair
    exact ⟨t.swap, s.swap, hpair.reverse, oneLeft_swap.2 hright⟩

/-- **Reflected, the answer is that of the right.** -/
theorem isSimpleLine_mirror : isSimpleLine (coordinates.map mirror) = false ↔
    ∃ s t, NonAdjacent coordinates s t ∧ OneRight s t := by
  have hmirror : mirror ∘ mirror = id := funext fun c => by simp [mirror]
  rw [isSimpleLine_iff_left]
  constructor
  · rintro ⟨s, t, hpair, hleft⟩
    have hpair := hpair.map (f := mirror)
    rw [List.map_map, hmirror, List.map_id] at hpair
    refine ⟨_, _, hpair, oneLeft_mirror.1 ?_⟩
    rwa [Prod.map_map, Prod.map_map, hmirror, Prod.map_id, id_eq, id_eq]
  · rintro ⟨s, t, hpair, hright⟩
    exact ⟨_, _, hpair.map, oneLeft_mirror.2 hright⟩

/-- Two legs of a track that are not adjacent cross properly. -/
def CrossesItself (coordinates : List (Coordinate ℝ)) : Prop :=
  ∃ s t, NonAdjacent coordinates s t ∧ CrossProperly s t

/-- **The answer is exact**: it tells the tracks that cross themselves, and
is the same for the track reversed and reflected. -/
def Exact (coordinates : List (Coordinate ℝ)) : Prop :=
  (isSimpleLine coordinates = false ↔ CrossesItself coordinates) ∧
    isSimpleLine coordinates.reverse = isSimpleLine coordinates ∧
    isSimpleLine (coordinates.map mirror) = isSimpleLine coordinates

/-- A track taken to be simple does not cross itself. -/
theorem not_crossesItself (h : isSimpleLine coordinates = true) : ¬CrossesItself coordinates := by
  rintro ⟨s, t, hpair, hcross⟩
  rw [isSimpleLine_iff_left.2 ⟨s, t, hpair, hcross.oneLeft⟩] at h
  cases h

/-- **When the answer is exact**: where the track crosses itself, or no two
legs that are not adjacent are told apart, neither to the left nor to the
right. -/
theorem exact_iff : Exact coordinates ↔ CrossesItself coordinates ∨
    ∀ s t, NonAdjacent coordinates s t → ¬OneLeft s t ∧ ¬OneRight s t := by
  have hleft : CrossesItself coordinates → ∃ s t, NonAdjacent coordinates s t ∧ OneLeft s t :=
    fun ⟨s, t, hpair, hcross⟩ => ⟨s, t, hpair, hcross.oneLeft⟩
  have hright : CrossesItself coordinates → ∃ s t, NonAdjacent coordinates s t ∧ OneRight s t :=
    fun ⟨s, t, hpair, hcross⟩ => ⟨s, t, hpair, hcross.oneRight⟩
  -- the answer for another line is about the points on the right
  have hanswer : ∀ other : List (Coordinate ℝ), (isSimpleLine other = false ↔
        ∃ s t, NonAdjacent coordinates s t ∧ OneRight s t) →
      (isSimpleLine other = isSimpleLine coordinates ↔
        ((∃ s t, NonAdjacent coordinates s t ∧ OneRight s t) ↔
          ∃ s t, NonAdjacent coordinates s t ∧ OneLeft s t)) := by
    intro other hother
    rw [← Bool.not_inj_iff, Bool.eq_iff_iff, Bool.not_eq_true', Bool.not_eq_true', hother,
      isSimpleLine_iff_left]
  rw [Exact, hanswer _ isSimpleLine_reverse, hanswer _ isSimpleLine_mirror, isSimpleLine_iff_left,
    and_self]
  constructor
  · rintro ⟨hexact, hsides⟩
    refine or_iff_not_imp_left.2 fun hnone s t hpair => ⟨fun h => ?_, fun h => ?_⟩
    · exact hnone (hexact.1 ⟨s, t, hpair, h⟩)
    · exact hnone (hexact.1 (hsides.1 ⟨s, t, hpair, h⟩))
  · rintro (hcross | hnone)
    · exact ⟨iff_of_true (hleft hcross) hcross, iff_of_true (hright hcross) (hleft hcross)⟩
    · have hnoleft : ¬∃ s t, NonAdjacent coordinates s t ∧ OneLeft s t :=
        fun ⟨s, t, hpair, h⟩ => (hnone s t hpair).1 h
      have hnoright : ¬∃ s t, NonAdjacent coordinates s t ∧ OneRight s t :=
        fun ⟨s, t, hpair, h⟩ => (hnone s t hpair).2 h
      exact ⟨iff_of_false hnoleft (mt hleft hnoleft), iff_of_false hnoright hnoleft⟩

/-! ### A track that ends on itself -/

/-- Out, around, and back onto the first leg from above. -/
def touching : List (Coordinate ℝ) := [(0, 0), (2, 0), (1, 1), (1, 0)]

/-- The two legs apart of the sample track. -/
theorem nonAdjacent_touching (h : NonAdjacent touching s t) :
    s = ((0, 0), (2, 0)) ∧ t = ((1, 1), (1, 0)) := by
  obtain ⟨a, b⟩ := s
  obtain ⟨c, d⟩ := t
  obtain ⟨i, j, hij, ⟨hs₁, hs₂⟩, ht₁, ht₂⟩ := h
  have hj : j + 1 < touching.length := (List.getElem?_eq_some_iff.1 ht₂).1
  have hlength : touching.length = 4 := rfl
  obtain rfl : j = 2 := by omega
  obtain rfl : i = 0 := by omega
  cases hs₁
  cases hs₂
  cases ht₁
  cases ht₂
  exact ⟨rfl, rfl⟩

/-- A touch is taken for a crossing, and not from the other end. -/
theorem not_exact_touching : ¬Exact touching ∧ isSimpleLine touching = false ∧
    ¬CrossesItself touching ∧ isSimpleLine touching.reverse = true := by
  have hleft : OneLeft ((0, 0), (2, 0)) ((1, 1), (1, 0)) := by
    norm_num [OneLeft, orientation, Xor]
  have hright : ¬OneRight ((0, 0), (2, 0)) ((1, 1), (1, 0)) := by
    norm_num [OneRight, orientation, Xor]
  have hanswer : isSimpleLine touching = false :=
    isSimpleLine_iff_left.2 ⟨_, _, ⟨0, 2, le_rfl, ⟨rfl, rfl⟩, rfl, rfl⟩, hleft⟩
  have hnone : ¬∃ s t, NonAdjacent touching s t ∧ OneRight s t := by
    rintro ⟨s, t, hpair, h⟩
    obtain ⟨rfl, rfl⟩ := nonAdjacent_touching hpair
    exact hright h
  have hcross : ¬CrossesItself touching := fun ⟨s, t, hpair, h⟩ => hnone ⟨s, t, hpair, h.oneRight⟩
  have hreverse : isSimpleLine touching.reverse = true := by
    rw [← Bool.not_eq_false, isSimpleLine_reverse]
    exact hnone
  exact ⟨fun h => hcross (h.1.1 hanswer), hanswer, hcross, hreverse⟩

end Vessel

end Lakehouse

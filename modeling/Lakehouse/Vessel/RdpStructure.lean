import Lakehouse.Common.Reals
import Lakehouse.Vessel.KeptPositions
/-!
# What a simplification is as a sequence

`rdp_simplify` is the simplification of what stands between its ends
(`rdpSimplify_eq_ok`), so that the positions kept hold both ends,
simplifying again keeps the sequence, and a larger tolerance keeps no
other position (`rdpSimplify_structure`).
-/

namespace Lakehouse

namespace Vessel

open OrderedFloat

variable {F : Type} [PyFloat F] [PyMath F]
variable {coordinates : List (Coordinate F)} {c a b : Coordinate F} {t t' : F}
variable {l : List (Coordinate F)} {positions : List ℕ}

omit [PyFloat F] [PyMath F] in
theorem coordinatesAt_eq (c : Coordinate F) (h : ∀ i ∈ positions, i < coordinates.length) :
    coordinatesAt coordinates positions = positions.map (place coordinates c) := by
  rw [coordinatesAt, ← List.filterMap_eq_map]
  refine List.filterMap_congr fun i hi => ?_
  rw [List.getElem?_eq_getElem (h i hi), Function.comp_apply, place_eq (h i hi)]

omit [PyFloat F] [PyMath F] in
theorem map_place_range (coordinates : List (Coordinate F)) (c : Coordinate F) :
    (List.range coordinates.length).map (place coordinates c) = coordinates := by
  refine List.ext_getElem (by simp) fun i _ hi => ?_
  rw [List.getElem_map, List.getElem_range, place_eq hi]

/-- All positions are the ends and those between them. -/
theorem range_eq_between {n : ℕ} (h : 2 < n) : List.range n = 0 :: (between 0 (n - 1) ++ [n - 1]) := by
  have hm : n = n - 2 + 1 + 1 := by omega
  rw [hm, List.range_succ, List.range_eq_range', List.range'_succ]
  rfl

/-- **The coordinates kept are those at the positions kept.** -/
theorem rdpSimplify_eq_map (coordinates : List (Coordinate F)) (tolerance : F) :
    rdpSimplify coordinates tolerance =
      (keptPositions coordinates tolerance).map (coordinatesAt coordinates) := by
  have hrange : ∀ positions : List ℕ, positions.Sublist (List.range coordinates.length) →
      coordinatesAt coordinates positions =
        positions.map (place coordinates (PyMath.zero, PyMath.zero)) :=
    fun positions hsub => coordinatesAt_eq _ fun i hi => List.mem_range.1 (hsub.subset hi)
  rw [rdpSimplify, keptPositions, rdpSimplifyItems, rdpSimplifyItems]
  split_ifs
  · rfl
  · rw [Except.map, hrange _ (.refl _), map_place_range]
  · simp only
    generalize rdpLoop coordinates tolerance _ _ _ = loop
    cases loop with
    | error e => rfl
    | ok keep =>
      rw [ok_bind, ok_bind, pure_eq_ok, pure_eq_ok, Except.map, hrange _ (kept_sublist _ keep),
        ← kept_map, map_place_range]

variable [OrderedFloat F] [SquareRoots F]

omit [PyFloat F] [PyMath F] [OrderedFloat F] [SquareRoots F] in
/-- What stands between the ends of a sequence. -/
theorem map_place_between (a b c : Coordinate F) (l : List (Coordinate F)) :
    (between 0 (l.length + 1)).map (place (a :: (l ++ [b])) c) = l := by
  refine List.ext_getElem (by simp [between]) fun i hi hl => ?_
  have hplace : i + 1 < (a :: (l ++ [b])).length := by
    simp only [List.length_cons, List.length_append, List.length_nil]
    omega
  simp only [between, List.getElem_map, List.getElem_range', Nat.zero_add, one_mul, Nat.add_comm 1 i]
  rw [place_eq hplace, List.getElem_cons_succ, List.getElem_append_left hl]

/-- **RDP simplifies what stands between the ends.** -/
theorem rdpSimplify_eq_ok (ht : Tolerable t) (a b : Coordinate F) (l : List (Coordinate F)) :
    ∃ r, Simplified chordDistance (number t) a l b r ∧
      rdpSimplify (a :: (l ++ [b])) t = .ok (a :: (r ++ [b])) := by
  have hlength : (a :: (l ++ [b])).length - 1 = l.length + 1 := by
    simp only [List.length_cons, List.length_append, List.length_nil]
    omega
  have hfirst : place (a :: (l ++ [b])) a 0 = a := rfl
  have hlast : place (a :: (l ++ [b])) a (l.length + 1) = b := by
    rw [place_eq (by simp), List.getElem_cons_succ, List.getElem_concat_length rfl]
  by_cases hl : l = []
  · subst hl
    refine ⟨[], .stop nofun, ?_⟩
    rw [rdpSimplify, rdpSimplifyItems, if_neg (by simp [ht.1, ht.2])]
    rfl
  · have hn : 2 < (a :: (l ++ [b])).length := by
      have hpos := List.length_pos_of_ne_nil hl
      simp only [List.length_cons, List.length_append, List.length_nil]
      omega
    obtain ⟨r, hr, hpositions⟩ := keptPositions_eq ht hn a
    rw [hlength] at hr hpositions
    refine ⟨r.map (place (a :: (l ++ [b])) a), ?_, ?_⟩
    · have hmap := hr.map (f := place (a :: (l ++ [b])) a) fun _ _ _ => rfl
      rwa [hfirst, hlast, map_place_between] at hmap
    · rw [rdpSimplify_eq_map, hpositions, Except.map, coordinatesAt_eq a, List.map_cons,
        List.map_append, List.map_singleton, hfirst, hlast]
      intro i hi
      simp only [List.mem_cons, List.mem_append, List.not_mem_nil, or_false] at hi
      simp only [List.length_cons, List.length_append, List.length_nil]
      obtain rfl | hi | rfl := hi
      · omega
      · have hi := mem_between.1 (hr.sublist.subset hi)
        omega
      · omega

/-- **A sequence simplified stays as it is**: what was kept between the ends
is simplified as it was. -/
theorem rdpSimplify_idem {simplified : List (Coordinate F)} (ht : Tolerable t)
    (h : rdpSimplify coordinates t = .ok simplified) :
    rdpSimplify simplified t = .ok simplified := by
  have hshort : ∀ coordinates : List (Coordinate F), coordinates.length ≤ 2 →
      rdpSimplify coordinates t = .ok coordinates := by
    intro coordinates hn
    rw [rdpSimplify, rdpSimplifyItems, if_neg (by simp [ht.1, ht.2]), if_pos hn]
  cases coordinates with
  | nil =>
    rw [hshort [] (by simp)] at h
    cases h
    exact hshort [] (by simp)
  | cons a rest =>
    obtain rfl | ⟨l, b, rfl⟩ := rest.eq_nil_or_concat
    · rw [hshort [a] (by simp)] at h
      cases h
      exact hshort [a] (by simp)
    · rw [List.concat_eq_append] at h
      obtain ⟨r, hr, heq⟩ := rdpSimplify_eq_ok ht a b l
      rw [heq] at h
      cases h
      obtain ⟨r', hr', heq'⟩ := rdpSimplify_eq_ok ht a b r
      rw [heq', hr'.unique hr.idem]

/-- **A larger tolerance keeps no other position.** -/
theorem keptPositions_mono (ht : Tolerable t) (ht' : Tolerable t') (h : PyFloat.le t t' = true)
    {positions' : List ℕ} (hpositions : keptPositions coordinates t = .ok positions)
    (hpositions' : keptPositions coordinates t' = .ok positions') :
    positions'.Sublist positions := by
  by_cases hn : coordinates.length ≤ 2
  · rw [keptPositions, rdpSimplifyItems, if_neg (by simp [ht.1, ht.2]), if_pos hn] at hpositions
    rw [keptPositions, rdpSimplifyItems, if_neg (by simp [ht'.1, ht'.2]), if_pos hn] at hpositions'
    cases hpositions
    cases hpositions'
    exact .refl _
  · obtain ⟨r, hr, heq⟩ := keptPositions_eq ht (not_le.1 hn) (PyMath.zero, PyMath.zero)
    obtain ⟨r', hr', heq'⟩ := keptPositions_eq ht' (not_le.1 hn) (PyMath.zero, PyMath.zero)
    rw [heq] at hpositions
    rw [heq'] at hpositions'
    cases hpositions
    cases hpositions'
    have hsub : r'.Sublist r := hr'.mono (le_iff.1 h).2 hr
    exact (hsub.append (.refl _)).cons_cons 0

/-- **The positions kept are in order, and hold both ends.** -/
theorem keptPositions_ends (ht : Tolerable t) (coordinates : List (Coordinate F)) :
    ∃ positions, keptPositions coordinates t = .ok positions ∧
      positions.Sublist (List.range coordinates.length) ∧
      (coordinates ≠ [] → positions.head? = some 0 ∧
        positions.getLast? = some (coordinates.length - 1)) := by
  by_cases hn : coordinates.length ≤ 2
  · refine ⟨List.range coordinates.length, ?_, .refl _, fun hne => ?_⟩
    · rw [keptPositions, rdpSimplifyItems, if_neg (by simp [ht.1, ht.2]), if_pos hn]
    · rw [List.head?_range, List.getLast?_range, if_neg (by simpa using hne),
        if_neg (by simpa using hne)]
      exact ⟨rfl, rfl⟩
  · obtain ⟨r, hr, heq⟩ := keptPositions_eq ht (not_le.1 hn) (PyMath.zero, PyMath.zero)
    refine ⟨_, heq, ?_, fun _ => ⟨rfl, ?_⟩⟩
    · rw [range_eq_between (not_le.1 hn)]
      exact (hr.sublist.append (.refl _)).cons_cons 0
    · rw [List.getLast?_cons, List.getLast?_append]
      simp

/-- **RDP returns** a part of the sequence. -/
theorem exists_rdpSimplify (ht : Tolerable t) (coordinates : List (Coordinate F)) :
    ∃ line, rdpSimplify coordinates t = .ok line ∧ line.Sublist coordinates := by
  obtain ⟨positions, hpositions, hsub, -⟩ := keptPositions_ends ht coordinates
  refine ⟨coordinatesAt coordinates positions, by rw [rdpSimplify_eq_map, hpositions]; rfl, ?_⟩
  have hmap := hsub.map (place coordinates (PyMath.zero, PyMath.zero))
  rwa [map_place_range, ← coordinatesAt_eq _ fun i hi => List.mem_range.1 (hsub.subset hi)] at hmap

/-- **The structure of a simplification.** The loop ends; what it keeps is a
part of the sequence with both ends; simplifying again changes nothing; a
larger tolerance keeps no other position. -/
theorem rdpSimplify_structure (ht : Tolerable t) (coordinates : List (Coordinate F)) :
    ∃ positions, keptPositions coordinates t = .ok positions ∧
      rdpSimplify coordinates t = .ok (coordinatesAt coordinates positions) ∧
      positions.Sublist (List.range coordinates.length) ∧
      (coordinates ≠ [] → positions.head? = some 0 ∧
        positions.getLast? = some (coordinates.length - 1)) ∧
      rdpSimplify (coordinatesAt coordinates positions) t =
        .ok (coordinatesAt coordinates positions) ∧
      ∀ t', Tolerable t' → PyFloat.le t t' = true → ∃ positions',
        keptPositions coordinates t' = .ok positions' ∧ positions' ⊆ positions := by
  obtain ⟨positions, hpositions, hsub, hends⟩ := keptPositions_ends ht coordinates
  have hsimplified : rdpSimplify coordinates t = .ok (coordinatesAt coordinates positions) := by
    rw [rdpSimplify_eq_map, hpositions]
    rfl
  refine ⟨positions, hpositions, hsimplified, hsub, hends, rdpSimplify_idem ht hsimplified, ?_⟩
  intro t' ht' hle
  obtain ⟨positions', hpositions', -⟩ := keptPositions_ends ht' coordinates
  exact ⟨positions', hpositions', (keptPositions_mono ht ht' hle hpositions hpositions').subset⟩

/-- Over exact arithmetic the tolerances are the positive numbers. -/
theorem tolerable_iff {t : ℝ} : Tolerable t ↔ 0 < t := by
  rw [Tolerable, ← Bool.not_eq_true, Reals.le_iff, Reals.zero_eq, not_le]
  exact and_iff_left Reals.isFinite_eq

/-- A track with a peak of one degree. -/
def peak : List (Coordinate Decimal) :=
  [(0, 0), (1, 1), (2, 0)].map fun c => (PyFloat.ofInt c.1, PyFloat.ofInt c.2)

def half : Decimal := PyFloat.div (PyFloat.ofInt 1) (PyFloat.ofInt 2)

/-- The coordinate between the ends is kept at half a degree, and not at
two. -/
theorem rdpSimplify_structure_peak :
    ∃ positions, keptPositions peak half = .ok positions ∧
      rdpSimplify peak half = .ok (coordinatesAt peak positions) ∧
      rdpSimplify (coordinatesAt peak positions) half = .ok (coordinatesAt peak positions) ∧
      ∃ positions', keptPositions peak (PyFloat.ofInt 2) = .ok positions' ∧
        positions' ⊆ positions := by
  obtain ⟨positions, hpositions, hsimplified, -, -, hidem, hmono⟩ :=
    rdpSimplify_structure (t := half) ⟨by decide +kernel, by decide +kernel⟩ peak
  exact ⟨positions, hpositions, hsimplified, hidem,
    hmono (PyFloat.ofInt 2) ⟨by decide +kernel, by decide +kernel⟩ (by decide +kernel)⟩

end Vessel

end Lakehouse

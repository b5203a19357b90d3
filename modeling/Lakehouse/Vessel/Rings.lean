import Lakehouse.Common.Cycles
import Lakehouse.Common.Reals
import Lakehouse.Vessel.Geofence
import Mathlib.Data.Nat.Bits
import Mathlib.Tactic.FieldSimp
import Mathlib.Tactic.Ring
/-!
# Containment is of the ring, not of its listing

Over exact arithmetic the scan of a ring reads its edges in any order and
direction (`ringContainsFrom_eq`): an edge holds the position, or the
number of edges that cross its ray to the right is odd. Both tests are of
an edge whichever end it starts from.
-/

namespace Lakehouse

namespace Vessel

/-! ## Answers -/

section Answers

variable {α : Type} {f : α → Except PyError Bool} {as as' as'' : List α}

/-- Two items of one answer. -/
def SameAnswer (f : α → Except PyError Bool) (a a' : α) : Prop :=
  ∃ b, f a = .ok b ∧ f a' = .ok b

/-- The first of two with the same answer has one. -/
theorem SameAnswer.left {a a' : α} (h : SameAnswer f a a') : ∃ b, f a = .ok b := by
  obtain ⟨b, hb, -⟩ := h
  exact ⟨b, hb⟩

/-- Where every answer is there, `any` is of the answers. -/
theorem anyM_eq (h : ∀ a ∈ as, ∃ b, f a = .ok b) :
    anyM f as = .ok (as.any fun a => (f a).toOption.getD false) := by
  induction as with
  | nil => rfl
  | cons a as ih =>
    obtain ⟨b, hb⟩ := h a List.mem_cons_self
    rw [anyM, hb, ok_bind, List.any_cons, hb]
    cases b with
    | true => rfl
    | false => exact ih fun c hc => h c (List.mem_cons_of_mem a hc)

/-- Lists answered alike have one answer to `any`. -/
theorem anyM_congr (h : List.Forall₂ (SameAnswer f) as as') :
    ∃ b, anyM f as = .ok b ∧ anyM f as' = .ok b := by
  induction h with
  | nil => exact ⟨false, rfl, rfl⟩
  | @cons a a' as as' ha _ ih =>
    obtain ⟨b, hb, hb'⟩ := ha
    rw [anyM, anyM, hb, hb', ok_bind, ok_bind]
    cases b with
    | true => exact ⟨true, rfl, rfl⟩
    | false => exact ih

/-- In another order too. -/
theorem anyM_perm (h : ∀ a ∈ as, ∃ b, f a = .ok b) (hperm : as.Perm as') :
    anyM f as = anyM f as' := by
  rw [anyM_eq h, anyM_eq fun a ha => h a (hperm.mem_iff.2 ha), hperm.any_eq]

/-- The second list has its answers. -/
theorem exists_of_sameAnswer (h : List.Forall₂ (SameAnswer f) as as') :
    ∀ a' ∈ as', ∃ b, f a' = .ok b := by
  intro a' ha'
  obtain ⟨a, -, b, -, hb⟩ := exists_of_forall₂ h ha'
  exact ⟨b, hb⟩

end Answers

/-! ## Lines -/

section Lines

variable {F : Type} [Field F] [LinearOrder F]

/-- The distance from an edge does not depend on its direction. -/
theorem cross_swap (x y x1 y1 x2 y2 : F) :
    |(y - y2) * (x1 - x2) - (x - x2) * (y1 - y2)| =
      |(y - y1) * (x2 - x1) - (x - x1) * (y2 - y1)| := by
  rw [← abs_neg]
  congr 1
  ring

omit [LinearOrder F] in
/-- The two ends of an edge draw the same line. -/
theorem line_swap {y1 y2 : F} (h : y1 ≠ y2) (y x1 x2 : F) :
    (x1 - x2) * (y - y2) / (y1 - y2) + x2 = (x2 - x1) * (y - y1) / (y2 - y1) + x1 := by
  have h12 : y1 - y2 ≠ 0 := sub_ne_zero.2 h
  have h21 : y2 - y1 ≠ 0 := sub_ne_zero.2 h.symm
  field_simp
  ring

omit [Field F] in
/-- Points on different sides of a line differ. -/
theorem ne_of_sides {y y1 y2 : F} (h : (y < y1) ≠ (y < y2)) : y1 ≠ y2 := by
  rintro rfl
  exact h rfl

end Lines

variable {F : Type} [PyFloat F] [PyMath F] [Field F] [LinearOrder F] [ExactField F]
variable {position : Position F}

/-! ## Edges -/

section Edges

variable (position : Position F)

/-- `_point_on_segment` of an edge. -/
def onEdge (e : (F × F) × (F × F)) : Bool :=
  pointOnSegment position.longitude position.latitude e.1.1 e.1.2 e.2.1 e.2.2

/-- An edge crosses the ray of a position to the right of it. -/
def crossesRight (e : (F × F) × (F × F)) : Bool :=
  decide ((position.latitude < e.1.2) ≠ (position.latitude < e.2.2)) &&
    decide (position.longitude <
      (e.2.1 - e.1.1) * (position.latitude - e.1.2) / (e.2.2 - e.1.2) + e.1.1)

/-- What the scan finds of the edges of a ring. -/
def isInside (es : List ((F × F) × (F × F))) : Bool :=
  es.any (onEdge position) || (es.countP (crossesRight position)).bodd

end Edges

/-- A position lies on an edge whatever its direction. -/
theorem onEdge_swap (e : (F × F) × (F × F)) : onEdge position e.swap = onEdge position e := by
  simp only [onEdge, pointOnSegment, Prod.fst_swap, Prod.snd_swap, ExactField.sub_eq,
    ExactField.mul_eq, ExactField.abs_eq, ExactField.min_comm, ExactField.max_comm]
  rw [cross_swap]

omit [PyFloat F] [PyMath F] [ExactField F] in
/-- An edge crosses the ray to the right of a position where its ends lie on
both sides and the crossing lies beyond. -/
theorem crossesRight_iff {x1 y1 x2 y2 : F} :
    crossesRight position ((x1, y1), (x2, y2)) = true ↔
      (position.latitude < y1) ≠ (position.latitude < y2) ∧
        position.longitude < (x2 - x1) * (position.latitude - y1) / (y2 - y1) + x1 := by
  rw [crossesRight, Bool.and_eq_true, decide_eq_true_eq, decide_eq_true_eq]

omit [PyFloat F] [PyMath F] [ExactField F] in
/-- An edge crosses the ray whatever its direction. -/
theorem crossesRight_swap (e : (F × F) × (F × F)) :
    crossesRight position e.swap = crossesRight position e := by
  obtain ⟨⟨x1, y1⟩, ⟨x2, y2⟩⟩ := e
  rw [Bool.eq_iff_iff, Prod.swap_prod_mk, crossesRight_iff, crossesRight_iff, ne_comm]
  refine and_congr_right fun h => ?_
  rw [line_swap (ne_of_sides h)]

omit [PyMath F] [ExactField F] in
/-- The order of the edges does not matter. -/
theorem isInside_perm {es es' : List ((F × F) × (F × F))} (h : es.Perm es') :
    isInside position es = isInside position es' := by
  rw [isInside, isInside, h.countP_eq, h.any_eq]

/-- The direction of the edges does not matter. -/
theorem isInside_map_swap (es : List ((F × F) × (F × F))) :
    isInside position (es.map Prod.swap) = isInside position es := by
  have hon : onEdge position ∘ Prod.swap = onEdge position := funext onEdge_swap
  have hcross : crossesRight position ∘ Prod.swap = crossesRight position :=
    funext crossesRight_swap
  rw [isInside, isInside, List.any_map, List.countP_map, hon, hcross]

/-- **What is found of a cycle does not depend on its listing.** -/
theorem isInside_relisted {vs vs' : List (F × F)} (h : Relisted vs vs') (hvs : Closed vs) :
    isInside position (edges vs') = isInside position (edges vs) := by
  rcases h.edges_cases hvs with hperm | hperm
  · exact isInside_perm hperm
  · rw [isInside_perm hperm, isInside_map_swap]

/-! ## The scan -/

/-- The division is by the height of an edge that has one. -/
theorem crossEdge_eq (x1 y1 x2 y2 : F) (inside : Bool) :
    crossEdge position.longitude position.latitude x1 y1 x2 y2 inside =
      .ok (inside ^^ crossesRight position ((x1, y1), (x2, y2))) := by
  have hsides : (PyFloat.lt position.latitude y1 != PyFloat.lt position.latitude y2) = true ↔
      (position.latitude < y1) ≠ (position.latitude < y2) := by
    rw [bne_iff_ne, ne_eq, ne_eq, Bool.eq_iff_iff, ExactField.lt_iff, ExactField.lt_iff, eq_iff_iff]
  rw [crossEdge]
  split_ifs with hcross
  · have hside := hsides.1 hcross
    have hheight : y2 - y1 ≠ 0 := sub_ne_zero.2 (ne_of_sides hside).symm
    simp only [ExactField.sub_eq, ExactField.mul_eq, ExactField.add_eq,
      ExactField.divide_eq hheight, ok_bind, pure_eq_ok, ExactField.lt_iff]
    split_ifs with hright
    · rw [crossesRight_iff.2 ⟨hside, hright⟩, Bool.xor_true]
    · rw [Bool.eq_false_iff.2 fun h => hright (crossesRight_iff.1 h).2, Bool.xor_false]
  · rw [Bool.eq_false_iff.2 fun h => hcross (hsides.2 (crossesRight_iff.1 h).1), Bool.xor_false]

/-- One edge of a ring more. -/
theorem ringContainsFrom_cons_cons {a b : Doc F} {v w : F × F} (ha : vertex a = .ok v)
    (hb : vertex b = .ok w) (ring : List (Doc F)) (inside : Bool) :
    ringContainsFrom position (a :: b :: ring) inside =
      if onEdge position (v, w) then .ok true
      else ringContainsFrom position (b :: ring) (inside ^^ crossesRight position (v, w)) := by
  obtain ⟨x1, y1⟩ := v
  obtain ⟨x2, y2⟩ := w
  rw [ringContainsFrom, ha, ok_bind]
  simp only [hb, ok_bind, crossEdge_eq]
  rfl

/-- **The scan**, of a ring whose positions are numbers. -/
theorem ringContainsFrom_eq {ring : List (Doc F)} {vs : List (F × F)}
    (h : List.Forall₂ (fun c v => vertex c = .ok v) ring vs) (inside : Bool) :
    ringContainsFrom position ring inside =
      .ok ((edges vs).any (onEdge position) ||
        (inside ^^ ((edges vs).countP (crossesRight position)).bodd)) := by
  induction h generalizing inside with
  | nil => simp [ringContainsFrom, edges]
  | @cons a v ring vs ha hring ih =>
    cases hring with
    | nil => simp [ringContainsFrom, edges]
    | @cons b w ring vs hb hring =>
      rw [edges_cons_cons, List.any_cons, List.countP_cons, ringContainsFrom_cons_cons ha hb,
        Nat.bodd_add]
      cases hon : onEdge position (v, w) with
      | true => rfl
      | false =>
        rw [if_neg Bool.false_ne_true, ih, Bool.false_or]
        cases crossesRight position (v, w) with
        | false => simp
        | true => cases inside <;> simp

/-! ## Rings -/

/-- The number of an `int` or a `float`. -/
def number : PyNum F → F
  | .int n => n
  | .float x => x

omit [LinearOrder F] [PyFloat F] [PyMath F] [ExactField F] in
/-- The number of an integer is itself. -/
theorem number_int (n : ℤ) : number (.int n : PyNum F) = n := rfl

/-- Numbers that Python compares equal are one. -/
theorem number_congr {m n : PyNum F} (h : sameNumber m n = true) : number m = number n := by
  cases m with
  | int m =>
    cases n with
    | int n => exact congrArg (Int.cast : ℤ → F) (beq_iff_eq.1 h)
    | float x => exact ExactField.eqInt_iff.1 h
  | float x =>
    cases n with
    | int n => exact (ExactField.eqInt_iff.1 h).symm
    | float y => exact ExactField.eq_iff.1 h

/-- What `float` reads is a text or a number. -/
theorem floatOfDoc_cases {a : Doc F} {x : F} (h : floatOfDoc a = .ok x) :
    (∃ t, a = .str t) ∨ ∃ n, numberOf a = some n ∧ number n = x := by
  cases a with
  | null => cases h
  | str t => exact .inl ⟨t, rfl⟩
  | bool b =>
    refine .inr ⟨.int (if b then 1 else 0), rfl, ?_⟩
    rw [number_int, ← ExactField.ofInt_eq]
    exact Except.ok.inj h
  | num n =>
    refine .inr ⟨n, rfl, ?_⟩
    cases n with
    | int n =>
      change PyObject.floatOfInt n = .ok x at h
      rw [PyObject.floatOfInt, if_pos (ExactField.isFinite_eq _)] at h
      rw [number_int, ← ExactField.ofInt_eq]
      exact Except.ok.inj h
    | float y => exact Except.ok.inj h
  | arr items => cases h
  | obj members => cases h

omit [Field F] [LinearOrder F] [ExactField F] in
/-- A text or a number is equal to its like. -/
theorem sameValue_cases {a b : Doc F} (h : sameValue a b = true) :
    (∀ m n, numberOf a = some m → numberOf b = some n → sameNumber m n = true) ∧
      ∀ t, a = .str t ↔ b = .str t := by
  cases a with
  | null | str _ | bool _ | num _ | arr _ | obj _ =>
    cases b with
    | null | str _ | bool _ | num _ | arr _ | obj _ =>
      simp_all [sameValue, numberOf]

/-- Equal values are read as one float. -/
theorem floatOfDoc_congr {a b : Doc F} (h : sameValue a b = true) {x y : F}
    (hx : floatOfDoc a = .ok x) (hy : floatOfDoc b = .ok y) : x = y := by
  obtain ⟨hnumber, htext⟩ := sameValue_cases h
  rcases floatOfDoc_cases hx with ⟨t, ha⟩ | ⟨m, hm, rfl⟩
  · rw [ha] at hx
    rw [(htext t).1 ha] at hy
    exact Except.ok.inj (hx.symm.trans hy)
  · rcases floatOfDoc_cases hy with ⟨t, hb⟩ | ⟨n, hn, rfl⟩
    · rw [(htext t).2 hb] at hm
      cases hm
    · exact number_congr (hnumber m n hm hn)

/-- Where a position is, as far as it is one. -/
def vertexAt (c : Doc F) : F × F :=
  match vertex c with
  | .ok v => v
  | .error _ => (0, 0)

omit [LinearOrder F] [ExactField F] in
/-- The place of a vertex that is read. -/
theorem vertexAt_of {c : Doc F} {v : F × F} (h : vertex c = .ok v) : vertexAt c = v := by
  rw [vertexAt, h]

/-- Coordinates that Python compares equal are one place. -/
theorem vertexAt_congr {a b : Doc F} (ha : validateCoordinate a = .ok ())
    (hb : validateCoordinate b = .ok ()) (h : sameValue a b = true) : vertexAt a = vertexAt b := by
  obtain ⟨lon, lat, x, y, rfl, hx, hy, -⟩ := validateCoordinate_cases ha
  obtain ⟨lon', lat', x', y', rfl, hx', hy', -⟩ := validateCoordinate_cases hb
  simp only [sameValue, sameItems, Bool.and_true, Bool.and_eq_true] at h
  rw [vertexAt_of (vertex_pair hx hy), vertexAt_of (vertex_pair hx' hy'),
    floatOfDoc_congr h.1 hx hx', floatOfDoc_congr h.2 hy hy']

/-- A validated ring closes where its vertices do. -/
theorem closed_vertices {items : List (Doc F)} (hlength : 4 ≤ items.length)
    (hclosed : isOpen items = false) (hitems : ∀ c ∈ items, validateCoordinate c = .ok ()) :
    Closed (items.map vertexAt) := by
  refine ⟨by rw [List.length_map]; omega, ?_⟩
  rw [List.head?_map, List.getLast?_map]
  unfold isOpen at hclosed
  cases hhead : items.head? with
  | none => rw [List.head?_eq_none_iff] at hhead; simp [hhead] at hlength
  | some a =>
    cases hlast : items.getLast? with
    | none => rw [List.getLast?_eq_none_iff] at hlast; simp [hlast] at hlength
    | some b =>
      rw [hhead, hlast, Bool.not_eq_false'] at hclosed
      exact congrArg some (vertexAt_congr (hitems a (List.mem_of_mem_head? hhead))
        (hitems b (List.mem_of_getLast? hlast)) hclosed)

/-- A ring of positions is scanned as its vertices. -/
theorem ringContains_eq {items : List (Doc F)}
    (hitems : ∀ c ∈ items, validateCoordinate c = .ok ()) :
    ringContains (.arr items) position = .ok (isInside position (edges (items.map vertexAt))) := by
  have hvertices : List.Forall₂ (fun c v => vertex c = .ok v) items (items.map vertexAt) := by
    rw [List.forall₂_map_right_iff, List.forall₂_same]
    intro c hc
    obtain ⟨x, y, hv, -⟩ := validateCoordinate_eq_ok (hitems c hc)
    rw [hv, vertexAt_of hv]
  rw [ringContains, itemsOf, ok_bind, ringContainsFrom_eq hvertices, Bool.false_xor, isInside]

/-- A ring of a polygon, listed anew. -/
inductive RelistedRing : Doc F → Doc F → Prop
  | arr {items items' : List (Doc F)} (h : Relisted items items') :
    RelistedRing (.arr items) (.arr items')

/-- A ring contains the same positions from whichever vertex it is listed. -/
theorem ringContains_relisted {ring ring' : Doc F} (hring : validateRing ring = .ok ())
    (h : RelistedRing ring ring') :
    SameAnswer (fun r => ringContains r position) ring ring' := by
  obtain ⟨items, rfl, hlength, hclosed, hitems⟩ := validateRing_cases hring
  obtain @⟨_, items', h⟩ := h
  refine ⟨_, ringContains_eq hitems, ?_⟩
  refine (ringContains_eq fun c hc => hitems c (h.subset hc)).trans ?_
  exact congrArg Except.ok (isInside_relisted (h.map vertexAt) (closed_vertices hlength hclosed hitems))

/-! ## Polygons -/

/-- A polygon with its rings listed anew and its holes in another order. -/
inductive RelistedPolygon : Doc F → Doc F → Prop
  | arr {outer outer' : Doc F} {holes holes' holes'' : List (Doc F)}
    (houter : RelistedRing outer outer') (hholes : List.Forall₂ RelistedRing holes holes')
    (horder : holes'.Perm holes'') :
    RelistedPolygon (.arr (outer :: holes)) (.arr (outer' :: holes''))

omit [Field F] [LinearOrder F] [ExactField F] in
/-- A polygon contains what its outer ring does and no hole. -/
theorem polygonContains_cons (outer : Doc F) (holes : List (Doc F)) :
    polygonContains (.arr (outer :: holes)) position =
      (ringContains outer position >>= fun b =>
        if b then (anyM (fun hole => ringContains hole position) holes >>= fun c => .ok !c)
        else .ok false) := rfl

/-- A polygon contains the same positions however its rings are listed. -/
theorem polygonContains_relisted {polygon polygon' : Doc F}
    (hpolygon : validatePolygon polygon = .ok ()) (h : RelistedPolygon polygon polygon') :
    SameAnswer (fun p => polygonContains p position) polygon polygon' := by
  obtain @⟨outer, outer', holes, holes', holes'', houter, hholes, horder⟩ := h
  obtain ⟨_, _, heq, hrings⟩ := validatePolygon_cases hpolygon
  cases heq
  obtain ⟨b, hb, hb'⟩ : SameAnswer (fun r => ringContains r position) outer outer' :=
    ringContains_relisted (hrings outer List.mem_cons_self) houter
  have hsame : List.Forall₂ (SameAnswer fun r => ringContains r position) holes holes' :=
    ((List.forall₂_and_left _ _).2 ⟨fun r hr => hrings r (List.mem_cons_of_mem outer hr), hholes⟩).imp
      fun _ _ h => ringContains_relisted h.1 h.2
  obtain ⟨c, hc, hc'⟩ := anyM_congr hsame
  rw [anyM_perm (exists_of_sameAnswer hsame) horder] at hc'
  simp only [SameAnswer, polygonContains_cons, hb, hb', ok_bind, hc, hc']
  cases b with
  | true => exact ⟨!c, rfl, rfl⟩
  | false => exact ⟨false, rfl, rfl⟩

/-- A geometry with its polygons listed anew. -/
inductive RelistedGeometry (geometry geometry' : Members (Doc F)) : Prop
  | polygon {polygon polygon' : Doc F}
    (ht : geometry.get (lit "type") = some (.str (lit "Polygon")))
    (ht' : geometry'.get (lit "type") = some (.str (lit "Polygon")))
    (hc : geometry.get (lit "coordinates") = some polygon)
    (hc' : geometry'.get (lit "coordinates") = some polygon')
    (h : RelistedPolygon polygon polygon')
  | multiPolygon {polygons polygons' : List (Doc F)}
    (ht : geometry.get (lit "type") = some (.str (lit "MultiPolygon")))
    (ht' : geometry'.get (lit "type") = some (.str (lit "MultiPolygon")))
    (hc : geometry.get (lit "coordinates") = some (.arr polygons))
    (hc' : geometry'.get (lit "coordinates") = some (.arr polygons'))
    (h : List.Forall₂ RelistedPolygon polygons polygons')

/-- A geometry contains the same positions however its rings are listed. -/
theorem containsPosition_relisted {geometry geometry' : Members (Doc F)} (hvalid : Valid geometry)
    (h : RelistedGeometry geometry geometry') :
    SameAnswer (fun g => containsPosition g position) geometry geometry' := by
  cases h with
  | polygon ht ht' hc hc' h =>
    cases hvalid with
    | polygon _ hpolygon hp =>
      cases hc.symm.trans hpolygon
      simp only [SameAnswer, containsPosition_polygon ht hc, containsPosition_polygon ht' hc']
      exact polygonContains_relisted hp h
    | multiPolygon hmulti => cases ht.symm.trans hmulti
  | multiPolygon ht ht' hc hc' h =>
    cases hvalid with
    | polygon hpolygon => cases ht.symm.trans hpolygon
    | multiPolygon _ hpolygons hp =>
      cases hc.symm.trans hpolygons
      simp only [SameAnswer, containsPosition_multiPolygon ht hc,
        containsPosition_multiPolygon ht' hc']
      exact anyM_congr (((List.forall₂_and_left _ _).2 ⟨hp, h⟩).imp
        fun _ _ h => polygonContains_relisted h.1 h.2)

/-- **Containment is of the rings, not of their listing**: a valid ring started at
another of its vertices or reversed contains what it did, with no division
by zero, and so do a geofence's polygons when their rings are listed anew
and their holes reordered. -/
theorem contains_relisted (position : Position F) :
    (∀ ring ring' : Doc F, validateRing ring = .ok () → RelistedRing ring ring' →
      ∃ b, ringContains ring position = .ok b ∧ ringContains ring' position = .ok b) ∧
    ∀ (geofence : Geofence F) (geometry' : Members (Doc F)),
      RelistedGeometry geofence.geometry geometry' →
      ∃ b, containsPosition geofence.geometry position = .ok b ∧
        containsPosition geometry' position = .ok b :=
  ⟨fun _ _ => ringContains_relisted,
    fun geofence _ => containsPosition_relisted (validateGeometry_cases geofence.valid)⟩

/-! ## A square -/

/-- `[x, y]`. -/
def corner (c : ℤ × ℤ) : Doc ℝ := .arr [.num (.int c.1), .num (.int c.2)]

/-- `[[0, 0], [4, 0], [4, 4], [0, 4], [0, 0]]`. -/
def square : List (Doc ℝ) := [(0, 0), (4, 0), (4, 4), (0, 4), (0, 0)].map corner

/-- An integer between two is within them. -/
theorem within_int {low high n : ℤ} (h : low ≤ n ∧ n ≤ high) :
    Ingest.within low high (n : ℝ) = true := by
  rw [Ingest.within, Bool.and_eq_true, Reals.le_iff, Reals.le_iff, Reals.ofInt_eq, Reals.ofInt_eq,
    Int.cast_le, Int.cast_le]
  exact h

/-- A corner in the range of coordinates is valid. -/
theorem validateCoordinate_corner {c : ℤ × ℤ} (hx : -180 ≤ c.1 ∧ c.1 ≤ 180)
    (hy : -90 ≤ c.2 ∧ c.2 ≤ 90) : validateCoordinate (corner c) = .ok () := by
  have hread : ∀ n : ℤ, floatOfDoc (F := ℝ) (.num (.int n)) = .ok (n : ℝ) := fun n => rfl
  rw [corner, validateCoordinate, hread, ok_bind, hread, ok_bind, Position.make, within_int hx,
    within_int hy]
  rfl

/-- The square is a valid ring. -/
theorem validateRing_square : validateRing (.arr square) = .ok () := by
  have hopen : isOpen square = false := rfl
  have hcorners : ∀ c ∈ [((0 : ℤ), (0 : ℤ)), (4, 0), (4, 4), (0, 4), (0, 0)],
      (-180 ≤ c.1 ∧ c.1 ≤ 180) ∧ -90 ≤ c.2 ∧ c.2 ≤ 90 := by decide
  obtain ⟨l, hl⟩ : ∃ l, collect (square.map validateCoordinate) = .ok l :=
    exists_collect_map fun c hc => by
      obtain ⟨n, hn, rfl⟩ := List.mem_map.1 hc
      exact ⟨(), validateCoordinate_corner (hcorners n hn).1 (hcorners n hn).2⟩
  rw [validateRing, hopen, hl]
  rfl

/-- A geofence of one polygon, with one ring. -/
def squareFence : Geofence ℝ where
  identifier := lit "square"
  geometry := [(lit "type", .str (lit "Polygon")), (lit "coordinates", .arr [.arr square])]
  named := by decide
  valid := by
    change validatePolygon (.arr [.arr square]) = .ok ()
    have hall : collect ([.arr square].map validateRing) = .ok [()] := by
      rw [List.map_singleton, validateRing_square]
      rfl
    rw [validatePolygon, hall]
    rfl

/-- The square from its next corner, and the geofence of it reversed. -/
theorem contains_relisted_square :
    (∃ b, ringContains (.arr square) ⟨1, 2⟩ = .ok b ∧
      ringContains (.arr (restart 1 square)) ⟨1, 2⟩ = .ok b) ∧
    ∃ b, containsPosition squareFence.geometry ⟨1, 2⟩ = .ok b ∧
      containsPosition [(lit "type", .str (lit "Polygon")),
        (lit "coordinates", .arr [.arr square.reverse])] ⟨1, 2⟩ = .ok b :=
  ⟨(contains_relisted (F := ℝ) ⟨1, 2⟩).1 _ _ validateRing_square (.arr (.restart 1 .refl)),
    (contains_relisted (F := ℝ) ⟨1, 2⟩).2 squareFence _
      (.polygon rfl rfl rfl rfl (.arr (.arr (.reverse .refl)) .nil (List.Perm.refl _)))⟩

end Vessel

end Lakehouse

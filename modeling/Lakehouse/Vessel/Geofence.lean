import Lakehouse.Vessel.Trajectory
/-!
# Geofences

GeoJSON polygons with closed rings, checked once when a geofence is
built, and the count of the observations inside each. The ray test
divides by the height of an edge that crosses the ray, so never by zero.
-/

namespace Lakehouse

namespace Vessel

variable {F : Type} [PyFloat F] [PyMath F] (L : Library)

/-- `GeofenceValidationError`, a `ValueError`. -/
def geofenceError (message : Text) : PyError := .valueError message

/-- **`Position`.** -/
structure Position (F : Type) where
  latitude : F
  longitude : F

/-- `Position(latitude=latitude, longitude=longitude)`. -/
def Position.make (latitude longitude : F) : Except PyError (Position F) :=
  if (PyFloat.isFinite latitude && Ingest.within (-90) 90 latitude) = false then
    .error (geofenceError (lit "latitude must be finite and between -90 and 90"))
  else if (PyFloat.isFinite longitude && Ingest.within (-180) 180 longitude) = false then
    .error (geofenceError (lit "longitude must be finite and between -180 and 180"))
  else .ok ⟨latitude, longitude⟩

/-! ## Validation -/

/-- `m == n` of two numbers. -/
def sameNumber : PyNum F → PyNum F → Bool
  | .int m, .int n => m == n
  | .int m, .float x | .float x, .int m => PyMath.eqInt m x
  | .float x, .float y => PyFloat.eq x y

/-- A number, or a boolean as one. -/
def numberOf : Doc F → Option (PyNum F)
  | .bool b => some (.int (if b then 1 else 0))
  | .num n => some n
  | _ => none

mutual

/-- `a == b` of two parsed values. -/
def sameValue : Doc F → Doc F → Bool
  | .null, .null => true
  | .str s, .str t => s == t
  | .arr as, .arr bs => sameItems as bs
  | .obj as, .obj bs => as.length == bs.length && sameMembers as bs
  | a, b =>
    match numberOf a, numberOf b with
    | some m, some n => sameNumber m n
    | _, _ => false

def sameItems : List (Doc F) → List (Doc F) → Bool
  | [], [] => true
  | a :: as, b :: bs => sameValue a b && sameItems as bs
  | _, _ => false

def sameMembers : Members (Doc F) → Members (Doc F) → Bool
  | [], _ => true
  | (k, a) :: as, bs =>
    (match Members.get k bs with
      | some b => sameValue a b
      | none => false) && sameMembers as bs

end

/-- `float(value)` of a parsed value. -/
def floatOfDoc (value : Doc F) : Except PyError F := (PyObject.ofDoc value).toFloat

/-- The check of one position of a ring. -/
def validateCoordinate : Doc F → Except PyError Unit
  | .arr [longitude, latitude] => do
    let y ← floatOfDoc latitude
    let x ← floatOfDoc longitude
    let _ ← Position.make y x
    return ()
  | _ => .error (geofenceError (lit "GeoJSON positions must be [longitude, latitude]"))

/-- `ring[0] != ring[-1]`. -/
def isOpen (ring : List (Doc F)) : Bool :=
  match ring.head?, ring.getLast? with
  | some a, some b => !sameValue a b
  | _, _ => true

/-- **`_validate_ring`.** -/
def validateRing : Doc F → Except PyError Unit
  | .arr ring =>
    if ring.length < 4 || isOpen ring then
      .error (geofenceError (lit "linear ring must have at least four closed positions"))
    else do
      let _ ← collect (ring.map validateCoordinate)
      return ()
  | _ => .error (geofenceError (lit "linear ring must have at least four closed positions"))

/-- The check of one polygon. -/
def validatePolygon : Doc F → Except PyError Unit
  | .arr (outer :: holes) => do
    let _ ← collect ((outer :: holes).map validateRing)
    return ()
  | _ => .error (geofenceError (lit "polygon must contain at least one linear ring"))

def isArray : Doc F → Bool
  | .arr _ => true
  | _ => false

/-- **`_validate_geometry`**, of a mapping. A list or a dict as its type is
unhashable. -/
def validateGeometry (geometry : Members (Doc F)) : Except PyError Unit :=
  let unsupported : PyError :=
    geofenceError (lit "only Polygon and MultiPolygon geometries are supported")
  match Ingest.fieldOrNone geometry (lit "type") with
  | .str geometryType =>
    if geometryType ≠ lit "Polygon" ∧ geometryType ≠ lit "MultiPolygon" then .error unsupported
    else
      match Ingest.fieldOrNone geometry (lit "coordinates") with
      | .arr (first :: rest) =>
        if geometryType = lit "Polygon" then validatePolygon (.arr (first :: rest))
        else if (first :: rest).all isArray = false then
          .error (geofenceError (lit "MultiPolygon coordinates must contain polygon arrays"))
        else do
          let _ ← collect ((first :: rest).map validatePolygon)
          return ()
      | _ => .error (geofenceError (lit "geometry coordinates must be a non-empty array"))
  | .arr _ | .obj _ => .error .typeError
  | _ => .error unsupported

/-- **`Geofence`**: its identifier is not blank and its geometry passed the
checks. -/
structure Geofence (F : Type) [PyFloat F] [PyMath F] where
  identifier : Text
  geometry : Members (Doc F)
  named : identifier.strip ≠ []
  valid : validateGeometry geometry = .ok ()

/-! ## Containment -/

/-- `float(coordinate[0]), float(coordinate[1])`. -/
def vertex : Doc F → Except PyError (F × F)
  | .arr items => do
    let x ← floatOfDoc (← item items 0)
    let y ← floatOfDoc (← item items 1)
    return (x, y)
  | _ => .error .typeError

/-- `1e-12`. -/
def edgeTolerance : F := PyFloat.ofNumeral ⟨false, lit "1", none, some (.minus, lit "12")⟩

/-- **`_point_on_segment`.** -/
def pointOnSegment (x y x1 y1 x2 y2 : F) : Bool :=
  let cross := PyFloat.sub (PyFloat.mul (PyFloat.sub y y1) (PyFloat.sub x2 x1))
    (PyFloat.mul (PyFloat.sub x x1) (PyFloat.sub y2 y1))
  let between := fun v a b : F =>
    PyFloat.le (PyFloat.sub (PyMath.min a b) edgeTolerance) v &&
      PyFloat.le v (PyFloat.add (PyMath.max a b) edgeTolerance)
  if PyFloat.lt edgeTolerance (PyFloat.abs cross) then false
  else between x x1 x2 && between y y1 y2

/-- Where an edge that crosses the ray of a point lies right of it, the
point changes sides. -/
def crossEdge (x y x1 y1 x2 y2 : F) (inside : Bool) : Except PyError Bool :=
  if PyFloat.lt y y1 != PyFloat.lt y y2 then do
    let quotient ← PyMath.divide (PyFloat.mul (PyFloat.sub x2 x1) (PyFloat.sub y y1))
      (PyFloat.sub y2 y1)
    return if PyFloat.lt x (PyFloat.add quotient x1) then !inside else inside
  else .ok inside

/-- The edges of a ring, from one vertex to the next. -/
def ringContainsFrom (position : Position F) : List (Doc F) → Bool → Except PyError Bool
  | a :: b :: ring, inside => do
    let (x1, y1) ← vertex a
    let (x2, y2) ← vertex b
    if pointOnSegment position.longitude position.latitude x1 y1 x2 y2 then return true
    else do
      let inside ← crossEdge position.longitude position.latitude x1 y1 x2 y2 inside
      ringContainsFrom position (b :: ring) inside
  | _, inside => .ok inside

/-- The items of a list. -/
def itemsOf : Doc F → Except PyError (List (Doc F))
  | .arr items => .ok items
  | _ => .error .typeError

/-- **`_ring_contains`.** -/
def ringContains (ring : Doc F) (position : Position F) : Except PyError Bool := do
  ringContainsFrom position (← itemsOf ring) false

/-- `any(f(item) for item in items)`. -/
def anyM {α : Type} (f : α → Except PyError Bool) : List α → Except PyError Bool
  | [] => .ok false
  | a :: as => do if ← f a then return true else anyM f as

/-- **`_polygon_contains`.** -/
def polygonContains (polygon : Doc F) (position : Position F) : Except PyError Bool := do
  let rings ← itemsOf polygon
  let outer ← item rings 0
  if ← ringContains outer position then
    return !(← anyM (fun hole => ringContains hole position) (rings.drop 1))
  else return false

/-- **`Geofence.contains`**, of the geometry. -/
def containsPosition (geometry : Members (Doc F)) (position : Position F) : Except PyError Bool := do
  let geometryType ← Ingest.field geometry (lit "type")
  let coordinates ← Ingest.field geometry (lit "coordinates")
  match geometryType with
  | .str t =>
    if t = lit "Polygon" then polygonContains coordinates position
    else if t = lit "MultiPolygon" then do
      anyM (fun polygon => polygonContains polygon position) (← itemsOf coordinates)
    else .error (geofenceError (lit "unsupported geometry type: " ++ t))
  | _ => .error (geofenceError (lit "unsupported geometry type: "))

/-! ## Summaries -/

/-- One vertex of a polygon, as text. -/
def vertexText (coordinate : Doc F) : Except PyError Text := do
  let (x, y) ← vertex coordinate
  return formatOrdinate x ++ 0x20 :: formatOrdinate y

/-- `ring_text`. -/
def ringText (ring : Doc F) : Except PyError Text := do
  let vertices ← collect ((← itemsOf ring).map vertexText)
  return lit "(" ++ Text.join (lit ", ") vertices ++ lit ")"

/-- The rings of a polygon, as text. -/
def polygonText (polygon : Doc F) : Except PyError Text := do
  let rings ← collect ((← itemsOf polygon).map ringText)
  return lit "(" ++ Text.join (lit ", ") rings ++ lit ")"

/-- **`geofence_polygon_wkt`**, of the geometry. -/
def geofencePolygonWkt (geometry : Members (Doc F)) : Except PyError Text := do
  let coordinates ← Ingest.field geometry (lit "coordinates")
  match ← Ingest.field geometry (lit "type") with
  | .str t =>
    if t = lit "Polygon" then return lit "POLYGON " ++ (← polygonText coordinates)
    else if t = lit "MultiPolygon" then do
      let polygons ← collect ((← itemsOf coordinates).map polygonText)
      return lit "MULTIPOLYGON (" ++ Text.join (lit ", ") polygons ++ lit ")"
    else .error (.valueError (lit "unsupported geofence geometry type: " ++ t))
  | _ => .error (.valueError (lit "unsupported geofence geometry type: "))

/-- **A gold row.** -/
structure GeofenceSummary where
  geofenceId : Text
  mmsi : Text
  observationCount : ℕ
  firstSeenAt : ℤ
  lastSeenAt : ℤ
  firstEventId : Text
  lastEventId : Text
  geometryWkt : Text
  summarizedAt : ℤ

/-- `str(row["event_id"])`. -/
def eventIdOf (row : PyRow F) : Except PyError Text := do
  match ← fieldOf row (lit "event_id") with
  | .str t => return t
  | v => return v.repr L

/-- `entry["first_seen_at"]` after a row. -/
def GeofenceSummary.seenFirst (s : GeofenceSummary) (row : PyRow F) (occurredAt : ℤ) :
    Except PyError GeofenceSummary :=
  if occurredAt < s.firstSeenAt then do
    return { s with firstSeenAt := occurredAt, firstEventId := ← eventIdOf L row }
  else return s

/-- `entry["last_seen_at"]` after a row. -/
def GeofenceSummary.seenLast (s : GeofenceSummary) (row : PyRow F) (occurredAt : ℤ) :
    Except PyError GeofenceSummary :=
  if s.lastSeenAt < occurredAt then do
    return { s with lastSeenAt := occurredAt, lastEventId := ← eventIdOf L row }
  else return s

/-- An entry after one observation more. -/
def GeofenceSummary.seen (s : GeofenceSummary) (row : PyRow F) (occurredAt : ℤ) :
    Except PyError GeofenceSummary := do
  let s ← { s with observationCount := s.observationCount + 1 }.seenFirst L row occurredAt
  s.seenLast L row occurredAt

/-- The dict of the entries, by geofence and MMSI. -/
abbrev Aggregates : Type := List ((Text × Text) × GeofenceSummary)

/-- The entry of a geofence and an MMSI, from the first observation. -/
def newEntry (now : ℤ) (mmsi : Text) (occurredAt : ℤ) (row : PyRow F) (geofence : Geofence F) :
    Except PyError GeofenceSummary := do
  let eventId ← eventIdOf L row
  return {
    geofenceId := geofence.identifier, mmsi, observationCount := 1
    firstSeenAt := occurredAt, lastSeenAt := occurredAt
    firstEventId := eventId, lastEventId := eventId
    geometryWkt := ← geofencePolygonWkt geofence.geometry, summarizedAt := now }

/-- One observation against one geofence. -/
def aggregateOne (now : ℤ) (mmsi : Text) (occurredAt : ℤ) (position : Position F) (row : PyRow F)
    (aggregates : Aggregates) (geofence : Geofence F) : Except PyError Aggregates := do
  if (← containsPosition geofence.geometry position) = false then return aggregates
  else
    let key := (geofence.identifier, mmsi)
    match aggregates.lookup key with
    | some entry => do
      let entry ← entry.seen L row occurredAt
      return aggregates.map fun e => if e.1 = key then (key, entry) else e
    | none => return aggregates ++ [(key, ← newEntry L now mmsi occurredAt row geofence)]

/-- One observation against every geofence. -/
def aggregateRow (now : ℤ) (geofences : List (Geofence F)) (aggregates : Aggregates)
    (row : PyRow F) : Except PyError Aggregates := do
  let mmsi ← normalizeMmsi (fieldOrNone row (lit "mmsi"))
  let occurredAt ← instantOf row
  let latitude ← (← fieldOf row (lit "latitude")).toFloat
  let longitude ← (← fieldOf row (lit "longitude")).toFloat
  let position ← Position.make latitude longitude
  geofences.foldlM (aggregateOne L now mmsi occurredAt position row) aggregates

/-- **`build_geofence_summaries`**, at the instant `now`. -/
def buildGeofenceSummaries (now : ℤ) (observations : List (PyRow F))
    (geofences : List (Geofence F)) : Except PyError (List GeofenceSummary) :=
  if geofences = [] then .error (.valueError (lit "at least one validated geofence is required"))
  else do
    let aggregates ← observations.foldlM (aggregateRow L now geofences) []
    return (sortBy (fun e => toLex e.1) aggregates).map Prod.snd

/-! ## What validation promises -/

section Validated

/-- A position of two finite numbers. -/
def VertexOk (c : Doc F) : Prop :=
  ∃ x y : F, vertex c = .ok (x, y) ∧ PyFloat.isFinite x = true ∧ PyFloat.isFinite y = true

def RingOk (ring : Doc F) : Prop := ∃ items, ring = .arr items ∧ ∀ c ∈ items, VertexOk c

def PolygonOk (polygon : Doc F) : Prop :=
  ∃ outer holes, polygon = .arr (outer :: holes) ∧ ∀ r ∈ outer :: holes, RingOk r

/-- A polygon, or a list of them, under the type that says so. -/
inductive GeometryOk (geometry : Members (Doc F)) : Prop
  | polygon {polygon : Doc F} (ht : geometry.get (lit "type") = some (.str (lit "Polygon")))
      (hc : geometry.get (lit "coordinates") = some polygon) (h : PolygonOk polygon)
  | multiPolygon {polygons : List (Doc F)}
      (ht : geometry.get (lit "type") = some (.str (lit "MultiPolygon")))
      (hc : geometry.get (lit "coordinates") = some (.arr polygons))
      (h : ∀ p ∈ polygons, PolygonOk p)

/-- A pair of numbers is a vertex. -/
theorem vertex_pair {longitude latitude : Doc F} {x y : F}
    (hx : floatOfDoc longitude = .ok x) (hy : floatOfDoc latitude = .ok y) :
    vertex (.arr [longitude, latitude]) = .ok (x, y) := by
  change (do
    let a ← floatOfDoc longitude
    let b ← floatOfDoc latitude
    pure (a, b)) = _
  rw [hx, ok_bind, hy]
  rfl

/-- A coordinate accepted is a pair of finite numbers. -/
theorem validateCoordinate_cases {c : Doc F} (h : validateCoordinate c = .ok ()) :
    ∃ longitude latitude x y, c = .arr [longitude, latitude] ∧
      floatOfDoc longitude = .ok x ∧ floatOfDoc latitude = .ok y ∧
      PyFloat.isFinite x = true ∧ PyFloat.isFinite y = true := by
  unfold validateCoordinate at h
  split at h
  · next longitude latitude =>
    obtain ⟨y, hy, h⟩ := bind_eq_ok.1 h
    obtain ⟨x, hx, h⟩ := bind_eq_ok.1 h
    obtain ⟨position, hposition, -⟩ := bind_eq_ok.1 h
    unfold Position.make at hposition
    obtain ⟨hlat, hposition⟩ := guard_eq_ok.1 hposition
    obtain ⟨hlon, -⟩ := guard_eq_ok.1 hposition
    rw [Bool.not_eq_false, Bool.and_eq_true] at hlat hlon
    exact ⟨longitude, latitude, x, y, rfl, hx, hy, hlon.1, hlat.1⟩
  · cases h

/-- A coordinate accepted can be read as a vertex. -/
theorem validateCoordinate_eq_ok {c : Doc F} (h : validateCoordinate c = .ok ()) : VertexOk c := by
  obtain ⟨longitude, latitude, x, y, rfl, hx, hy, hfinite⟩ := validateCoordinate_cases h
  exact ⟨x, y, vertex_pair hx hy, hfinite⟩

/-- A validated ring is closed, and its positions passed their check. -/
theorem validateRing_cases {ring : Doc F} (h : validateRing ring = .ok ()) :
    ∃ items, ring = .arr items ∧ 4 ≤ items.length ∧ isOpen items = false ∧
      ∀ c ∈ items, validateCoordinate c = .ok () := by
  unfold validateRing at h
  split at h
  · next items =>
    obtain ⟨hclosed, h⟩ := guard_eq_ok.1 h
    rw [Bool.or_eq_true, not_or, decide_eq_true_eq, not_lt, Bool.not_eq_true] at hclosed
    obtain ⟨_, hall, -⟩ := bind_eq_ok.1 h
    refine ⟨items, rfl, hclosed.1, hclosed.2, fun c hc => ?_⟩
    obtain ⟨⟨⟩, hok⟩ := forall_of_collect hall c hc
    exact hok
  · cases h

/-- A ring accepted is a list of such coordinates. -/
theorem validateRing_eq_ok {ring : Doc F} (h : validateRing ring = .ok ()) : RingOk ring := by
  obtain ⟨items, rfl, -, -, hitems⟩ := validateRing_cases h
  exact ⟨items, rfl, fun c hc => validateCoordinate_eq_ok (hitems c hc)⟩

/-- A polygon accepted is an outer ring with its holes, each accepted. -/
theorem validatePolygon_cases {polygon : Doc F} (h : validatePolygon polygon = .ok ()) :
    ∃ outer holes, polygon = .arr (outer :: holes) ∧
      ∀ r ∈ outer :: holes, validateRing r = .ok () := by
  unfold validatePolygon at h
  split at h
  · next outer holes =>
    obtain ⟨_, hall, -⟩ := bind_eq_ok.1 h
    refine ⟨outer, holes, rfl, fun r hr => ?_⟩
    obtain ⟨⟨⟩, hok⟩ := forall_of_collect hall r hr
    exact hok
  · cases h

/-- A polygon accepted consists of rings that can be read. -/
theorem validatePolygon_eq_ok {polygon : Doc F} (h : validatePolygon polygon = .ok ()) :
    PolygonOk polygon := by
  obtain ⟨outer, holes, rfl, hrings⟩ := validatePolygon_cases h
  exact ⟨outer, holes, rfl, fun r hr => validateRing_eq_ok (hrings r hr)⟩

omit [PyFloat F] [PyMath F] in
/-- A field that is not null stands in the object. -/
theorem get_of_fieldOrNone {ms : Members (Doc F)} {key : Text} {v : Doc F}
    (h : Ingest.fieldOrNone ms key = v) (hv : v ≠ .null) : ms.get key = some v := by
  unfold Ingest.fieldOrNone at h
  cases hget : ms.get key with
  | none =>
    rw [hget] at h
    exact absurd h.symm hv
  | some w =>
    rw [hget] at h
    exact congrArg some h

/-- A geometry whose polygons passed their check, under the type that says
how many there are. -/
inductive Valid (geometry : Members (Doc F)) : Prop
  | polygon {polygon : Doc F} (ht : geometry.get (lit "type") = some (.str (lit "Polygon")))
      (hc : geometry.get (lit "coordinates") = some polygon) (h : validatePolygon polygon = .ok ())
  | multiPolygon {polygons : List (Doc F)}
      (ht : geometry.get (lit "type") = some (.str (lit "MultiPolygon")))
      (hc : geometry.get (lit "coordinates") = some (.arr polygons))
      (h : ∀ p ∈ polygons, validatePolygon p = .ok ())

/-- **A geometry accepted** is a polygon or a list of polygons, each accepted.
-/
theorem validateGeometry_cases {geometry : Members (Doc F)}
    (h : validateGeometry geometry = .ok ()) : Valid geometry := by
  unfold validateGeometry at h
  simp only at h
  split at h
  · next t ht =>
    obtain ⟨hknown, h⟩ := guard_eq_ok.1 h
    split at h
    · next first rest hc =>
      have hget := get_of_fieldOrNone ht nofun
      have hgetc := get_of_fieldOrNone hc nofun
      split_ifs at h with hpoly hall
      · rw [hpoly] at hget
        exact .polygon hget hgetc h
      · have hmulti : t = lit "MultiPolygon" := by
          by_contra hmulti
          exact hknown ⟨hpoly, hmulti⟩
        rw [hmulti] at hget
        obtain ⟨_, hcollect, -⟩ := bind_eq_ok.1 h
        refine .multiPolygon hget hgetc fun p hp => ?_
        obtain ⟨⟨⟩, hok⟩ := forall_of_collect hcollect p hp
        exact hok
    · cases h
  · cases h
  · cases h
  · cases h

/-- **What a validated geometry is.** -/
theorem validateGeometry_eq_ok {geometry : Members (Doc F)}
    (h : validateGeometry geometry = .ok ()) : GeometryOk geometry := by
  cases validateGeometry_cases h with
  | polygon ht hc h => exact .polygon ht hc (validatePolygon_eq_ok h)
  | multiPolygon ht hc h => exact .multiPolygon ht hc fun p hp => validatePolygon_eq_ok (h p hp)

end Validated

/-! ## Nothing in it raises -/

section Returns

variable [LawfulFloat F] [LawfulMath F]

/-- An edge is divided by its height only where it has one. -/
theorem crossEdge_isOk (x x1 x2 : F) {y y1 y2 : F} (hy : PyFloat.isFinite y = true)
    (hy1 : PyFloat.isFinite y1 = true) (hy2 : PyFloat.isFinite y2 = true) (inside : Bool) :
    ∃ b, crossEdge x y x1 y1 x2 y2 inside = .ok b := by
  unfold crossEdge
  split_ifs with hcross
  · have hheight : PyFloat.eq (PyFloat.sub y2 y1) PyMath.zero = false := by
      rw [← Bool.not_eq_true]
      intro hz
      have hval := LawfulMath.val_eq_of_sub hy2 hy1 hz
      have hsame : PyFloat.lt y y1 = PyFloat.lt y y2 := by
        rw [Bool.eq_iff_iff, LawfulFloat.lt_iff hy hy1, LawfulFloat.lt_iff hy hy2, hval]
      rw [hsame, bne_self_eq_false] at hcross
      cases hcross
    rw [PyMath.divide, if_neg (by simp [hheight])]
    exact ⟨_, rfl⟩
  · exact ⟨inside, rfl⟩

/-- The scan of a ring returns, from whatever side it starts. -/
theorem ringContainsFrom_isOk {position : Position F}
    (hp : PyFloat.isFinite position.latitude = true) {ring : List (Doc F)}
    (h : ∀ c ∈ ring, VertexOk c) (inside : Bool) :
    ∃ b, ringContainsFrom position ring inside = .ok b := by
  induction ring generalizing inside with
  | nil => exact ⟨inside, rfl⟩
  | cons a ring ih =>
    cases ring with
    | nil => exact ⟨inside, rfl⟩
    | cons b ring =>
      obtain ⟨x1, y1, ha, -, hy1⟩ := h a List.mem_cons_self
      obtain ⟨x2, y2, hb, -, hy2⟩ := h b (by simp)
      rw [ringContainsFrom, ha]
      simp only [hb, ok_bind]
      split_ifs
      · exact ⟨true, rfl⟩
      · obtain ⟨side, hside⟩ := crossEdge_isOk position.longitude x1 x2 hp hy1 hy2 inside
        rw [hside, ok_bind]
        exact ih (fun c hc => h c (List.mem_cons_of_mem a hc)) side

/-- The test of a ring returns. -/
theorem ringContains_isOk {position : Position F} (hp : PyFloat.isFinite position.latitude = true)
    {ring : Doc F} (h : RingOk ring) : ∃ b, ringContains ring position = .ok b := by
  obtain ⟨items, rfl, hitems⟩ := h
  exact ringContainsFrom_isOk hp hitems false

omit [PyFloat F] [PyMath F] [LawfulFloat F] [LawfulMath F] in
/-- A search returns where each test of it does. -/
theorem anyM_isOk {α : Type} {f : α → Except PyError Bool} {as : List α}
    (h : ∀ a ∈ as, ∃ b, f a = .ok b) : ∃ b, anyM f as = .ok b := by
  induction as with
  | nil => exact ⟨false, rfl⟩
  | cons a as ih =>
    obtain ⟨b, hb⟩ := h a List.mem_cons_self
    rw [anyM, hb, ok_bind]
    split_ifs
    · exact ⟨true, rfl⟩
    · exact ih fun c hc => h c (List.mem_cons_of_mem a hc)

/-- The test of a polygon returns. -/
theorem polygonContains_isOk {position : Position F}
    (hp : PyFloat.isFinite position.latitude = true) {polygon : Doc F} (h : PolygonOk polygon) :
    ∃ b, polygonContains polygon position = .ok b := by
  obtain ⟨outer, holes, rfl, hrings⟩ := h
  obtain ⟨b, hb⟩ := ringContains_isOk hp (hrings outer List.mem_cons_self)
  obtain ⟨c, hc⟩ : ∃ c, anyM (fun hole => ringContains hole position) holes = .ok c :=
    anyM_isOk fun hole hhole => ringContains_isOk hp (hrings hole (List.mem_cons_of_mem _ hhole))
  have hitem : item (outer :: holes) 0 = .ok outer := rfl
  rw [polygonContains, itemsOf, ok_bind, hitem, ok_bind, hb, ok_bind]
  split_ifs
  · exact ⟨!c, by rw [List.drop_one, List.tail_cons, hc]; rfl⟩
  · exact ⟨false, rfl⟩

omit [LawfulFloat F] [LawfulMath F] in
/-- A position is in a polygon's geometry where it is in the polygon. -/
theorem containsPosition_polygon {position : Position F} {geometry : Members (Doc F)}
    {polygon : Doc F}
    (ht : geometry.get (lit "type") = some (.str (lit "Polygon")))
    (hc : geometry.get (lit "coordinates") = some polygon) :
    containsPosition geometry position = polygonContains polygon position := by
  simp only [containsPosition, Ingest.field, ht, hc, ok_bind, if_true]

omit [LawfulFloat F] [LawfulMath F] in
/-- A position is in a multipolygon where it is in one of its polygons. -/
theorem containsPosition_multiPolygon {position : Position F} {geometry : Members (Doc F)}
    {polygons : List (Doc F)}
    (ht : geometry.get (lit "type") = some (.str (lit "MultiPolygon")))
    (hc : geometry.get (lit "coordinates") = some (.arr polygons)) :
    containsPosition geometry position =
      anyM (fun polygon => polygonContains polygon position) polygons := by
  have hne : lit "MultiPolygon" ≠ lit "Polygon" := by decide
  simp only [containsPosition, Ingest.field, ht, hc, ok_bind, if_neg hne, if_true, itemsOf]

/-- **A validated geometry contains a position or does not.** -/
theorem containsPosition_isOk {position : Position F}
    (hp : PyFloat.isFinite position.latitude = true) {geometry : Members (Doc F)}
    (h : GeometryOk geometry) : ∃ b, containsPosition geometry position = .ok b := by
  cases h with
  | polygon ht hc h =>
    obtain ⟨b, hb⟩ := polygonContains_isOk hp h
    exact ⟨b, (containsPosition_polygon ht hc).trans hb⟩
  | @multiPolygon polygons ht hc h =>
    obtain ⟨b, hb⟩ : ∃ b, anyM (fun p => polygonContains p position) polygons = .ok b :=
      anyM_isOk fun p hpoly => polygonContains_isOk hp (h p hpoly)
    exact ⟨b, (containsPosition_multiPolygon ht hc).trans hb⟩

omit [LawfulFloat F] [LawfulMath F] in
/-- An accepted polygon has its text. -/
theorem polygonText_isOk {polygon : Doc F} (h : PolygonOk polygon) :
    ∃ t, polygonText polygon = .ok t := by
  obtain ⟨outer, holes, rfl, hrings⟩ := h
  obtain ⟨ts, hts⟩ : ∃ ts, collect ((outer :: holes).map ringText) = .ok ts :=
    exists_collect_map fun ring hring => by
      obtain ⟨items, rfl, hitems⟩ := hrings ring hring
      obtain ⟨vs, hvs⟩ : ∃ vs, collect (items.map vertexText) = .ok vs :=
        exists_collect_map fun c hc => by
          obtain ⟨x, y, hv, -⟩ := hitems c hc
          exact ⟨_, by rw [vertexText, hv]; rfl⟩
      exact ⟨_, by rw [ringText, itemsOf, ok_bind, hvs]; rfl⟩
  exact ⟨_, by rw [polygonText, itemsOf, ok_bind, hts]; rfl⟩

omit [LawfulFloat F] [LawfulMath F] in
/-- **An accepted geometry has its WKT.** -/
theorem geofencePolygonWkt_isOk {geometry : Members (Doc F)} (h : GeometryOk geometry) :
    ∃ t, geofencePolygonWkt geometry = .ok t := by
  cases h with
  | polygon ht hc h =>
    obtain ⟨t, hwkt⟩ := polygonText_isOk h
    refine ⟨lit "POLYGON " ++ t, ?_⟩
    simp only [geofencePolygonWkt, Ingest.field, ht, hc, ok_bind, if_true, hwkt, pure_eq_ok]
  | @multiPolygon polygons ht hc h =>
    obtain ⟨ts, hts⟩ : ∃ ts, collect (polygons.map polygonText) = .ok ts :=
      exists_collect_map fun p hp => polygonText_isOk (h p hp)
    refine ⟨lit "MULTIPOLYGON (" ++ Text.join (lit ", ") ts ++ lit ")", ?_⟩
    have hne : lit "MultiPolygon" ≠ lit "Polygon" := by decide
    simp only [geofencePolygonWkt, Ingest.field, ht, hc, ok_bind, if_neg hne, if_true, itemsOf, hts,
      pure_eq_ok]

end Returns

end Vessel

end Lakehouse

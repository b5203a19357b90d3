import Lakehouse.Common.Codec
/-!
# WKB

The little-endian encoding of a parsed geometry, ordinates as the 64-bit
words of their doubles. `readGeometry` is what a reader of the format does:
it takes the type code and the counts and reads back what they announce
(`writes_wkbEncode`).
-/

namespace Lakehouse

namespace GeoParquet

/-- **A parsed geometry**, its type and its coordinates. -/
inductive Geometry (α : Type) where
  | point (position : α × α)
  | lineString (positions : List (α × α))
  | polygon (rings : List (List (α × α)))
  | multiPolygon (polygons : List (List (List (α × α))))
  deriving DecidableEq, Repr

/-- The bits of a double. -/
abbrev Double : Type := UInt64

/-! ## The encoder -/

/-- `_WKB_TYPE_CODES[geometry_type]`. -/
def wkbTypeCode {α : Type} : Geometry α → ℕ
  | .point _ => 1
  | .lineString _ => 2
  | .polygon _ => 3
  | .multiPolygon _ => 6

/-- `struct.pack("<I", n)`; `none` is a `struct.error`. -/
def packUnsigned (n : ℕ) : Option Bytes := if n < 2 ^ 32 then some (littleEndian 4 n) else none

/-- `struct.pack("<BI", 1, type_code)`. -/
def packHeader (typeCode : ℕ) : Option Bytes := (packUnsigned typeCode).map (1 :: ·)

/-- **`_wkb_position`.** -/
def wkbPosition (position : Double × Double) : Bytes :=
  littleEndian 8 position.1.toNat ++ littleEndian 8 position.2.toNat

/-- **`_wkb_linestring_body`.** -/
def wkbLinestringBody (positions : List (Double × Double)) : Option Bytes := do
  return (← packUnsigned positions.length) ++ (positions.map wkbPosition).flatten

/-- **`_wkb_polygon_body`.** -/
def wkbPolygonBody (rings : List (List (Double × Double))) : Option Bytes := do
  let count ← packUnsigned rings.length
  let bodies ← rings.mapM wkbLinestringBody
  return count ++ bodies.flatten

/-- `wkb_encode("Polygon", rings)`. -/
def wkbPolygon (rings : List (List (Double × Double))) : Option Bytes := do
  let header ← packHeader (wkbTypeCode (.polygon rings))
  return header ++ (← wkbPolygonBody rings)

/-- **`wkb_encode`.** -/
def wkbEncode (geometry : Geometry Double) : Option Bytes :=
  match geometry with
  | .point position => do
    return (← packHeader (wkbTypeCode geometry)) ++ wkbPosition position
  | .lineString positions => do
    return (← packHeader (wkbTypeCode geometry)) ++ (← wkbLinestringBody positions)
  | .polygon rings => wkbPolygon rings
  | .multiPolygon polygons => do
    let header ← packHeader (wkbTypeCode geometry)
    let count ← packUnsigned polygons.length
    let bodies ← polygons.mapM wkbPolygon
    return header ++ count ++ bodies.flatten

/-! ## A reader of the format -/

def readDouble : Reader Double := do
  return UInt64.ofNat (← Reader.littleEndian 8)

def readPosition : Reader (Double × Double) := do
  let x ← readDouble
  let y ← readDouble
  return (x, y)

/-- A count, and as many values. -/
def readCounted {α : Type} (read : Reader α) : Reader (List α) := do
  Reader.many read (← Reader.littleEndian 4)

/-- The byte order and the type code. -/
def readHeader : Reader ℕ := do
  if (← Reader.byte) = 1 then Reader.littleEndian 4 else failure

def readRings : Reader (List (List (Double × Double))) := readCounted (readCounted readPosition)

/-- A polygon of a multi-polygon, with a header of its own. -/
def readPolygon : Reader (List (List (Double × Double))) := do
  if (← readHeader) = 3 then readRings else failure

/-- What follows a type code. -/
def readCoordinates : ℕ → Reader (Geometry Double)
  | 1 => do return .point (← readPosition)
  | 2 => do return .lineString (← readCounted readPosition)
  | 3 => do return .polygon (← readRings)
  | 6 => do return .multiPolygon (← readCounted readPolygon)
  | _ => failure

/-- **A geometry.** -/
def readGeometry : Reader (Geometry Double) := do
  readCoordinates (← readHeader)

/-- A byte string that is one geometry. -/
def wkbDecode (bytes : Bytes) : Option (Geometry Double) :=
  match readGeometry bytes with
  | some (geometry, []) => some geometry
  | _ => none

/-! ## The reader reads back what the encoder wrote -/

/-- A double is read back from its eight bytes. -/
theorem writes_double (x : Double) : Writes readDouble x (littleEndian 8 x.toNat) := by
  have hread := (Writes.littleEndian (k := 8) x.toNat_lt).map (f := UInt64.ofNat)
  rwa [UInt64.ofNat_toNat] at hread

/-- A position is read back from its two doubles. -/
theorem writes_wkbPosition (position : Double × Double) :
    Writes readPosition position (wkbPosition position) :=
  (writes_double position.1).bind (f := fun x => readDouble >>= fun y => pure (x, y))
    (writes_double position.2).map

/-- A count is read back from its four bytes. -/
theorem writes_packUnsigned {n : ℕ} {b : Bytes} (h : packUnsigned n = some b) :
    Writes (Reader.littleEndian 4) n b := by
  unfold packUnsigned at h
  split_ifs at h with hn
  cases h
  exact .littleEndian hn

/-- A counted list is read back where each of its items is. -/
theorem writes_counted {α : Type} {read : Reader α} {as : List α} {count : Bytes}
    {bs : List Bytes} (hcount : packUnsigned as.length = some count)
    (h : List.Forall₂ (Writes read) as bs) :
    Writes (readCounted read) as (count ++ bs.flatten) :=
  (writes_packUnsigned hcount).bind (.many h)

/-- The positions of a line are read back. -/
theorem writes_wkbLinestringBody {positions : List (Double × Double)} {b : Bytes}
    (h : wkbLinestringBody positions = some b) : Writes (readCounted readPosition) positions b := by
  obtain ⟨count, hcount, h⟩ := Option.bind_eq_some_iff.1 h
  cases h
  refine writes_counted hcount ?_
  rw [List.forall₂_map_right_iff, List.forall₂_same]
  exact fun position _ => writes_wkbPosition position

/-- The rings of a polygon are read back. -/
theorem writes_wkbPolygonBody {rings : List (List (Double × Double))} {b : Bytes}
    (h : wkbPolygonBody rings = some b) : Writes readRings rings b := by
  obtain ⟨count, hcount, h⟩ := Option.bind_eq_some_iff.1 h
  obtain ⟨bodies, hbodies, h⟩ := Option.bind_eq_some_iff.1 h
  cases h
  exact writes_counted hcount
    ((forall₂_of_mapM hbodies).imp fun _ _ => writes_wkbLinestringBody)

/-- The byte order and the type code are read back. -/
theorem writes_packHeader {typeCode : ℕ} {b : Bytes} (h : packHeader typeCode = some b) :
    Writes readHeader typeCode b := by
  obtain ⟨code, hcode, rfl⟩ := Option.map_eq_some_iff.1 h
  exact (Writes.byte 1).bind (f := fun x => if x = 1 then Reader.littleEndian 4 else failure)
    (writes_packUnsigned hcode)

/-- A polygon with its header is read back. -/
theorem writes_wkbPolygon {rings : List (List (Double × Double))} {b : Bytes}
    (h : wkbPolygon rings = some b) : Writes readPolygon rings b := by
  simp only [wkbPolygon, Option.bind_eq_bind, Option.bind_eq_some_iff] at h
  obtain ⟨header, hheader, body, hbody, h⟩ := h
  cases h
  exact (writes_packHeader hheader).bind (f := fun code => if code = 3 then readRings else failure)
    (writes_wkbPolygonBody hbody)

/-- A geometry is read by its type code. -/
theorem writes_geometry {geometry : Geometry Double} {header body : Bytes}
    (hheader : packHeader (wkbTypeCode geometry) = some header)
    (h : Writes (readCoordinates (wkbTypeCode geometry)) geometry body) :
    Writes readGeometry geometry (header ++ body) :=
  (writes_packHeader hheader).bind h

/-- **The reader reads back what the encoder wrote.** -/
theorem writes_wkbEncode {geometry : Geometry Double} {b : Bytes}
    (h : wkbEncode geometry = some b) : Writes readGeometry geometry b := by
  cases geometry with
  | point position =>
    simp only [wkbEncode, Option.bind_eq_bind, Option.bind_eq_some_iff] at h
    obtain ⟨header, hheader, h⟩ := h
    cases h
    exact writes_geometry hheader (writes_wkbPosition position).map
  | lineString positions =>
    simp only [wkbEncode, Option.bind_eq_bind, Option.bind_eq_some_iff] at h
    obtain ⟨header, hheader, body, hbody, h⟩ := h
    cases h
    exact writes_geometry hheader (writes_wkbLinestringBody hbody).map
  | polygon rings =>
    simp only [wkbEncode, wkbPolygon, Option.bind_eq_bind, Option.bind_eq_some_iff] at h
    obtain ⟨header, hheader, body, hbody, h⟩ := h
    cases h
    exact writes_geometry hheader (writes_wkbPolygonBody hbody).map
  | multiPolygon polygons =>
    simp only [wkbEncode, Option.bind_eq_bind, Option.bind_eq_some_iff] at h
    obtain ⟨header, hheader, count, hcount, bodies, hbodies, h⟩ := h
    cases h
    have hread := writes_counted hcount
      ((forall₂_of_mapM hbodies).imp fun _ _ => writes_wkbPolygon)
    rw [List.append_assoc]
    exact writes_geometry hheader hread.map

/-! ## The encoder returns where every list is short -/

/-- A list whose length is a 32-bit word. -/
def IsShort {α : Type} (as : List α) : Prop := as.length < 2 ^ 32

def ShortRings (rings : List (List (Double × Double))) : Prop :=
  IsShort rings ∧ ∀ ring ∈ rings, IsShort ring

/-- Every list of a geometry is short. -/
def Short : Geometry Double → Prop
  | .point _ => True
  | .lineString positions => IsShort positions
  | .polygon rings => ShortRings rings
  | .multiPolygon polygons => IsShort polygons ∧ ∀ rings ∈ polygons, ShortRings rings

/-- A short list has a count. -/
theorem packUnsigned_length {α : Type} {as : List α} (h : IsShort as) :
    packUnsigned as.length = some (littleEndian 4 as.length) := if_pos h

/-- A short line is written. -/
theorem exists_wkbLinestringBody {positions : List (Double × Double)} (h : IsShort positions) :
    ∃ b, wkbLinestringBody positions = some b := by
  rw [wkbLinestringBody, packUnsigned_length h]
  exact ⟨_, rfl⟩

/-- Short rings are written. -/
theorem exists_wkbPolygonBody {rings : List (List (Double × Double))} (h : ShortRings rings) :
    ∃ b, wkbPolygonBody rings = some b := by
  obtain ⟨bodies, hbodies⟩ := exists_mapM fun ring hring => exists_wkbLinestringBody (h.2 ring hring)
  rw [wkbPolygonBody, packUnsigned_length h.1, hbodies]
  exact ⟨_, rfl⟩

/-- A header is written for every type of geometry. -/
theorem exists_packHeader (geometry : Geometry Double) :
    ∃ b, packHeader (wkbTypeCode geometry) = some b := by
  cases geometry <;> exact ⟨_, rfl⟩

/-- A polygon of short rings is written. -/
theorem exists_wkbPolygon {rings : List (List (Double × Double))} (h : ShortRings rings) :
    ∃ b, wkbPolygon rings = some b := by
  obtain ⟨header, hheader⟩ := exists_packHeader (.polygon rings)
  obtain ⟨body, hbody⟩ := exists_wkbPolygonBody h
  rw [wkbPolygon, hheader, hbody]
  exact ⟨_, rfl⟩

/-- **A short geometry is written.** -/
theorem exists_wkbEncode {geometry : Geometry Double} (h : Short geometry) :
    ∃ b, wkbEncode geometry = some b := by
  obtain ⟨header, hheader⟩ := exists_packHeader geometry
  cases geometry with
  | point position =>
    rw [wkbEncode, hheader]
    exact ⟨_, rfl⟩
  | lineString positions =>
    obtain ⟨body, hbody⟩ := exists_wkbLinestringBody h
    rw [wkbEncode, hheader, hbody]
    exact ⟨_, rfl⟩
  | polygon rings => exact exists_wkbPolygon h
  | multiPolygon polygons =>
    obtain ⟨bodies, hbodies⟩ := exists_mapM fun rings hrings => exists_wkbPolygon (h.2 rings hrings)
    rw [wkbEncode, hheader, packUnsigned_length h.1, hbodies]
    exact ⟨_, rfl⟩

/-- **The encoding is prefix-free**, and what is encoded is decoded. -/
theorem wkbEncode_prefix_free {geometry geometry' : Geometry Double} (h : Short geometry)
    (h' : Short geometry') :
    ∃ b b', wkbEncode geometry = some b ∧ wkbEncode geometry' = some b' ∧
      (b <+: b' → geometry = geometry') ∧ wkbDecode b = some geometry := by
  obtain ⟨b, hb⟩ := exists_wkbEncode h
  obtain ⟨b', hb'⟩ := exists_wkbEncode h'
  have hread := writes_wkbEncode hb []
  rw [List.append_nil] at hread
  exact ⟨b, b', hb, hb', (writes_wkbEncode hb).prefix_free (writes_wkbEncode hb'),
    by rw [wkbDecode, hread]⟩

/-- A triangle alone and as the one polygon of many. -/
theorem wkbEncode_prefix_free_triangle :
    ∃ b b', wkbEncode (.polygon [[(0, 0), (1, 0), (0, 1), (0, 0)]]) = some b ∧
      wkbEncode (.multiPolygon [[[(0, 0), (1, 0), (0, 1), (0, 0)]]]) = some b' ∧
      (b <+: b' → Geometry.polygon [[((0 : Double), (0 : Double)), (1, 0), (0, 1), (0, 0)]] =
        .multiPolygon [[[(0, 0), (1, 0), (0, 1), (0, 0)]]]) ∧
      wkbDecode b = some (.polygon [[(0, 0), (1, 0), (0, 1), (0, 0)]]) :=
  wkbEncode_prefix_free (by simp [Short, ShortRings, IsShort]) (by simp [Short, ShortRings, IsShort])

end GeoParquet

end Lakehouse

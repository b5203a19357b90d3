import Lakehouse.GeoParquet.Grammar
import Lakehouse.Vessel.Geofence
import Lakehouse.Vessel.Ordinate
/-!
# Printed geometries

The lakehouse prints its points, lines and geofences as WKT, and the export
parses them. An ordinate is printed as one number, and every list of items
in parentheses with a comma and a space between them, so what is printed is
a WKT text: it is parsed as the geometry it was printed of, each ordinate
the printed one (`parseWkt_printed`).
-/

namespace Lakehouse

namespace GeoParquet

open Vessel (TrackPoint Geofence LawfulFixed Printed formatOrdinate ordinates pointWkt lineWkt vertex vertexText
  ringText polygonText itemsOf geofencePolygonWkt)

variable {α β F : Type} (U : DecimalDigits)

/-- The ordinates of a point, as printed. -/
def PrintedPoint [PyFloat F] [LawfulFloat F] (p : TrackPoint F) (q : F × F) : Prop :=
  Printed p.longitude q.1 ∧ Printed p.latitude q.2

/-- A position of a ring, as printed. -/
def PrintedVertex [PyFloat F] [LawfulFloat F] [PyMath F] (c : Doc F) (q : F × F) : Prop :=
  ∃ x y, vertex c = .ok (x, y) ∧ Printed x q.1 ∧ Printed y q.2

/-- The items of a list, one by one. -/
def Items (P : Doc F → α → Prop) (d : Doc F) (as : List α) : Prop :=
  ∃ items, d = .arr items ∧ List.Forall₂ P items as

/-- **The geometry of a geofence, as printed**: its type, its nesting and its
ordinates. -/
inductive PrintedGeometry [PyFloat F] [LawfulFloat F] [PyMath F] (geometry : Members (Doc F)) :
    Geometry F → Prop
  | polygon {polygon : Doc F} {rs : List (List (F × F))}
      (ht : geometry.get (lit "type") = some (.str (lit "Polygon")))
      (hc : geometry.get (lit "coordinates") = some polygon)
      (h : Items (Items PrintedVertex) polygon rs) : PrintedGeometry geometry (.polygon rs)
  | multiPolygon {polygons : Doc F} {ps : List (List (List (F × F)))}
      (ht : geometry.get (lit "type") = some (.str (lit "MultiPolygon")))
      (hc : geometry.get (lit "coordinates") = some polygons)
      (h : Items (Items (Items PrintedVertex)) polygons ps) : PrintedGeometry geometry (.multiPolygon ps)

/-- The text lays its tokens out before whatever ends a token. -/
def LaidBefore (s : Text) (us : List Text) : Prop :=
  ∀ {rest : Text} {ts : List Text}, Ends rest → Laid U rest ts → Laid U (s ++ rest) (us ++ ts)

/-- **A text that spells something** wherever a token may end after it. -/
def Spelled (R : List Text → α → Prop) (s : Text) (a : α) : Prop := ∃ us, R us a ∧ LaidBefore U s us

/-! ## What is spelled -/

section Spelled

variable {U} {R : List Text → α → Prop}

/-- A number ends before a space or a mark. -/
theorem ends_cons {c : ℕ} {t : Text} (hc : Text.isSpace c = true ∨ isMark c = true) : Ends (c :: t) :=
  fun d hd => by
    cases hd
    exact hc

/-- A joined text begins with its first part. -/
theorem join_cons (sep p : Text) (ps : List Text) :
    Text.join sep (p :: ps) = p ++ ps.flatMap (sep ++ ·) := by
  induction ps generalizing p with
  | nil => rw [List.flatMap_nil, List.append_nil, Text.join]
  | cons q ps ih => rw [Text.join, ih, List.flatMap_cons, List.append_assoc, List.append_assoc]

/-- The items after the first, a comma and a space before each. -/
theorem spelled_tail {ss : List Text} {as : List α} (h : List.Forall₂ (Spelled U R) ss as) :
    ∃ vs, Tail R vs as ∧ ∀ {rest : Text} {ts : List Text}, Ends rest → Laid U rest ts →
      Ends (ss.flatMap (lit ", " ++ ·) ++ rest) ∧
        Laid U (ss.flatMap (lit ", " ++ ·) ++ rest) (vs ++ ts) := by
  induction h with
  | nil => exact ⟨[], .nil, fun hends hlaid => ⟨hends, hlaid⟩⟩
  | @cons s a ss as hs _ ih =>
    obtain ⟨us, hus, hbefore⟩ := hs
    obtain ⟨vs, hvs, hmore⟩ := ih
    refine ⟨lit "," :: (us ++ vs), .cons hus hvs, fun {rest ts} hends hlaid => ?_⟩
    obtain ⟨hends', hlaid'⟩ := hmore hends hlaid
    have hitem := hbefore hends' hlaid'
    have hcomma : isMark 0x2C = true := rfl
    rw [List.flatMap_cons, List.append_assoc, List.append_assoc, List.cons_append, List.append_assoc]
    exact ⟨ends_cons (.inr hcomma), .mark hcomma (.space rfl hitem)⟩

/-- **Parentheses about items spell the list of them.** -/
theorem spelled_enclosed {ss : List Text} {as : List α} (h : List.Forall₂ (Spelled U R) ss as)
    (hne : ss ≠ []) : Spelled U (Enclosed R) (lit "(" ++ Text.join (lit ", ") ss ++ lit ")") as := by
  cases h with
  | nil => exact absurd rfl hne
  | @cons s a ss as hs htail =>
    obtain ⟨us, hus, hbefore⟩ := hs
    obtain ⟨vs, hvs, hmore⟩ := spelled_tail htail
    refine ⟨_, .intro hus hvs, fun {rest ts} _ hlaid => ?_⟩
    have hopen : isMark 0x28 = true := rfl
    have hclose : isMark 0x29 = true := rfl
    obtain ⟨hends', hlaid'⟩ := hmore (ends_cons (.inr hclose)) (.mark hclose hlaid)
    have hitems := hbefore hends' hlaid'
    rw [join_cons]
    simp only [List.cons_append, List.append_assoc, List.nil_append] at hitems ⊢
    exact .mark hopen hitems

/-- **A keyword, a space and what it is of.** -/
theorem laid_keyword {k s : Text} {us : List Text} (hk : Word k) (h : LaidBefore U s us) :
    Laid U (k ++ 0x20 :: s) (k :: us) := by
  have hlaid : Laid U (s ++ []) (us ++ []) := h nofun .done
  rw [List.append_nil, List.append_nil] at hlaid
  exact .word hk (ends_cons (.inl rfl)) (.space rfl hlaid)

/-- Items that print what they say, one at least. -/
theorem spelled_items {P : β → α → Prop} {f : β → Except PyError Text} {bs : List β} (hne : bs ≠ [])
    (h : ∀ b ∈ bs, ∃ s a, f b = .ok s ∧ P b a ∧ Spelled U R s a) :
    ∃ ss as, collect (bs.map f) = .ok ss ∧ List.Forall₂ P bs as ∧
      Spelled U (Enclosed R) (lit "(" ++ Text.join (lit ", ") ss ++ lit ")") as := by
  suffices hall : ∃ ss as, collect (bs.map f) = .ok ss ∧ List.Forall₂ P bs as ∧
      List.Forall₂ (Spelled U R) ss as by
    obtain ⟨ss, as, hss, has, hspelled⟩ := hall
    refine ⟨ss, as, hss, has, spelled_enclosed hspelled ?_⟩
    rintro rfl
    cases hspelled
    cases has
    exact hne rfl
  clear hne
  induction bs with
  | nil => exact ⟨[], [], rfl, .nil, .nil⟩
  | cons b bs ih =>
    obtain ⟨s, a, hs, ha, hspelled⟩ := h b List.mem_cons_self
    obtain ⟨ss, as, hss, has, hrest⟩ := ih fun c hc => h c (List.mem_cons_of_mem b hc)
    rw [collect_eq_ok] at hss
    refine ⟨s :: ss, a :: as, ?_, .cons ha has, .cons hspelled hrest⟩
    rw [collect_eq_ok]
    exact .cons hs hss

end Spelled

/-! ## What is printed -/

section Prints

/-- ASCII digits are read as they stand. -/
theorem decimals_of_digits {d : Text} (h : Numeral.Digits d) :
    Decimals U d ∧ asciiDigits U d = d := by
  have hvalue : ∀ c ∈ d, U.value c = some (c - 0x30) ∧ 0x30 ≤ c := fun c hc => by
    have hdigit := h.2 c hc
    have hrange := hdigit
    simp only [isDigit, Bool.and_eq_true, decide_eq_true_eq] at hrange
    rw [U.ascii c (by omega), if_pos hdigit]
    exact ⟨rfl, hrange.1⟩
  refine ⟨fun c hc => by rw [isDecimal, (hvalue c hc).1]; rfl, ?_⟩
  rw [asciiDigits, List.map_congr_left (g := id) fun c hc => ?_, List.map_id]
  rw [(hvalue c hc).1, Option.getD_some, id_eq]
  have hle := (hvalue c hc).2
  omega

/-- **A numeral without an exponent is one number**, and the numeral it is. -/
theorem number_of_wf {l : Numeral} (h : l.Wf) (he : l.exp = none) : Number U l.text l := by
  obtain ⟨neg, int, frac, exp⟩ := l
  subst he
  have hint : Numeral.Digits int := h.digits_int
  obtain ⟨hdec, hascii⟩ := decimals_of_digits U hint
  have hnumber : Number U (minusText neg ++ (int ++ (Numeral.fracText frac ++ []))) _ :=
    .whole neg hdec hint.1 (fun f hf => (decimals_of_digits U (h.frac f hf)).1) .absent
  rw [hascii] at hnumber
  cases frac with
  | none => exact hnumber
  | some f =>
    rw [Option.map_some, (decimals_of_digits U (h.frac f rfl)).2] at hnumber
    exact hnumber

variable [PyFloat F] [LawfulFloat F] [PyMath F] [LawfulFixed F] {L : Library}

/-- **Two printed ordinates spell a position.** -/
theorem spelled_position {x y : F} (hx : PyFloat.isFinite x = true) (hy : PyFloat.isFinite y = true) :
    ∃ q : F × F, (Printed x q.1 ∧ Printed y q.2) ∧
      Spelled U (Position (Written U)) (formatOrdinate x ++ 0x20 :: formatOrdinate y) q := by
  obtain ⟨l, hl, hexp, htext, hprinted⟩ := Vessel.formatOrdinate_spec hx
  obtain ⟨l', hl', hexp', htext', hprinted'⟩ := Vessel.formatOrdinate_spec hy
  have hnumber := number_of_wf U hl hexp
  have hnumber' := number_of_wf U hl' hexp'
  refine ⟨(PyFloat.ofNumeral l, PyFloat.ofNumeral l'), ⟨hprinted, hprinted'⟩, [l.text, l'.text],
    .intro ⟨l, hnumber, rfl⟩ ⟨l', hnumber', rfl⟩, fun {rest ts} hends hlaid => ?_⟩
  rw [htext, htext', List.append_assoc]
  exact .number hnumber (ends_cons (.inl rfl)) (.space rfl (.number hnumber' hends hlaid))

/-- **A validated ring** is printed as its positions in parentheses. -/
theorem spelled_ring {ring : Doc F} (h : Vessel.validateRing ring = .ok ()) :
    ∃ s as, ringText ring = .ok s ∧ Items PrintedVertex ring as ∧
      Spelled U (Enclosed (Position (Written U))) s as := by
  obtain ⟨items, rfl, hlen, -, hitems⟩ := Vessel.validateRing_cases h
  have hne : items ≠ [] := by
    rintro rfl
    cases hlen
  obtain ⟨ss, as, hss, has, hspelled⟩ := spelled_items (U := U) (P := PrintedVertex) (f := vertexText)
    (R := Position (Written U)) hne fun c hc => by
      obtain ⟨x, y, hvertex, hx, hy⟩ := Vessel.validateCoordinate_eq_ok (hitems c hc)
      obtain ⟨q, hq, hspelled⟩ := spelled_position U hx hy
      exact ⟨_, q, by rw [vertexText, hvertex]; rfl, ⟨x, y, hvertex, hq⟩, hspelled⟩
  exact ⟨_, as, by rw [ringText, itemsOf, ok_bind, hss]; rfl, ⟨items, rfl, has⟩, hspelled⟩

/-- **A validated polygon** is printed as its rings in parentheses. -/
theorem spelled_polygon {polygon : Doc F} (h : Vessel.validatePolygon polygon = .ok ()) :
    ∃ s as, polygonText polygon = .ok s ∧ Items (Items PrintedVertex) polygon as ∧
      Spelled U (Enclosed (Enclosed (Position (Written U)))) s as := by
  obtain ⟨outer, holes, rfl, hrings⟩ := Vessel.validatePolygon_cases h
  obtain ⟨ss, as, hss, has, hspelled⟩ := spelled_items (P := Items PrintedVertex)
    (List.cons_ne_nil outer holes) fun r hr => spelled_ring U (hrings r hr)
  exact ⟨_, as, by rw [polygonText, itemsOf, ok_bind, hss]; rfl, ⟨_, rfl, has⟩, hspelled⟩

omit [LawfulFloat F] [LawfulFixed F] in
/-- A validated geometry has a polygon. -/
theorem coordinates_ne_nil {geometry : Members (Doc F)} {polygons : List (Doc F)}
    (h : Vessel.validateGeometry geometry = .ok ())
    (hc : geometry.get (lit "coordinates") = some (.arr polygons)) : polygons ≠ [] := by
  rintro rfl
  have hfield : Ingest.fieldOrNone geometry (lit "coordinates") = .arr [] := by
    rw [Ingest.fieldOrNone, hc]
    rfl
  unfold Vessel.validateGeometry at h
  simp only [hfield] at h
  split at h
  · split_ifs at h
  · cases h
  · cases h
  · cases h

/-- **A validated geofence** is printed as a WKT text of its geometry. -/
theorem wkt_of_geofence {geometry : Members (Doc F)} (h : Vessel.validateGeometry geometry = .ok ()) :
    ∃ t g, geofencePolygonWkt geometry = .ok t ∧ PrintedGeometry geometry g ∧ Wkt U t g := by
  cases Vessel.validateGeometry_cases h with
  | polygon ht hc hpolygon =>
    obtain ⟨s, rs, hs, hrs, us, hus, hbefore⟩ := spelled_polygon U hpolygon
    have hword : Word (lit "POLYGON") := ⟨by decide, by decide⟩
    have hkeyword : Ingest.upperAscii (lit "POLYGON") = lit "POLYGON" := by decide
    refine ⟨lit "POLYGON " ++ s, .polygon rs, ?_, .polygon ht hc hrs, _,
      laid_keyword hword hbefore, .polygon hkeyword hus⟩
    simp only [geofencePolygonWkt, Ingest.field, ht, hc, ok_bind, if_true, hs, pure_eq_ok]
  | @multiPolygon polygons ht hc hpolygons =>
    obtain ⟨ss, ps, hss, hps, us, hus, hbefore⟩ := spelled_items (P := Items (Items PrintedVertex))
      (coordinates_ne_nil h hc) fun p hp => spelled_polygon U (hpolygons p hp)
    have hword : Word (lit "MULTIPOLYGON") := ⟨by decide, by decide⟩
    have hkeyword : Ingest.upperAscii (lit "MULTIPOLYGON") = lit "MULTIPOLYGON" := by decide
    refine ⟨lit "MULTIPOLYGON (" ++ Text.join (lit ", ") ss ++ lit ")", .multiPolygon ps, ?_,
      .multiPolygon ht hc ⟨polygons, rfl, hps⟩, _, laid_keyword hword hbefore,
      .multiPolygon hkeyword hus⟩
    have hne : lit "MultiPolygon" ≠ lit "Polygon" := by decide
    simp only [geofencePolygonWkt, Ingest.field, ht, hc, ok_bind, if_neg hne, if_true, itemsOf, hss,
      pure_eq_ok]

/-- The positions of points, in parentheses. -/
theorem spelled_points {points : List (TrackPoint F)} (hne : points ≠ [])
    (h : ∀ p ∈ points, p.Finite) : ∃ qs, List.Forall₂ PrintedPoint points qs ∧
      Spelled U (Enclosed (Position (Written U)))
        (lit "(" ++ Text.join (lit ", ") (points.map ordinates) ++ lit ")") qs := by
  obtain ⟨ss, qs, hss, hqs, hspelled⟩ := spelled_items (U := U) (P := PrintedPoint (F := F))
    (R := Position (Written U)) (f := fun p => .ok (ordinates p)) hne fun p hp => by
      obtain ⟨q, hq, hspelled⟩ := spelled_position U (h p hp).1 (h p hp).2
      exact ⟨_, q, rfl, hq, hspelled⟩
  rw [collect_map_eq_ok fun p _ => rfl, Except.ok.injEq] at hss
  rw [← hss] at hspelled
  exact ⟨qs, hqs, hspelled⟩

/-- A track is printed as a line of its points. -/
theorem wkt_of_line {points : List (TrackPoint F)} (hne : points ≠ []) (h : ∀ p ∈ points, p.Finite) :
    ∃ qs, List.Forall₂ PrintedPoint points qs ∧ Wkt U (lineWkt points) (.lineString qs) := by
  obtain ⟨qs, hqs, us, hus, hbefore⟩ := spelled_points U hne h
  have hword : Word (lit "LINESTRING") := ⟨by decide, by decide⟩
  exact ⟨qs, hqs, _, laid_keyword hword hbefore, .lineString (by decide) hus⟩

/-- A point is printed as one. -/
theorem wkt_of_point {p : TrackPoint F} (h : p.Finite) :
    ∃ q, PrintedPoint p q ∧ Wkt U (pointWkt p) (.point q) := by
  obtain ⟨qs, hqs, us, hus, hbefore⟩ := spelled_points U (List.cons_ne_nil p [])
    (List.forall_mem_singleton.2 h)
  cases hqs with
  | @cons _ q _ _ hq hnil =>
    cases hnil
    have hword : Word (lit "POINT") := ⟨by decide, by decide⟩
    exact ⟨q, hq, _, laid_keyword hword hbefore, .point (by decide) hus rfl⟩

variable {U} [LawfulText U F]

/-- **What is printed is parsed as the geometry it was printed of**: a line of
points, a point, or a validated geofence. -/
theorem parseWkt_printed :
    (∀ points : List (TrackPoint F), points ≠ [] → (∀ p ∈ points, p.Finite) →
        ∃ qs, parseWkt L U (lineWkt points) = .ok (.lineString qs) ∧
          List.Forall₂ PrintedPoint points qs) ∧
      (∀ p : TrackPoint F, p.Finite →
        ∃ q, parseWkt L U (pointWkt p) = .ok (.point q) ∧ PrintedPoint p q) ∧
      ∀ fence : Geofence F, ∃ t g, geofencePolygonWkt fence.geometry = .ok t ∧
        parseWkt L U t = .ok g ∧ PrintedGeometry fence.geometry g := by
  refine ⟨fun points hne h => ?_, fun p h => ?_, fun fence => ?_⟩
  · obtain ⟨qs, hqs, hwkt⟩ := wkt_of_line U hne h
    exact ⟨qs, parseWkt_of_wkt hwkt, hqs⟩
  · obtain ⟨q, hq, hwkt⟩ := wkt_of_point U h
    exact ⟨q, parseWkt_of_wkt hwkt, hq⟩
  · obtain ⟨t, g, ht, hg, hwkt⟩ := wkt_of_geofence U fence.valid
    exact ⟨t, g, ht, parseWkt_of_wkt hwkt, hg⟩

end Prints

/-! ## Decimals -/

/-- The sample number format prints fixed decimals. -/
theorem lawfulFixed_tokenMath : @LawfulFixed Decimal _ _ tokenMath :=
  @LawfulFixed.mk Decimal _ _ tokenMath (inferInstance : LawfulFixed Decimal).fixed7_shape

/-- A place just west of the meridian: its longitude rounds to a negative zero. -/
def berth : TrackPoint Decimal := ⟨0, .fin true 1 (-9), .fin false 64541 (-4), lit "berth"⟩

/-- A triangle. -/
def islet : Members (Doc Decimal) :=
  let position := fun x y : ℤ => Json.arr [.num (.int x), .num (.int y)]
  [(lit "type", .str (lit "MultiPolygon")),
    (lit "coordinates",
      .arr [.arr [.arr [position 3 6, position 4 6, position 4 7, position 3 6]]])]

/-- A line of one place twice, the place, and a fence. -/
theorem parseWkt_printed_berth :
    (∃ qs, @parseWkt Decimal Library.ascii latinDigits tokenMath
        (@lineWkt Decimal tokenMath [berth, berth]) = .ok (.lineString qs) ∧
          List.Forall₂ PrintedPoint [berth, berth] qs) ∧
      (∃ q, @parseWkt Decimal Library.ascii latinDigits tokenMath
        (@pointWkt Decimal tokenMath berth) = .ok (.point q) ∧ PrintedPoint berth q) ∧
      ∃ t g, @geofencePolygonWkt Decimal _ tokenMath islet = .ok t ∧
        @parseWkt Decimal Library.ascii latinDigits tokenMath t = .ok g ∧
        @PrintedGeometry Decimal _ _ tokenMath islet g := by
  let _ := tokenMath
  have _ := lawfulText_tokenMath
  have _ := lawfulFixed_tokenMath
  have hfinite : berth.Finite := ⟨by decide, by decide⟩
  have hvalid : Vessel.validateGeometry islet = .ok () := toOption_eq_some.1 (by decide +kernel)
  obtain ⟨hline, hpoint, hfence⟩ :=
    parseWkt_printed (F := Decimal) (U := latinDigits) (L := Library.ascii)
  refine ⟨hline [berth, berth] (List.cons_ne_nil _ _) ?_, hpoint berth hfinite,
    hfence ⟨lit "islet", islet, by decide, hvalid⟩⟩
  intro p hp
  simp only [List.mem_cons, List.not_mem_nil, or_false, or_self] at hp
  rw [hp]
  exact hfinite

end GeoParquet

end Lakehouse

import Lakehouse.Common.FloatMath
import Lakehouse.GeoParquet.Tokens
import Lakehouse.GeoParquet.Wkb
import Lakehouse.Ingest.Decode
/-!
# The WKT parser

A recursive descent over the tokens of a text. It accepts just the tokens
that spell a geometry whose ordinates are what `float` accepts and whose
points may list positions after the first (`parseWkt_eq_ok`), and raises
`ValueError` at all others (`parseWkt_raises`).
-/

namespace Lakehouse

namespace GeoParquet

/-! ## The parser -/

/-- What reads a value off the tokens that remain. -/
abbrev WktParser (α : Type) : Type := StateT (List Text) (Except PyError) α

variable {α F : Type} (L : Library) (U : DecimalDigits)

/-- A `ValueError`. -/
def refuse (message : Text) : WktParser α := fun _ => .error (.valueError message)

/-- **`_peek`.** -/
def peek : WktParser Text
  | [] => .error (.valueError (lit "unexpected end of WKT"))
  | token :: tokens => .ok (token, token :: tokens)

/-- **`_next`.** -/
def next : WktParser Text := do
  let token ← peek
  modify List.tail
  return token

/-- **`_expect`.** -/
def expect (expected : Text) : WktParser Unit := do
  let token ← next
  if token ≠ expected then
    refuse (lit "expected " ++ L.reprText expected ++ lit " in WKT, found " ++ L.reprText token)
  else return ()

/-- **`_number`.** -/
def number [PyMath F] : WktParser F := do
  let token ← next
  match PyMath.ofText token with
  | some value => return value
  | none => refuse (lit "malformed ordinate " ++ L.reprText token ++ lit " in WKT")

/-- **`_position`.** -/
def position [PyMath F] : WktParser (F × F) := do
  let x ← number L
  let y ← number L
  return (x, y)

/-- `while self._peek() == ","`. Every turn takes a comma, so the fuel of
one turn a token and a last look suffices. -/
def more (item : WktParser α) : ℕ → WktParser (List α)
  | 0 => refuse (lit "unexpected end of WKT")
  | fuel + 1 => do
    if (← peek) = lit "," then do
      let _ ← next
      let a ← item
      return a :: (← more item fuel)
    else return []

/-- What stands in parentheses, separated by commas. -/
def enclosed (item : WktParser α) : WktParser (List α) := do
  expect L (lit "(")
  let first ← item
  let rest ← more item ((← get).length + 1)
  expect L (lit ")")
  return first :: rest

/-- **`_position_list`.** -/
def positionList [PyMath F] : WktParser (List (F × F)) := enclosed L (position L)

/-- **`_polygon`.** -/
def polygon [PyMath F] : WktParser (List (List (F × F))) := enclosed L (positionList L)

/-- **`parse`.** -/
def parse [PyMath F] : WktParser (Geometry F) := do
  let keyword := Ingest.upperAscii (← next)
  if keyword = lit "POINT" then
    match ← positionList L with
    | first :: _ => return .point first
    | [] => fun _ => .error .indexError
  else if keyword = lit "LINESTRING" then return .lineString (← positionList L)
  else if keyword = lit "POLYGON" then return .polygon (← polygon L)
  else if keyword = lit "MULTIPOLYGON" then return .multiPolygon (← enclosed L (polygon L))
  else refuse (lit "unsupported WKT geometry type " ++ L.reprText keyword)

/-- **`parse_wkt`.** -/
def parseWkt [PyMath F] (wkt : Text) : Except PyError (Geometry F) :=
  if findall U wkt = [] then .error (.valueError (lit "geometry WKT is empty or malformed"))
  else do
    let (geometry, rest) ← parse L (findall U wkt)
    if rest ≠ [] then .error (.valueError (lit "trailing tokens after WKT geometry"))
    else return geometry

/-! ## The grammar of tokens -/

/-- Items after the first, a comma before each. -/
inductive Tail (R : List Text → α → Prop) : List Text → List α → Prop
  | nil : Tail R [] []
  | cons {us vs : List Text} {a : α} {as : List α} : R us a → Tail R vs as →
      Tail R (lit "," :: (us ++ vs)) (a :: as)

/-- **Items in parentheses**, one at least. -/
inductive Enclosed (R : List Text → α → Prop) : List Text → List α → Prop
  | intro {us vs : List Text} {a : α} {as : List α} : R us a → Tail R vs as →
      Enclosed R (lit "(" :: (us ++ (vs ++ [lit ")"]))) (a :: as)

/-- Two ordinates, under what an ordinate says. -/
inductive Position (R : Text → F → Prop) : List Text → F × F → Prop
  | intro {s t : Text} {x y : F} : R s x → R t y → Position R [s, t] (x, y)

/-- **The tokens of a geometry**, under what an ordinate says and what may
follow the first position of a point. -/
inductive Spells (R : Text → F → Prop) (admits : List (F × F) → Prop) : List Text → Geometry F → Prop
  | point {k : Text} {ts : List Text} {p : F × F} {ps : List (F × F)} :
      Ingest.upperAscii k = lit "POINT" → Enclosed (Position R) ts (p :: ps) → admits ps →
      Spells R admits (k :: ts) (.point p)
  | lineString {k : Text} {ts : List Text} {ps : List (F × F)} :
      Ingest.upperAscii k = lit "LINESTRING" → Enclosed (Position R) ts ps →
      Spells R admits (k :: ts) (.lineString ps)
  | polygon {k : Text} {ts : List Text} {rs : List (List (F × F))} :
      Ingest.upperAscii k = lit "POLYGON" → Enclosed (Enclosed (Position R)) ts rs →
      Spells R admits (k :: ts) (.polygon rs)
  | multiPolygon {k : Text} {ts : List Text} {ps : List (List (List (F × F)))} :
      Ingest.upperAscii k = lit "MULTIPOLYGON" → Enclosed (Enclosed (Enclosed (Position R))) ts ps →
      Spells R admits (k :: ts) (.multiPolygon ps)

/-- What `float` makes of a token. -/
def Reads [PyMath F] (w : Text) (x : F) : Prop := PyMath.ofText w = some x

/-- **The tokens the parser accepts.** -/
abbrev SpellsAny [PyMath F] (ts : List Text) (g : Geometry F) : Prop := Spells Reads (fun _ => True) ts g

/-! ## What the parser accepts -/

section Accepts

variable {β : Type} {L} {U} {ts rest : List Text}

/-- One parser after another takes what both take. -/
theorem parser_bind_eq_ok {x : WktParser α} {f : α → WktParser β} {b : β} :
    (x >>= f) ts = .ok (b, rest) ↔ ∃ a us, x ts = .ok (a, us) ∧ f a us = .ok (b, rest) := by
  change (x ts >>= fun p => f p.1 p.2) = _ ↔ _
  rw [bind_eq_ok]
  exact ⟨fun ⟨⟨a, us⟩, hx, hf⟩ => ⟨a, us, hx, hf⟩, fun ⟨a, us, hx, hf⟩ => ⟨(a, us), hx, hf⟩⟩

/-- The next token is the first one. -/
theorem next_eq_ok {token : Text} : next ts = .ok (token, rest) ↔ ts = token :: rest := by
  cases ts with
  | nil => exact ⟨nofun, nofun⟩
  | cons t ts =>
    change Except.ok (t, ts) = .ok (token, rest) ↔ _
    rw [Except.ok.injEq, Prod.mk.injEq, List.cons.injEq]

/-- The token expected is the first one. -/
theorem expect_eq_ok {expected : Text} {u : Unit} :
    expect L expected ts = .ok (u, rest) ↔ ts = expected :: rest := by
  rw [expect, parser_bind_eq_ok]
  constructor
  · rintro ⟨token, us, hnext, h⟩
    split_ifs at h with hne
    · cases h
    · rw [not_not] at hne
      cases h
      rw [next_eq_ok.1 hnext, hne]
  · rintro rfl
    exact ⟨expected, rest, next_eq_ok.2 rfl, by rw [if_neg (not_not.2 rfl)]; rfl⟩

/-- **A parser takes what a relation says**, off the front of any tokens. -/
def Takes (p : WktParser α) (R : List Text → α → Prop) : Prop :=
  ∀ {ts rest : List Text} {a : α}, p ts = .ok (a, rest) ↔ ∃ us, R us a ∧ ts = us ++ rest

/-- A number is a token that reads as it. -/
theorem number_eq_ok [PyMath F] {x : F} :
    number L ts = .ok (x, rest) ↔ ∃ w, Reads w x ∧ ts = w :: rest := by
  rw [number, parser_bind_eq_ok]
  constructor
  · rintro ⟨w, us, hnext, h⟩
    cases hw : PyMath.ofText (F := F) w with
    | none =>
      rw [hw] at h
      cases h
    | some value =>
      rw [hw] at h
      cases h
      exact ⟨w, hw, next_eq_ok.1 hnext⟩
  · rintro ⟨w, hw, rfl⟩
    exact ⟨w, rest, next_eq_ok.2 rfl, by rw [show PyMath.ofText w = some x from hw]; rfl⟩

/-- A position takes two numbers. -/
theorem takes_position [PyMath F] : Takes (position (F := F) L) (Position Reads) := by
  intro ts rest a
  rw [position, parser_bind_eq_ok]
  constructor
  · rintro ⟨x, us, hx, h⟩
    obtain ⟨y, vs, hy, hpair⟩ := parser_bind_eq_ok.1 h
    cases hpair
    obtain ⟨s, hs, rfl⟩ := number_eq_ok.1 hx
    obtain ⟨t, ht, rfl⟩ := number_eq_ok.1 hy
    exact ⟨[s, t], .intro hs ht, rfl⟩
  · rintro ⟨_, ⟨hs, ht⟩, rfl⟩
    exact ⟨_, _, number_eq_ok.2 ⟨_, hs, rfl⟩,
      parser_bind_eq_ok.2 ⟨_, _, number_eq_ok.2 ⟨_, ht, rfl⟩, rfl⟩⟩

/-- The loop over the items after the first: it stops before a token that is
no comma. -/
theorem more_eq_ok {item : WktParser α} {R : List Text → α → Prop} (h : Takes item R) {fuel : ℕ}
    {as : List α} (hf : ts.length < fuel) :
    more item fuel ts = .ok (as, rest) ↔
      ∃ us c rest', Tail R us as ∧ ts = us ++ rest ∧ rest = c :: rest' ∧ c ≠ lit "," := by
  induction fuel generalizing ts as with
  | zero => exact absurd hf (Nat.not_lt_zero _)
  | succ fuel ih =>
    cases ts with
    | nil =>
      refine iff_of_false nofun ?_
      rintro ⟨us, c, rest', -, hts, rfl, -⟩
      exact List.append_ne_nil_of_right_ne_nil us (List.cons_ne_nil c rest') hts.symm
    | cons t ts =>
      rw [List.length_cons, Nat.succ_lt_succ_iff] at hf
      rw [more, parser_bind_eq_ok]
      constructor
      · rintro ⟨t', ts', hpeek, hm⟩
        cases hpeek
        split_ifs at hm with hcomma
        · obtain ⟨_, _, hnext, hitem⟩ := parser_bind_eq_ok.1 hm
          cases next_eq_ok.1 hnext
          obtain ⟨a, vs, ha, hloop⟩ := parser_bind_eq_ok.1 hitem
          obtain ⟨as', ws, has, hlist⟩ := parser_bind_eq_ok.1 hloop
          cases hlist
          obtain ⟨us, hus, rfl⟩ := h.1 ha
          have hlen : vs.length < fuel := by
            rw [List.length_append] at hf
            omega
          obtain ⟨us', c, rest', htail, rfl, rfl, hc⟩ := (ih hlen).1 has
          exact ⟨lit "," :: (us ++ us'), c, rest', .cons hus htail,
            by rw [hcomma, List.cons_append, List.append_assoc], rfl, hc⟩
        · cases hm
          exact ⟨[], t, ts, .nil, rfl, rfl, hcomma⟩
      · rintro ⟨us, c, rest', htail, hts, rfl, hc⟩
        refine ⟨t, t :: ts, rfl, ?_⟩
        cases htail with
        | nil =>
          cases hts
          rw [if_neg hc]
          rfl
        | @cons us vs a as ha htail =>
          rw [List.cons_append, List.append_assoc] at hts
          cases hts
          rw [if_pos rfl]
          have hlen : (vs ++ c :: rest').length < fuel := by
            rw [List.length_append] at hf
            omega
          exact parser_bind_eq_ok.2 ⟨_, _, next_eq_ok.2 rfl, parser_bind_eq_ok.2
            ⟨a, _, h.2 ⟨us, ha, rfl⟩, parser_bind_eq_ok.2
              ⟨as, _, (ih hlen).2 ⟨vs, c, rest', htail, rfl, rfl, hc⟩, rfl⟩⟩⟩

/-- **Parentheses about items are taken whole.** -/
theorem takes_enclosed {item : WktParser α} {R : List Text → α → Prop} (h : Takes item R) :
    Takes (enclosed L item) (Enclosed R) := by
  intro ts rest as
  rw [enclosed, parser_bind_eq_ok]
  have hclose : lit ")" ≠ lit "," := by decide
  constructor
  · rintro ⟨_, ts', hopen, hp⟩
    obtain ⟨a, us, ha, hloop⟩ := parser_bind_eq_ok.1 hp
    obtain ⟨tokens, _, hget, hrest⟩ := parser_bind_eq_ok.1 hloop
    cases hget
    obtain ⟨as', vs, hmore, hlast⟩ := parser_bind_eq_ok.1 hrest
    obtain ⟨_, ws, hshut, hlist⟩ := parser_bind_eq_ok.1 hlast
    cases hlist
    obtain rfl := expect_eq_ok.1 hopen
    obtain rfl := expect_eq_ok.1 hshut
    obtain ⟨us, hus, rfl⟩ := h.1 ha
    obtain ⟨vs, _, _, htail, rfl, -, -⟩ := (more_eq_ok h (Nat.lt_succ_self _)).1 hmore
    exact ⟨_, .intro hus htail, by simp only [List.cons_append, List.append_assoc, List.nil_append]⟩
  · rintro ⟨_, @⟨us, vs, a, as, ha, htail⟩, rfl⟩
    rw [List.cons_append, List.append_assoc, List.append_assoc, List.singleton_append]
    refine ⟨(), _, expect_eq_ok.2 rfl, parser_bind_eq_ok.2 ⟨a, _, h.2 ⟨us, ha, rfl⟩,
      parser_bind_eq_ok.2 ⟨_, _, rfl, parser_bind_eq_ok.2 ⟨as, lit ")" :: rest, ?_, ?_⟩⟩⟩⟩
    · exact (more_eq_ok h (Nat.lt_succ_self _)).2 ⟨vs, _, _, htail, rfl, rfl, hclose⟩
    · exact parser_bind_eq_ok.2 ⟨(), rest, expect_eq_ok.2 rfl, rfl⟩

/-- A list of positions takes them with their marks. -/
theorem takes_positionList [PyMath F] :
    Takes (positionList (F := F) L) (Enclosed (Position Reads)) := takes_enclosed takes_position

/-- A polygon takes its rings with their marks. -/
theorem takes_polygon [PyMath F] : Takes (polygon (F := F) L) (Enclosed (Enclosed (Position Reads))) :=
  takes_enclosed takes_positionList

/-- **The parser takes the tokens of a geometry.** -/
theorem takes_parse [PyMath F] : Takes (parse (F := F) L) SpellsAny := by
  intro ts rest g
  rw [parse, parser_bind_eq_ok]
  -- no keyword is another, so the branches exclude each other
  have h₁ : lit "LINESTRING" ≠ lit "POINT" := by decide
  have h₂ : lit "POLYGON" ≠ lit "POINT" ∧ lit "POLYGON" ≠ lit "LINESTRING" := by decide
  have h₃ : lit "MULTIPOLYGON" ≠ lit "POINT" ∧ lit "MULTIPOLYGON" ≠ lit "LINESTRING" ∧
      lit "MULTIPOLYGON" ≠ lit "POLYGON" := by decide
  constructor
  · rintro ⟨k, us, hnext, hp⟩
    obtain rfl := next_eq_ok.1 hnext
    split_ifs at hp with hpoint hline hpolygon hmulti
    · obtain ⟨ps, vs, hps, hgeometry⟩ := parser_bind_eq_ok.1 hp
      obtain ⟨ws, hws, rfl⟩ := takes_positionList.1 hps
      cases ps with
      | nil => cases hgeometry
      | cons p ps =>
        cases hgeometry
        exact ⟨k :: ws, .point hpoint hws trivial, rfl⟩
    · obtain ⟨ps, vs, hps, hgeometry⟩ := parser_bind_eq_ok.1 hp
      cases hgeometry
      obtain ⟨ws, hws, rfl⟩ := takes_positionList.1 hps
      exact ⟨k :: ws, .lineString hline hws, rfl⟩
    · obtain ⟨rs, vs, hrs, hgeometry⟩ := parser_bind_eq_ok.1 hp
      cases hgeometry
      obtain ⟨ws, hws, rfl⟩ := takes_polygon.1 hrs
      exact ⟨k :: ws, .polygon hpolygon hws, rfl⟩
    · obtain ⟨ps, vs, hps, hgeometry⟩ := parser_bind_eq_ok.1 hp
      cases hgeometry
      obtain ⟨ws, hws, rfl⟩ := (takes_enclosed takes_polygon).1 hps
      exact ⟨k :: ws, .multiPolygon hmulti hws, rfl⟩
    · cases hp
  · rintro ⟨us, hus, rfl⟩
    cases hus with
    | @point k us p ps hk hps =>
      refine ⟨k, us ++ rest, next_eq_ok.2 rfl, ?_⟩
      rw [if_pos hk]
      exact parser_bind_eq_ok.2 ⟨p :: ps, rest, takes_positionList.2 ⟨us, hps, rfl⟩, rfl⟩
    | @lineString k us ps hk hps =>
      refine ⟨k, us ++ rest, next_eq_ok.2 rfl, ?_⟩
      rw [hk, if_neg h₁, if_pos rfl]
      exact parser_bind_eq_ok.2 ⟨ps, rest, takes_positionList.2 ⟨us, hps, rfl⟩, rfl⟩
    | @polygon k us rs hk hrs =>
      refine ⟨k, us ++ rest, next_eq_ok.2 rfl, ?_⟩
      rw [hk, if_neg h₂.1, if_neg h₂.2, if_pos rfl]
      exact parser_bind_eq_ok.2 ⟨rs, rest, takes_polygon.2 ⟨us, hrs, rfl⟩, rfl⟩
    | @multiPolygon k us ps hk hps =>
      refine ⟨k, us ++ rest, next_eq_ok.2 rfl, ?_⟩
      rw [hk, if_neg h₃.1, if_neg h₃.2.1, if_neg h₃.2.2, if_pos rfl]
      exact parser_bind_eq_ok.2 ⟨ps, rest, (takes_enclosed takes_polygon).2 ⟨us, hps, rfl⟩, rfl⟩

/-- **`parse_wkt` accepts the texts whose tokens spell a geometry.** -/
theorem parseWkt_eq_ok [PyMath F] {t : Text} {g : Geometry F} :
    parseWkt L U t = .ok g ↔ SpellsAny (findall U t) g := by
  unfold parseWkt
  constructor
  · intro h
    split_ifs at h
    obtain ⟨⟨g', rest⟩, hparse, h⟩ := bind_eq_ok.1 h
    dsimp only at h
    split_ifs at h with hrest
    cases h
    rw [not_not] at hrest
    obtain ⟨us, hus, hts⟩ := takes_parse.1 hparse
    rw [hrest, List.append_nil] at hts
    rwa [hts]
  · intro h
    have hne : findall U t ≠ [] := by
      intro hnil
      rw [hnil] at h
      cases h
    have hparse : parse L (findall U t) = .ok (g, []) :=
      takes_parse.2 ⟨_, h, (List.append_nil _).symm⟩
    rw [if_neg hne, hparse, ok_bind]
    exact if_neg (not_not.2 rfl)

end Accepts

/-! ## What it raises -/

section Raises

variable {β : Type} {L}

/-- A parser raises `ValueError` alone. -/
def Refuses (p : WktParser α) : Prop := ∀ ts, OnlyRaises ValueError (p ts)

/-- One parser after another refuses as they do. -/
theorem Refuses.bind {x : WktParser α} {f : α → WktParser β} (hx : Refuses x)
    (hf : ∀ a, Refuses (f a)) : Refuses (x >>= f) := fun ts =>
  (hx ts).bind fun p _ => hf p.1 p.2

/-- A parser that takes nothing refuses nothing. -/
theorem refuses_pure (a : α) : Refuses (pure a) := fun ts => OnlyRaises.ok (a, ts)

/-- A refusal is a `ValueError`. -/
theorem refuses_refuse (message : Text) : Refuses (refuse (α := α) message) := fun _ =>
  OnlyRaises.error rfl

/-- Looking ahead refuses with a `ValueError`. -/
theorem refuses_peek : Refuses peek := fun ts => by
  cases ts with
  | nil => exact OnlyRaises.error rfl
  | cons t ts => exact OnlyRaises.ok _

/-- A missing token is refused with a `ValueError`. -/
theorem refuses_next : Refuses next :=
  refuses_peek.bind fun _ => fun _ => OnlyRaises.ok _

/-- Another token is refused with a `ValueError`. -/
theorem refuses_expect (expected : Text) : Refuses (expect L expected) :=
  refuses_next.bind fun token => by
    split_ifs
    · exact refuses_refuse _
    · exact refuses_pure ()

/-- A token that is no number is refused with a `ValueError`. -/
theorem refuses_number [PyMath F] : Refuses (number (F := F) L) :=
  refuses_next.bind fun token => by
    cases PyMath.ofText (F := F) token with
    | none => exact refuses_refuse _
    | some value => exact refuses_pure value

/-- What is no position is refused with a `ValueError`. -/
theorem refuses_position [PyMath F] : Refuses (position (F := F) L) :=
  refuses_number.bind fun _ => refuses_number.bind fun _ => refuses_pure _

/-- Further items are refused as the item is. -/
theorem refuses_more {item : WktParser α} (h : Refuses item) (fuel : ℕ) : Refuses (more item fuel) := by
  induction fuel with
  | zero => exact refuses_refuse _
  | succ fuel ih =>
    refine refuses_peek.bind fun token => ?_
    split_ifs
    · exact refuses_next.bind fun _ => h.bind fun _ => ih.bind fun _ => refuses_pure _
    · exact refuses_pure []

/-- An enclosed list is refused as its item is. -/
theorem refuses_enclosed {item : WktParser α} (h : Refuses item) : Refuses (enclosed L item) :=
  (refuses_expect _).bind fun _ => h.bind fun _ => Refuses.bind (fun ts => OnlyRaises.ok (ts, ts))
    fun _ => (refuses_more h _).bind fun _ => (refuses_expect _).bind fun _ => refuses_pure _

/-- What is no list of positions is refused with a `ValueError`. -/
theorem refuses_positionList [PyMath F] : Refuses (positionList (F := F) L) :=
  refuses_enclosed refuses_position

/-- What is no polygon is refused with a `ValueError`. -/
theorem refuses_polygon [PyMath F] : Refuses (polygon (F := F) L) :=
  refuses_enclosed refuses_positionList

/-- A position list is not empty, so its first item is there. -/
theorem refuses_parse [PyMath F] : Refuses (parse (F := F) L) := by
  refine refuses_next.bind fun k => ?_
  dsimp only
  split_ifs
  · intro ts
    refine (refuses_positionList ts).bind fun p hp => ?_
    obtain ⟨ps, rest⟩ := p
    obtain ⟨us, hus, -⟩ := takes_positionList.1 hp
    cases hus
    exact OnlyRaises.ok _
  · exact refuses_positionList.bind fun _ => refuses_pure _
  · exact refuses_polygon.bind fun _ => refuses_pure _
  · exact (refuses_enclosed refuses_polygon).bind fun _ => refuses_pure _
  · exact refuses_refuse _

/-- **What `parse_wkt` does not accept, it refuses.** -/
theorem parseWkt_raises [PyMath F] (t : Text) : OnlyRaises ValueError (parseWkt (F := F) L U t) := by
  unfold parseWkt
  split_ifs
  · exact OnlyRaises.error rfl
  · refine (refuses_parse _).bind fun p _ => ?_
    dsimp only
    split_ifs
    · exact OnlyRaises.error rfl
    · exact OnlyRaises.ok _

end Raises

end GeoParquet

end Lakehouse

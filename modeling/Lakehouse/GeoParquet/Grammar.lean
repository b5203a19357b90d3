import Lakehouse.Common.Decimal
import Lakehouse.GeoParquet.Parse
/-!
# The WKT grammar

A WKT text of a geometry is its tokens laid out with whitespace, the
ordinates numbers, a point of one position. The parser accepts every such
text as the geometry it is (`parseWkt_of_wkt`). It accepts others too: what
the pattern does not match is passed over, `float` reads words, and a point
takes the first of its positions. A text the parser and the grammar agree
on is one whose tokens spell nothing, or one that is read as it is written
(`accepts_grammar_iff`).
-/

namespace Lakehouse

namespace GeoParquet

variable {α F : Type} (U : DecimalDigits)

/-- The number written there. -/
def Written [PyFloat F] (w : Text) (x : F) : Prop := ∃ l, Number U w l ∧ x = PyFloat.ofNumeral l

/-- **A WKT text of a geometry.** -/
def Wkt [PyFloat F] (t : Text) (g : Geometry F) : Prop :=
  ∃ ts, Laid U t ts ∧ Spells (Written U) (· = []) ts g

/-- **What the language documents of `float`** on the tokens of the pattern:
a number is read, and a mark is none. -/
class LawfulText (F : Type) [PyFloat F] [PyMath F] : Prop where
  ofText_number : ∀ {w l}, Number U w l → (PyMath.ofText w : Option F) = some (PyFloat.ofNumeral l)
  ofText_mark : ∀ {c}, isMark c = true → (PyMath.ofText [c] : Option F) = none

/-- **A text read as it is written**: only whitespace is passed over and
numbers stand apart, no word follows the keyword, and a point has no comma. -/
structure AsWritten (t : Text) : Prop where
  laid : Laid U t (findall U t)
  noWord : ∀ w ∈ (findall U t).tail, ¬Word w
  onePosition : ∀ k ∈ (findall U t).head?, Ingest.upperAscii k = lit "POINT" → lit "," ∉ findall U t

/-! ## The ordinates of a geometry -/

section Ordinates

variable {ts : List Text}

/-- A tail of items of one kind is one of a wider kind. -/
theorem Tail.mono {R R' : List Text → α → Prop} {as : List α}
    (h : ∀ us a, (∀ w ∈ us, w ∈ ts) → R us a → R' us a) (ht : Tail R ts as) : Tail R' ts as := by
  induction ht with
  | nil => exact .nil
  | cons ha _ ih =>
    refine .cons (h _ _ (fun w hw => ?_) ha) (ih fun us a hus => h us a fun w hw => ?_)
    · exact List.mem_cons_of_mem _ (List.mem_append_left _ hw)
    · exact List.mem_cons_of_mem _ (List.mem_append_right _ (hus w hw))

/-- Enclosed items of one kind are enclosed ones of a wider kind. -/
theorem Enclosed.mono {R R' : List Text → α → Prop} {as : List α}
    (h : ∀ us a, (∀ w ∈ us, w ∈ ts) → R us a → R' us a) (he : Enclosed R ts as) :
    Enclosed R' ts as := by
  cases he with
  | intro ha htail =>
    refine .intro (h _ _ (fun w hw => ?_) ha) (htail.mono fun us a hus => h us a fun w hw => ?_)
    · exact List.mem_cons_of_mem _ (List.mem_append_left _ hw)
    · exact List.mem_cons_of_mem _ (List.mem_append_right _ (List.mem_append_left _ (hus w hw)))

/-- A position of one kind of numbers is one of a wider kind. -/
theorem Position.mono {R R' : Text → F → Prop} {p : F × F} (h : ∀ w x, w ∈ ts → R w x → R' w x)
    (hp : Position R ts p) : Position R' ts p := by
  cases hp with
  | intro hs ht => exact .intro (h _ _ (by simp) hs) (h _ _ (by simp) ht)

/-- **Another reading of the same ordinates.** -/
theorem Spells.mono {R R' : Text → F → Prop} {admits admits' : List (F × F) → Prop} {k : Text}
    {g : Geometry F} (h : ∀ w x, w ∈ ts → R w x → R' w x)
    (ha : ∀ p ps, Ingest.upperAscii k = lit "POINT" → Enclosed (Position R) ts (p :: ps) →
      admits ps → admits' ps) (hs : Spells R admits (k :: ts) g) : Spells R' admits' (k :: ts) g := by
  have hposition : ∀ us p, (∀ w ∈ us, w ∈ ts) → Position R us p → Position R' us p :=
    fun us p hus => Position.mono fun w x hw => h w x (hus w hw)
  have hlist : ∀ us ps, (∀ w ∈ us, w ∈ ts) → Enclosed (Position R) us ps →
      Enclosed (Position R') us ps :=
    fun us ps hus => Enclosed.mono fun vs p hvs => hposition vs p fun w hw => hus w (hvs w hw)
  have hrings : ∀ us rs, (∀ w ∈ us, w ∈ ts) → Enclosed (Enclosed (Position R)) us rs →
      Enclosed (Enclosed (Position R')) us rs :=
    fun us rs hus => Enclosed.mono fun vs ps hvs => hlist vs ps fun w hw => hus w (hvs w hw)
  cases hs with
  | @point _ _ p ps hk hps hadmits =>
    exact .point hk (hlist ts _ (fun _ => id) hps) (ha p ps hk hps hadmits)
  | lineString hk hps => exact .lineString hk (hlist ts _ (fun _ => id) hps)
  | polygon hk hrs => exact .polygon hk (hrings ts _ (fun _ => id) hrs)
  | multiPolygon hk hps =>
    exact .multiPolygon hk (hps.mono hrings)

/-- What holds of the tokens of each item and of the comma holds of a tail's.
-/
theorem Tail.forall {P : Text → Prop} {R : List Text → α → Prop} {as : List α} (hc : P (lit ","))
    (h : ∀ us a, R us a → ∀ w ∈ us, P w) (ht : Tail R ts as) : ∀ w ∈ ts, P w := by
  induction ht with
  | nil => nofun
  | cons ha _ ih => exact List.forall_mem_cons.2 ⟨hc, List.forall_mem_append.2 ⟨h _ _ ha, ih⟩⟩

/-- What holds of the marks and of the tokens of the items. -/
theorem Enclosed.forall {P : Text → Prop} {R : List Text → α → Prop} {as : List α}
    (hmark : ∀ c, isMark c = true → P [c]) (h : ∀ us a, R us a → ∀ w ∈ us, P w)
    (he : Enclosed R ts as) : ∀ w ∈ ts, P w := by
  cases he with
  | intro ha htail =>
    exact List.forall_mem_cons.2 ⟨hmark _ rfl, List.forall_mem_append.2 ⟨h _ _ ha,
      List.forall_mem_append.2 ⟨htail.forall (hmark _ rfl) h, List.forall_mem_singleton.2 (hmark _ rfl)⟩⟩⟩

/-- **After its keyword a geometry is ordinates and marks.** -/
theorem Spells.forall {P : Text → Prop} {R : Text → F → Prop} {admits : List (F × F) → Prop} {k : Text}
    {g : Geometry F} (hmark : ∀ c, isMark c = true → P [c]) (h : ∀ w x, R w x → P w)
    (hs : Spells R admits (k :: ts) g) : ∀ w ∈ ts, P w := by
  have hposition : ∀ us p, Position R us p → ∀ w ∈ us, P w := by
    rintro _ _ ⟨hs, ht⟩
    exact List.forall_mem_cons.2 ⟨h _ _ hs, List.forall_mem_singleton.2 (h _ _ ht)⟩
  cases hs with
  | point _ hps _ => exact hps.forall hmark hposition
  | lineString _ hps => exact hps.forall hmark hposition
  | polygon _ hrs => exact hrs.forall hmark fun us ps hps => hps.forall hmark hposition
  | multiPolygon _ hps =>
    exact hps.forall hmark fun us rs hrs => hrs.forall hmark fun us ps hps => hps.forall hmark hposition

/-- A list of one item has no comma of its own. -/
theorem Enclosed.comma_mem {R : List Text → α → Prop} {a : α} {as : List α}
    (he : Enclosed R ts (a :: as)) (hne : as ≠ []) : lit "," ∈ ts := by
  cases he with
  | intro ha htail =>
    cases htail with
    | nil => exact absurd rfl hne
    | cons => simp

end Ordinates

/-! ## Where the parser and the grammar agree -/

section Agree

variable {U} {L : Library} {t : Text} {g : Geometry F}

/-- A geometry is spelt in one token at least. -/
theorem Spells.exists_cons {R : Text → F → Prop} {admits : List (F × F) → Prop} {ts : List Text}
    (h : Spells R admits ts g) : ∃ k us, ts = k :: us := by
  cases h
  all_goals exact ⟨_, _, rfl⟩

/-- A number is not a word. -/
theorem Number.not_word {w : Text} {l : Numeral} (h : Number U w l) : ¬Word w := fun hw => by
  obtain ⟨c, w, rfl⟩ := List.exists_cons_of_ne_nil hw.1
  have hstops := (h.stops_letter []).2
  rw [List.append_nil, stops_cons] at hstops
  rw [hw.2 c List.mem_cons_self] at hstops
  cases hstops

/-- A mark is not a word. -/
theorem not_word_mark {c : ℕ} (hc : isMark c = true) : ¬Word [c] := fun hw => by
  have hletter := hw.2 c List.mem_cons_self
  rw [(ends_class (.inr hc)).1] at hletter
  cases hletter

/-- No number is a mark. -/
theorem Number.ne_mark {w : Text} {l : Numeral} (h : Number U w l) {c : ℕ} (hc : isMark c = true) :
    w ≠ [c] := by
  rintro rfl
  have hnumber : matchNumber U ([c] ++ []) = some ([c], []) := matchNumber_of_number h nofun
  rw [List.append_nil, (matchNumber_none (.inr hc)).2] at hnumber
  cases hnumber

/-- Nothing but whitespace is passed over in a text laid out as tokens. -/
theorem Laid.filter {ts : List Text} (h : Laid U t ts) :
    t.filter (fun c => !Text.isSpace c) = ts.flatten.filter (fun c => !Text.isSpace c) := by
  induction h with
  | done => rfl
  | @space c t ts hc _ ih => rw [List.filter_cons_of_neg (by simp [hc]), ih]
  | @mark c t ts _ _ ih =>
    rw [List.flatten_cons, List.filter_append, ← ih, ← List.filter_append]
    rfl
  | word _ _ _ ih | number _ _ _ ih => rw [List.flatten_cons, List.filter_append, List.filter_append, ih]

variable [PyFloat F]

/-- **A WKT text is read as it is written.** -/
theorem asWritten_of_wkt (h : Wkt U t g) : AsWritten U t := by
  obtain ⟨ts, hlaid, hs⟩ := h
  obtain ⟨k, us, rfl⟩ := hs.exists_cons
  have hfound := findall_of_laid hlaid
  refine ⟨by rwa [hfound], ?_, ?_⟩
  · rw [hfound, List.tail_cons]
    exact hs.forall (fun c => not_word_mark) fun w x ⟨l, hl, _⟩ => hl.not_word
  · rw [hfound]
    intro k' hk' hpoint
    cases hk'
    have hcomma : isMark 0x2C = true := rfl
    cases hs with
    | point _ hps hnone =>
      subst hnone
      cases hps with
      | intro hp htail =>
        cases htail
        obtain @⟨s, t, _, _, ⟨l, hl, -⟩, ⟨l', hl', -⟩⟩ := hp
        have hk : lit "," ≠ k := by
          rintro rfl
          exact absurd hpoint (by decide)
        have hopen : lit "," ≠ lit "(" := by decide
        have hclose : lit "," ≠ lit ")" := by decide
        simp only [List.nil_append, List.cons_append, List.mem_cons, List.not_mem_nil, or_false,
          hk, hopen, hclose, false_or, not_or]
        exact ⟨(hl.ne_mark hcomma).symm, (hl'.ne_mark hcomma).symm⟩
    | lineString hk | polygon hk | multiPolygon hk =>
      rw [hk] at hpoint
      exact absurd hpoint (by decide)

variable [PyMath F] [LawfulText U F]

/-- **Every WKT text is accepted as the geometry it is.** -/
theorem parseWkt_of_wkt (h : Wkt U t g) : parseWkt L U t = .ok g := by
  obtain ⟨ts, hlaid, hs⟩ := h
  rw [parseWkt_eq_ok, findall_of_laid hlaid]
  obtain ⟨k, us, rfl⟩ := hs.exists_cons
  refine hs.mono ?_ fun _ _ _ _ _ => trivial
  rintro w _ - ⟨l, hl, rfl⟩
  exact LawfulText.ofText_number hl

/-- **What is accepted and read as it is written is a WKT text.** -/
theorem wkt_of_asWritten (hs : SpellsAny (findall U t) g) (h : AsWritten U t) : Wkt U t g := by
  refine ⟨findall U t, h.laid, ?_⟩
  have htoken := isToken_of_findall (U := U) (t := t)
  have hword := h.noWord
  have hpoint := h.onePosition
  generalize findall U t = ts at hs htoken hword hpoint
  obtain ⟨k, us, rfl⟩ := hs.exists_cons
  refine hs.mono ?_ ?_
  · intro w x hw hread
    cases htoken w (List.mem_cons_of_mem k hw) with
    | word hwd => exact absurd hwd (hword w hw)
    | @number _ l hl =>
      have hx : (PyMath.ofText w : Option F) = some x := hread
      rw [LawfulText.ofText_number hl, Option.some.injEq] at hx
      exact ⟨l, hl, hx.symm⟩
    | @mark c hc =>
      have hx : (PyMath.ofText [c] : Option F) = some x := hread
      rw [LawfulText.ofText_mark U hc] at hx
      cases hx
  · intro p ps hk hps _
    by_contra hne
    exact hpoint k rfl hk (List.mem_cons_of_mem k (hps.comma_mem hne))

/-- **The parser accepts a text just when the grammar does**, as the geometry
it is, and refuses it otherwise, exactly where the text's tokens spell no
geometry or it is read as it is written. -/
theorem accepts_grammar_iff (t : Text) :
    ((∀ g : Geometry F, parseWkt L U t = .ok g ↔ Wkt U t g) ∧
        OnlyRaises ValueError (parseWkt (F := F) L U t)) ↔
      ((∃ g : Geometry F, SpellsAny (findall U t) g) → AsWritten U t) := by
  constructor
  · rintro ⟨h, -⟩ ⟨g, hg⟩
    exact asWritten_of_wkt ((h g).1 (parseWkt_eq_ok.2 hg))
  · intro h
    refine ⟨fun g => ⟨fun hparse => ?_, parseWkt_of_wkt⟩, parseWkt_raises U t⟩
    have hs := parseWkt_eq_ok.1 hparse
    exact wkt_of_asWritten hs (h ⟨g, hs⟩)

end Agree

/-! ## ASCII digits and decimals -/

/-- A Latin digit is below ten. -/
theorem latin_lt_ten {c d : ℕ} (h : (if isDigit c then some (c - 0x30) else none) = some d) :
    d < 10 := by
  split_ifs at h with hc
  cases h
  simp only [isDigit, Bool.and_eq_true, decide_eq_true_eq] at hc
  omega

/-- A space is not a digit. -/
theorem latin_of_space {c : ℕ} (hc : Text.isSpace c = true) :
    (if isDigit c then some (c - 0x30) else none) = none := by
  have hnot : isDigit c = false := by
    simp only [Text.isSpace, isDigit, Bool.or_eq_true, Bool.and_eq_true, beq_iff_eq,
      decide_eq_true_eq, Bool.and_eq_false_iff, decide_eq_false_iff_not] at hc ⊢
    omega
  rw [hnot]
  rfl

/-- The digits of ASCII. -/
def latinDigits : DecimalDigits where
  value c := if isDigit c then some (c - 0x30) else none
  ascii _ _ := rfl
  lt_ten := latin_lt_ten
  ofSpace := latin_of_space

/-- `float(token)`: a number, or a word it knows. -/
def floatToken (t : Text) : Option Decimal :=
  let word := Ingest.upperAscii t
  if matchNumber latinDigits t = some (t, []) then some (PyFloat.ofNumeral (numeralOf latinDigits t))
  else if word = lit "NAN" then some .nan
  else if word = lit "INF" ∨ word = lit "INFINITY" then some (.inf false)
  else none

/-- Decimals whose texts are the tokens of the pattern. -/
@[reducible] def tokenMath : PyMath Decimal :=
  { (inferInstance : PyMath Decimal) with ofText := floatToken }

/-- The sample number format reads its own texts. -/
theorem lawfulText_tokenMath : @LawfulText latinDigits Decimal _ tokenMath := by
  let _ := tokenMath
  refine ⟨fun {w l} h => ?_, fun {c} hc => ?_⟩
  · have hmatch : matchNumber latinDigits (w ++ []) = some (w, []) := matchNumber_of_number h nofun
    rw [List.append_nil] at hmatch
    change floatToken w = _
    rw [floatToken, if_pos hmatch, numeralOf_of_number h]
  · change floatToken [c] = none
    simp only [isMark, Bool.or_eq_true, beq_iff_eq] at hc
    obtain (rfl | rfl) | rfl := hc
    all_goals decide +kernel

/-- A text with more than a geometry is refused, and is no WKT text. -/
theorem accepts_grammar_iff_extra :
    (∀ g : Geometry Decimal, @parseWkt Decimal Library.ascii latinDigits tokenMath
        (lit "POINT (0 0) extra") = .ok g ↔ Wkt latinDigits (lit "POINT (0 0) extra") g) ∧
      OnlyRaises ValueError
        (@parseWkt Decimal Library.ascii latinDigits tokenMath (lit "POINT (0 0) extra")) := by
  let _ := tokenMath
  have _ := lawfulText_tokenMath
  refine (accepts_grammar_iff (L := Library.ascii) (lit "POINT (0 0) extra")).2 ?_
  rintro ⟨g, hg⟩
  have hparse := (parseWkt_eq_ok (L := Library.ascii)).2 hg
  have hrefused : (@parseWkt Decimal Library.ascii latinDigits tokenMath
      (lit "POINT (0 0) extra")).isOk = false := by decide +kernel
  rw [hparse] at hrefused
  cases hrefused

/-- A semicolon between the ordinates of a point is passed over. -/
theorem not_accepts_grammar_semicolon :
    ¬∀ (t : Text) (g : Geometry Decimal),
      parseWkt Library.ascii latinDigits t = .ok g ↔ Wkt latinDigits t g := by
  intro h
  have hparse : ∃ g : Geometry Decimal,
      parseWkt Library.ascii latinDigits (lit "POINT (1; 2)") = .ok g := by
    have hok : (parseWkt (F := Decimal) Library.ascii latinDigits (lit "POINT (1; 2)")).isOk = true := by
      decide +kernel
    cases hp : parseWkt (F := Decimal) Library.ascii latinDigits (lit "POINT (1; 2)") with
    | error e =>
      rw [hp] at hok
      cases hok
    | ok g => exact ⟨g, rfl⟩
  obtain ⟨g, hg⟩ := hparse
  have hfilter := (asWritten_of_wkt ((h _ g).1 hg)).laid.filter
  exact absurd hfilter (by decide +kernel)

end GeoParquet

end Lakehouse

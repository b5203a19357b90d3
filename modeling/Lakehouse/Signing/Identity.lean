import Lakehouse.Signing.Jcs
import Lakehouse.Common.Decimal
/-!
# The canonical form identifies the document

A canonical number is a numeral that reads as the number, so a canonical
text parses back to its document with the members sorted. Two documents
therefore have one canonical form exactly when they are the same JSON
value (`canonicalize_eq_iff`).
-/

namespace Lakehouse

namespace Jcs

variable {F : Type} [PyFloat F] [LawfulFloat F]

open LawfulFloat (val)

/-- Reading every number as a float. -/
def numeralHooks : Json.Hooks F PyError where
  number l := .ok (PyFloat.ofNumeral l)
  constant c := .ok (constantFloat c)
  invalid := .jsonDecodeError

/-- The float the canonical form of a float reads as: both zeros are
written `0`. -/
def readFloat (x : F) : F :=
  if PyFloat.eq x (PyFloat.ofInt 0) then PyFloat.ofNumeral (Numeral.ofInt 0) else x

/-- The float a canonical number reads as. -/
def readNumber : PyNum F → F
  | .int n => PyFloat.ofNumeral (Numeral.ofInt n)
  | .float x => readFloat x

/-- The float of zero is finite and is zero. -/
theorem zero_spec : PyFloat.isFinite (PyFloat.ofInt 0 : F) = true ∧
    val (PyFloat.ofInt 0 : F) = 0 :=
  ⟨LawfulFloat.finite_ofInt (by decide), by simpa using LawfulFloat.val_ofInt (F := F) (n := 0) (by decide)⟩

/-- A finite float equals zero where its value is zero. -/
theorem eq_zero_iff {x : F} (hx : PyFloat.isFinite x = true) :
    PyFloat.eq x (PyFloat.ofInt 0) = true ↔ val x = 0 := by
  rw [LawfulFloat.eq_iff hx zero_spec.1, zero_spec.2]

/-- A finite float is below zero where its value is. -/
theorem lt_zero_iff {x : F} (hx : PyFloat.isFinite x = true) :
    PyFloat.lt x (PyFloat.ofInt 0) = true ↔ val x < 0 := by
  rw [LawfulFloat.lt_iff hx zero_spec.1, zero_spec.2]

/-- A negated numeral has the negated value. -/
theorem value_neg (l : Numeral) (h : l.neg = false) :
    ({ l with neg := true } : Numeral).value = -l.value := by
  simp [Numeral.value, Numeral.digits, Numeral.exponent, h]

/-- A positive float is the value of its digits. -/
theorem layout_shortestDigits {x : F} (hx : PyFloat.isFinite x = true) (hpos : 0 < val x) :
    ∃ l l₀ : Numeral, l.Wf ∧ l.neg = false ∧ l₀.IsRepr ∧ PyFloat.repr x = l₀.text ∧
      layout (shortestDigits x).1 (shortestDigits x).2 = l.text ∧ l.value = l₀.value ∧
      l.value ≠ 0 := by
  obtain ⟨l₀, hl₀, hrepr⟩ := LawfulFloat.repr_shape hx hpos
  have hread := LawfulFloat.ofNumeral_repr hx hl₀.toWf hrepr
  have hne : l₀.value ≠ 0 := by
    intro h
    have hz := (LawfulFloat.ofNumeral_zero (F := F) h).2
    rw [hread] at hz
    exact hpos.ne' hz
  obtain ⟨d, e, hde, hd, hh, hv⟩ := shortestDigits_spec hl₀ hrepr hne
  obtain ⟨l, hl, hneg, htext, hvalue⟩ := layout_spec hd hh e
  have heq : l.value = l₀.value := by rw [hvalue, hv]
  exact ⟨l, l₀, hl, hneg, hl₀, hrepr, by rw [hde]; exact htext, heq, by rw [heq]; exact hne⟩

/-- **The text of a float is a numeral that reads as the float.** -/
theorem ecmascript_reads {x : F} (hx : PyFloat.isFinite x = true) :
    ∃ l : Numeral, l.Wf ∧ ecmascriptNumberToString x = l.text ∧
      PyFloat.ofNumeral l = readFloat x := by
  unfold ecmascriptNumberToString readFloat
  rcases lt_trichotomy (val x) 0 with hneg | hzero | hpos
  · have h₀ : ¬PyFloat.eq x (PyFloat.ofInt 0) = true := fun h => hneg.ne ((eq_zero_iff hx).1 h)
    have habs := LawfulFloat.finite_abs hx
    have hval : val (PyFloat.abs x) = -val x := by
      rw [LawfulFloat.val_abs hx, abs_of_neg hneg]
    obtain ⟨l, l₀, hl, hln, hl₀, hrepr, htext, hv, hne⟩ :=
      layout_shortestDigits habs (by rw [hval]; exact neg_pos.2 hneg)
    refine ⟨{ l with neg := true }, ⟨hl.int, hl.frac, hl.exp⟩, ?_, ?_⟩
    · rw [if_neg h₀, if_pos ((lt_zero_iff hx).2 hneg)]
      dsimp only
      rw [htext]
      simp [Numeral.text, hln]
    · rw [if_neg h₀]
      have hx₀ : PyFloat.repr x = ({ l₀ with neg := true } : Numeral).text := by
        rw [LawfulFloat.repr_neg hx hneg, hrepr]
        simp [Numeral.text, hl₀.neg]
      rw [← LawfulFloat.ofNumeral_repr (l := { l₀ with neg := true }) hx
        ⟨hl₀.int, hl₀.frac, hl₀.exp⟩ hx₀]
      refine LawfulFloat.ofNumeral_congr ?_ ?_
      · rw [value_neg l hln, value_neg l₀ hl₀.neg, hv]
      · rw [value_neg l hln]
        exact neg_ne_zero.2 hne
  · have h₀ := (eq_zero_iff hx).2 hzero
    refine ⟨Numeral.ofInt 0, Numeral.ofInt_wf 0, ?_, ?_⟩
    · rw [if_pos h₀]
      rfl
    · rw [if_pos h₀]
  · have h₀ : ¬PyFloat.eq x (PyFloat.ofInt 0) = true := fun h => hpos.ne' ((eq_zero_iff hx).1 h)
    have hsign : ¬PyFloat.lt x (PyFloat.ofInt 0) = true := fun h =>
      absurd ((lt_zero_iff hx).1 h) hpos.not_gt
    have habs : PyFloat.abs x = x := LawfulFloat.ext (LawfulFloat.finite_abs hx) hx
      (by rw [LawfulFloat.val_abs hx, abs_of_pos hpos]; exact hpos.ne')
      (by rw [LawfulFloat.val_abs hx, abs_of_pos hpos])
    obtain ⟨l, l₀, hl, hln, hl₀, hrepr, htext, hv, hne⟩ := layout_shortestDigits hx hpos
    refine ⟨l, hl, ?_, ?_⟩
    · rw [if_neg h₀, if_neg hsign, habs]
      exact htext
    · rw [if_neg h₀, ← LawfulFloat.ofNumeral_repr hx hl₀.toWf hrepr]
      exact LawfulFloat.ofNumeral_congr hv hne

/-- The canonical form reads back, every number as a float. -/
theorem style_readBy : (style (F := F)).ReadBy numeralHooks PyNum.IsDouble Text.IsScalar
    readNumber where
  number := by
    intro n t hn ht
    cases n with
    | int n =>
      simp only [style, serializeNumber, guard_eq_ok] at ht
      cases ht.2
      exact ⟨Numeral.ofInt n, Numeral.ofInt_wf n, (Numeral.ofInt_text n).symm, rfl⟩
    | float x =>
      have hx : PyFloat.isFinite x = true := hn
      simp only [style, serializeNumber, if_pos hx] at ht
      cases ht
      obtain ⟨l, hl, htext, hread⟩ := ecmascript_reads hx
      exact ⟨l, hl, htext, congrArg Except.ok hread⟩
  string := fun ht rest => Json.scanString_quote ht rest
  itemSpace := nofun
  keySpace := nofun
  newline := fun _ => nofun

/-- An integer up to `2^53`, read as a float. -/
theorem ofNumeral_ofInt {n : ℤ} (hn : n.natAbs ≤ 2 ^ 53) :
    PyFloat.isFinite (PyFloat.ofNumeral (Numeral.ofInt n) : F) = true ∧
      val (PyFloat.ofNumeral (Numeral.ofInt n) : F) = n := by
  by_cases h0 : n = 0
  · subst h0
    have hzero : (Numeral.ofInt 0).value = 0 := by
      simp [Numeral.ofInt, Numeral.value, Numeral.digits, Text.ofNat, digitsValue]
    simpa using LawfulFloat.ofNumeral_zero (F := F) hzero
  · rw [LawfulFloat.ofNumeral_int (Numeral.ofInt_wf n) rfl
      (by rw [Numeral.ofInt_intValue]; exact h0), Numeral.ofInt_intValue]
    exact ⟨LawfulFloat.finite_ofInt hn, LawfulFloat.val_ofInt hn⟩

/-- The float a canonical number reads as is the number. -/
theorem val_readNumber {n : PyNum F} (hn : n.IsDouble) : val (readNumber n) = n.val := by
  cases n with
  | int n => exact (ofNumeral_ofInt hn).2
  | float x =>
    have hx : PyFloat.isFinite x = true := hn
    change val (readFloat x) = val x
    unfold readFloat
    split_ifs with h
    · rw [(ofNumeral_ofInt (F := F) (n := 0) (by decide)).2, (eq_zero_iff hx).1 h]
      rfl
    · rfl

/-! ## Integers -/

/-- A text of digits with zeros behind them is laid out as it is. -/
theorem layout_of_zeros {d t : Text} {z : ℕ} (ht : t = d ++ List.replicate z 0x30)
    (hlen : t.length ≤ 21) : layout d z = t := by
  have hl : t.length = d.length + z := by rw [ht, List.length_append, List.length_replicate]
  have hz : ((z : ℤ) + d.length - d.length).toNat = z := by omega
  unfold layout
  dsimp only
  rw [if_pos (by omega), hz, ← ht]

/-- An integral float up to `2^53` is written as the integer is. -/
theorem layout_ofNat {n : ℕ} (hn : 0 < n) (hmax : n ≤ 2 ^ 53) :
    layout (shortestDigits (PyFloat.ofInt n : F)).1 (shortestDigits (PyFloat.ofInt n : F)).2 =
      Text.ofNat n := by
  obtain ⟨hd, hv, hh⟩ := Text.ofNat_spec n
  have hrepr : PyFloat.repr (PyFloat.ofInt n : F) =
      (⟨false, Text.ofNat n, some [0x30], none⟩ : Numeral).text := by
    rw [LawfulFloat.repr_ofInt hn hmax]
    simp [Numeral.text, Numeral.fracText, Numeral.expText, lit]
  have hl : (⟨false, Text.ofNat n, some [0x30], none⟩ : Numeral).IsRepr :=
    ⟨⟨Or.inr ⟨hd, hh hn⟩, fun f hf => by cases hf; exact ⟨by simp, by decide⟩, by simp⟩, rfl, rfl,
      by simp⟩
  have hdrop : (Text.ofNat n ++ [0x30]).dropWhile (· == 0x30) = Text.ofNat n ++ [0x30] := by
    obtain ⟨c, t, hc⟩ := List.exists_cons_of_ne_nil hd.1
    have hne := hh hn
    rw [hc, List.head?_cons, ne_eq, Option.some.injEq] at hne
    rw [hc, List.cons_append, List.dropWhile_cons_of_neg (by simpa using hne)]
  have hne : Text.rstripChar 0x30 (Text.ofNat n) ≠ [] := by
    intro h
    have hz := Text.eq_rstripChar_append 0x30 (Text.ofNat n)
    rw [h, List.nil_append] at hz
    rw [hz, digitsValue_zeros] at hv
    omega
  obtain ⟨b, t, hp, he⟩ := partition_repr hl
  obtain ⟨b', hp'⟩ := partition_mantissa hl
  have hle : (Text.rstripChar 0x30 (Text.ofNat n)).length ≤ (Text.ofNat n).length := by
    have h := congrArg List.length (Text.eq_rstripChar_append 0x30 (Text.ofNat n))
    rw [List.length_append] at h
    omega
  have hshort : shortestDigits (PyFloat.ofInt n : F) = (Text.rstripChar 0x30 (Text.ofNat n),
      (((Text.ofNat n).length - (Text.rstripChar 0x30 (Text.ofNat n)).length : ℕ) : ℤ)) := by
    unfold shortestDigits
    rw [hrepr, hp]
    dsimp only
    rw [hp', he]
    dsimp only [Option.getD_some]
    simp only [hdrop, Text.rstripChar_append, if_neg hne]
    congr 1
    simp only [Numeral.expValue, List.length_append, List.length_singleton]
    omega
  have hlen : (Text.ofNat n).length ≤ 21 :=
    Text.length_ofNat_le (by decide) (lt_of_le_of_lt hmax (by norm_num))
  rw [hshort]
  exact layout_of_zeros (Text.eq_rstripChar_append 0x30 _) hlen

/-- **A safe integer is written as Python writes it.** -/
theorem ecmascript_ofInt {n : ℤ} (hn : n.natAbs ≤ 2 ^ 53) :
    ecmascriptNumberToString (PyFloat.ofInt n : F) = Text.ofInt n := by
  have hfin := LawfulFloat.finite_ofInt (F := F) hn
  have hval := LawfulFloat.val_ofInt (F := F) hn
  unfold ecmascriptNumberToString
  rcases lt_trichotomy n 0 with hneg | rfl | hpos
  · have hv : val (PyFloat.ofInt n : F) < 0 := by rw [hval]; exact_mod_cast hneg
    have hm : (n.natAbs : ℤ).natAbs ≤ 2 ^ 53 := by omega
    have habs : PyFloat.abs (PyFloat.ofInt n : F) = PyFloat.ofInt (n.natAbs : ℤ) := by
      have heq : val (PyFloat.abs (PyFloat.ofInt n : F)) = val (PyFloat.ofInt (n.natAbs : ℤ) : F) := by
        rw [LawfulFloat.val_abs hfin, hval, LawfulFloat.val_ofInt hm, Int.cast_natCast,
          Nat.cast_natAbs, Int.cast_abs]
      refine LawfulFloat.ext (LawfulFloat.finite_abs hfin) (LawfulFloat.finite_ofInt hm) ?_ heq
      rw [LawfulFloat.val_abs hfin]
      exact abs_ne_zero.2 hv.ne
    have h₀ : ¬PyFloat.eq (PyFloat.ofInt n : F) (PyFloat.ofInt 0) = true := fun h =>
      hv.ne ((eq_zero_iff hfin).1 h)
    rw [if_neg h₀, if_pos ((lt_zero_iff hfin).2 hv), habs]
    dsimp only
    rw [layout_ofNat (by omega) hn]
    obtain ⟨m, rfl⟩ := Int.eq_negSucc_of_lt_zero hneg
    rfl
  · rw [if_pos ((eq_zero_iff hfin).2 (by rw [hval]; rfl))]
    rfl
  · have hv : 0 < val (PyFloat.ofInt n : F) := by rw [hval]; exact_mod_cast hpos
    have habs : PyFloat.abs (PyFloat.ofInt n : F) = PyFloat.ofInt n :=
      LawfulFloat.ext (LawfulFloat.finite_abs hfin) hfin
        (by rw [LawfulFloat.val_abs hfin, abs_of_pos hv]; exact hv.ne')
        (by rw [LawfulFloat.val_abs hfin, abs_of_pos hv])
    have h₀ : ¬PyFloat.eq (PyFloat.ofInt n : F) (PyFloat.ofInt 0) = true := fun h =>
      hv.ne' ((eq_zero_iff hfin).1 h)
    have hsign : ¬PyFloat.lt (PyFloat.ofInt n : F) (PyFloat.ofInt 0) = true := fun h =>
      absurd ((lt_zero_iff hfin).1 h) hv.not_gt
    obtain ⟨m, rfl⟩ := Int.eq_ofNat_of_zero_le hpos.le
    rw [if_neg h₀, if_neg hsign, habs]
    exact layout_ofNat (by omega) hn

omit [LawfulFloat F] in
/-- The text of a number that is a double. -/
theorem serializeNumber_of_isDouble {n : PyNum F} (hn : n.IsDouble) :
    serializeNumber n = .ok (match n with
      | .int n => Text.ofInt n
      | .float x => ecmascriptNumberToString x) := by
  cases n with
  | int n =>
    have hle : n.natAbs ≤ 2 ^ 53 := hn
    exact if_neg (by omega)
  | float x => exact if_pos hn

/-- Floats of one value are written alike. -/
theorem ecmascript_congr {x y : F} (hx : PyFloat.isFinite x = true) (hy : PyFloat.isFinite y = true)
    (h : val x = val y) : ecmascriptNumberToString x = ecmascriptNumberToString y := by
  by_cases h0 : val x = 0
  · unfold ecmascriptNumberToString
    rw [if_pos ((eq_zero_iff hx).2 h0), if_pos ((eq_zero_iff hy).2 (h ▸ h0))]
  · rw [LawfulFloat.ext hx hy h0 h]

/-- **Equal numbers are written alike**, integers and floats among them. -/
theorem serializeNumber_congr {m n : PyNum F} (hm : m.IsDouble) (hn : n.IsDouble)
    (h : m.val = n.val) : serializeNumber m = serializeNumber n := by
  have hfloat : ∀ {k : PyNum F}, k.IsDouble → ∃ x : F, PyFloat.isFinite x = true ∧
      val x = k.val ∧ serializeNumber k = .ok (ecmascriptNumberToString x) := by
    intro k hk
    cases k with
    | int k =>
      exact ⟨PyFloat.ofInt k, LawfulFloat.finite_ofInt hk, LawfulFloat.val_ofInt hk, by
        rw [serializeNumber_of_isDouble hk, ecmascript_ofInt hk]⟩
    | float x => exact ⟨x, hk, rfl, serializeNumber_of_isDouble hk⟩
  obtain ⟨x, hx, hxm, hsx⟩ := hfloat hm
  obtain ⟨y, hy, hyn, hsy⟩ := hfloat hn
  rw [hsx, hsy, ecmascript_congr hx hy (by rw [hxm, hyn, h])]

/-! ## Documents -/

/-- **A JSON value**: numbers that are finite doubles, strings and keys
of scalar values, no key twice. -/
structure JsonValue (F : Type) [PyFloat F] where
  doc : Doc F
  valid : doc.Valid PyNum.IsDouble Text.IsScalar

/-- Two documents are the same JSON value: objects as maps, numbers by
their value. -/
def SameValue (v w : Doc F) : Prop := Json.Same (fun m n => m.val = n.val) v w

omit [LawfulFloat F] in
/-- A JSON value has its canonical text. -/
theorem canonicalize_isOk (v : JsonValue F) : ∃ t, canonicalize v.doc = .ok t :=
  Json.serialize_isOk (fun _ hn => ⟨_, serializeNumber_of_isDouble hn⟩) v.doc v.valid 0

/-- **Values of one canonical text are the same.** -/
theorem sameValue_of_canonicalize {v w : Doc F} {t : Text}
    (hv : v.Valid PyNum.IsDouble Text.IsScalar) (hw : w.Valid PyNum.IsDouble Text.IsScalar)
    (hvt : canonicalize v = .ok t) (hwt : canonicalize w = .ok t) : SameValue v w :=
  Json.same_of_serialize (fun hm hn h => by rw [← val_readNumber hm, ← val_readNumber hn, h])
    style_readBy style_readBy hv hw hvt hwt

/-- Same values have one canonical text. -/
theorem canonicalize_congr {v w : Doc F} (hv : v.Valid PyNum.IsDouble Text.IsScalar)
    (hw : w.Valid PyNum.IsDouble Text.IsScalar) (h : SameValue v w) :
    canonicalize v = canonicalize w :=
  Json.serialize_congr (.refl _) rfl utf16SortKey_injective
    (fun hm hn h => serializeNumber_congr hm hn h) h hv hw 0

/-- **The canonical form identifies the document**: two JSON values have
one canonical form exactly when they are the same. -/
theorem canonicalize_eq_iff (v w : JsonValue F) :
    (∃ t, canonicalize v.doc = .ok t) ∧
      (canonicalize v.doc = canonicalize w.doc ↔ SameValue v.doc w.doc) := by
  refine ⟨canonicalize_isOk v, fun h => ?_, canonicalize_congr v.valid w.valid⟩
  obtain ⟨t, ht⟩ := canonicalize_isOk v
  exact sameValue_of_canonicalize v.valid w.valid ht (h ▸ ht)

/-- A document with an integer, and one with the float of its value and
its members in another order. -/
def twoSpellings : JsonValue Decimal × JsonValue Decimal :=
  (⟨.obj [(lit "a", .num (.int 2)), (lit "b", .null)], by decide⟩,
    ⟨.obj [(lit "b", .null), (lit "a", .num (.float (.fin false 2 0)))], by decide⟩)

/-- Two and the float of two, with the members in either order. -/
theorem canonicalize_eq_iff_twoSpellings :
    (∃ t, canonicalize twoSpellings.1.doc = .ok t) ∧
      (canonicalize twoSpellings.1.doc = canonicalize twoSpellings.2.doc ↔
        SameValue twoSpellings.1.doc twoSpellings.2.doc) :=
  canonicalize_eq_iff twoSpellings.1 twoSpellings.2

end Jcs

end Lakehouse

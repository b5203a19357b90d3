import Lakehouse.Common.Binary64
import Lakehouse.Signing.Identity
/-!
# Integers and their doubles, canonically

A producer signs integers as they are and a consumer verifies them read
as floats. The canonical form writes an integer with all its digits and a
float with its shortest ones, so the two views of a document have one
canonical form exactly when each of its integers is what `repr` writes of
the nearest double (`canonicalize_views_iff`).
-/

namespace Lakehouse

namespace Jcs

/-! ## Digits -/

theorem shortestDigits_last {F : Type} [PyFloat F] {x : F} {d : Text} {e : ℤ}
    (h : shortestDigits x = (d, e)) (hd : digitsValue d ≠ 0) : d.getLast? ≠ some 0x30 := by
  unfold shortestDigits at h
  dsimp only at h
  split_ifs at h <;> cases h
  · exact absurd rfl hd
  · exact Text.getLast?_rstripChar _ _
  · exact Text.getLast?_rstripChar _ _

/-- A numeral is its text. -/
theorem numeral_ext {l l' : Numeral} (hl : l.Wf) (hl' : l'.Wf) (h : l.text = l'.text) : l = l' := by
  have hscan := scanNumeral_text hl numeralEnd_nil
  rw [h, scanNumeral_text hl' numeralEnd_nil, Option.some.injEq, Prod.mk.injEq] at hscan
  exact hscan.1.symm

/-! ## One integer -/

section Integer

variable {F : Type} [PyFloat F]

/-- **The shortest decimal of the nearest double is the integer itself.** -/
def Shortest (F : Type) [PyFloat F] (n : ℤ) : Prop :=
  n = 0 ∨ PyFloat.isFinite (PyFloat.ofInt n : F) = true ∧
    ∃ l : Numeral, l.Wf ∧ PyFloat.repr (PyFloat.ofInt n : F) = l.text ∧ l.value = n

variable [LawfulFloat F]

open LawfulFloat (val)

/-- **The canonical text of a float that is not zero**: the digits of what
`repr` writes, laid out anew. -/
theorem ecmascript_digits {x : F} (hx : PyFloat.isFinite x = true) (h0 : val x ≠ 0) :
    ∃ (l : Numeral) (d : Text) (e : ℤ), l.Wf ∧ PyFloat.repr x = l.text ∧
      ecmascriptNumberToString x = (if l.neg then [0x2D] else []) ++ layout d e ∧
      Numeral.Digits d ∧ d.head? ≠ some 0x30 ∧ d.getLast? ≠ some 0x30 ∧
      l.value = (if l.neg then -1 else 1) * (digitsValue d * 10 ^ e) := by
  have hne : ¬PyFloat.eq x (PyFloat.ofInt 0) = true := fun h => h0 ((eq_zero_iff hx).1 h)
  have habs := LawfulFloat.finite_abs hx
  have hpos : 0 < val (PyFloat.abs x) := by
    rw [LawfulFloat.val_abs hx]
    exact abs_pos.2 h0
  obtain ⟨l, hl, hrepr⟩ := LawfulFloat.repr_shape habs hpos
  have hvalue : l.value ≠ 0 := by
    intro h
    have hz := (LawfulFloat.ofNumeral_zero (F := F) h).2
    rw [LawfulFloat.ofNumeral_repr habs hl.toWf hrepr] at hz
    exact hpos.ne' hz
  obtain ⟨d, e, hde, hd, hh, hv⟩ := shortestDigits_spec hl hrepr hvalue
  have hd0 : digitsValue d ≠ 0 := by
    intro h
    rw [h, Nat.cast_zero, zero_mul] at hv
    exact hvalue hv.symm
  have hlast := shortestDigits_last hde hd0
  rcases lt_or_gt_of_ne h0 with hneg | hpos'
  · refine ⟨{ l with neg := true }, d, e, ⟨hl.int, hl.frac, hl.exp⟩, ?_, ?_, hd, hh, hlast, ?_⟩
    · rw [LawfulFloat.repr_neg hx hneg, hrepr]
      simp [Numeral.text, hl.neg]
    · rw [ecmascriptNumberToString, if_neg hne, if_pos ((lt_zero_iff hx).2 hneg), hde]
      rfl
    · rw [value_neg l hl.neg, ← hv]
      simp
  · have hsign : ¬PyFloat.lt x (PyFloat.ofInt 0) = true := fun h =>
      absurd ((lt_zero_iff hx).1 h) hpos'.not_gt
    have hsame : PyFloat.abs x = x := LawfulFloat.ext habs hx hpos.ne'
      (by rw [LawfulFloat.val_abs hx, abs_of_pos hpos'])
    refine ⟨l, d, e, hl.toWf, by rw [← hrepr, hsame], ?_, hd, hh, hlast, ?_⟩
    · rw [ecmascriptNumberToString, if_neg hne, if_neg hsign, hde, hl.neg]
      rfl
    · rw [hl.neg, ← hv]
      simp

/-- Digits and zeros that denote a natural number are its text. -/
theorem layout_eq_ofNat {d : Text} {e : ℤ} (hd : Numeral.Digits d) (hh : d.head? ≠ some 0x30)
    (hlast : d.getLast? ≠ some 0x30) {m : ℕ} (hm : m < 10 ^ 21)
    (hv : (digitsValue d : ℚ) * 10 ^ e = m) : layout d e = Text.ofNat m := by
  have hmod := digitsValue_mod_ten hd hlast
  obtain ⟨z, rfl⟩ : ∃ z : ℕ, e = z := by
    by_contra hnot
    obtain ⟨k, rfl⟩ : ∃ k : ℕ, e = -(k + 1 : ℕ) := by
      refine ⟨(-e - 1).toNat, ?_⟩
      have he : ¬0 ≤ e := fun he => hnot ⟨e.toNat, (Int.toNat_of_nonneg he).symm⟩
      omega
    rw [zpow_neg, zpow_natCast, ← div_eq_mul_inv, div_eq_iff (by positivity)] at hv
    have hnat : digitsValue d = m * 10 ^ (k + 1) := by exact_mod_cast hv
    rw [hnat, pow_succ, ← mul_assoc, Nat.mul_mod_left] at hmod
    exact hmod rfl
  rw [zpow_natCast] at hv
  have hnat : digitsValue (d ++ List.replicate z 0x30) = m := by
    rw [digitsValue_append_zeros]
    exact_mod_cast hv
  have htext : Text.ofNat m = d ++ List.replicate z 0x30 := by
    rw [← hnat]
    refine ofNat_digitsValue (digits_append hd (digits_zeros z)) ?_
    rwa [List.head?_append_of_ne_nil _ hd.1]
  exact layout_of_zeros htext (Text.length_ofNat_le (by decide) hm)

/-- **An integral float is written as an integer exactly when `repr` writes
the integer.** -/
theorem ecmascript_eq_ofInt_iff {x : F} (hx : PyFloat.isFinite x = true) {n : ℤ} (h0 : n ≠ 0)
    (hn : n.natAbs < 10 ^ 21) : ecmascriptNumberToString x = Text.ofInt n ↔
      ∃ l : Numeral, l.Wf ∧ PyFloat.repr x = l.text ∧ l.value = n := by
  by_cases hval : val x = 0
  · -- a zero is written `0`, and `repr` writes a zero of it
    constructor
    · intro h
      rw [ecmascriptNumberToString, if_pos ((eq_zero_iff hx).2 hval)] at h
      have hzero : Text.ofInt 0 = Text.ofInt n := h
      exact absurd (Text.ofInt_injective hzero).symm h0
    · rintro ⟨l, hl, hrepr, hv⟩
      have hzero : ∀ b, (⟨b, [0x30], some [0x30], none⟩ : Numeral).Wf := fun b =>
        ⟨Or.inl rfl, fun f hf => by cases hf; exact ⟨by simp, by decide⟩, nofun⟩
      have hvalue : ∀ b, (⟨b, [0x30], some [0x30], none⟩ : Numeral).value = 0 := fun b => by
        simp [Numeral.value, Numeral.digits, digitsValue]
      refine absurd hv.symm ?_
      rcases LawfulFloat.repr_zero hx hval with h | h
      · rw [← numeral_ext (hzero false) hl (by rw [← hrepr, h]; rfl), hvalue]
        exact_mod_cast h0
      · rw [← numeral_ext (hzero true) hl (by rw [← hrepr, h]; rfl), hvalue]
        exact_mod_cast h0
  · obtain ⟨l, d, e, hl, hrepr, htext, hd, hh, hlast, hv⟩ := ecmascript_digits hx hval
    rw [htext]
    constructor
    · intro h
      refine ⟨l, hl, hrepr, ?_⟩
      obtain ⟨l', hl', hneg', htext', hv'⟩ := layout_spec hd hh e
      have hsigned : ({ l' with neg := l.neg } : Numeral) = Numeral.ofInt n := by
        refine numeral_ext ⟨hl'.int, hl'.frac, hl'.exp⟩ (Numeral.ofInt_wf n) ?_
        rw [Numeral.ofInt_text, ← h, htext']
        simp [Numeral.text, hneg']
      have hvalue : ({ l' with neg := l.neg } : Numeral).value = n := by
        rw [hsigned, Numeral.value_of_isInt rfl, Numeral.ofInt_intValue]
      rw [hv, ← hv', ← hvalue]
      simp [Numeral.value, Numeral.digits, Numeral.exponent, hneg']
    · rintro ⟨l', hl', hrepr', hv'⟩
      obtain rfl := numeral_ext hl hl' (by rw [← hrepr, hrepr'])
      rw [hv] at hv'
      have hlayout : ∀ m : ℕ, m = n.natAbs → (digitsValue d : ℚ) * 10 ^ e = m →
          layout d e = Text.ofNat m := fun m hm => layout_eq_ofNat hd hh hlast (by omega)
      have hpos : (0 : ℚ) ≤ digitsValue d * 10 ^ e :=
        mul_nonneg (Nat.cast_nonneg _) (zpow_nonneg (by norm_num) e)
      cases hneg : l.neg with
      | false =>
        rw [hneg] at hv'
        simp only [Bool.false_eq_true, if_false, one_mul] at hv' ⊢
        obtain ⟨m, rfl⟩ := Int.eq_ofNat_of_zero_le (a := n) (by exact_mod_cast hv' ▸ hpos)
        exact hlayout m rfl hv'
      | true =>
        rw [hneg] at hv'
        simp only [if_true] at hv' ⊢
        have hlt : n < 0 := by
          have hle : (n : ℚ) ≤ 0 := by rw [← hv']; linarith
          exact lt_of_le_of_ne (by exact_mod_cast hle) h0
        obtain ⟨m, rfl⟩ := Int.eq_negSucc_of_lt_zero hlt
        rw [hlayout (m + 1) rfl (by rw [Int.cast_negSucc] at hv'; push_cast at hv' ⊢; linarith)]
        rfl

/-! ## A document -/

/-- Every integer is what `repr` writes of its double. -/
def ShortestIntegers : PyNum F → Prop
  | .int n => Shortest F n
  | .float _ => True

/-- **The views of one number are written alike** exactly when an integer
is what `repr` writes of its double. -/
theorem serializeNumber_views {m n : PyNum F} {t : Text} (h : m.Readings n)
    (ht : serializeNumber m = .ok t) : serializeNumber n = .ok t ↔ ShortestIntegers m := by
  rcases h with ⟨l, hl, hi, hm, rfl⟩ | ⟨x, rfl, rfl⟩
  · obtain rfl := eq_intValue_of_parseInt hm
    simp only [serializeNumber, guard_eq_ok, not_le] at ht
    obtain ⟨hlt, ht⟩ := ht
    cases ht
    change _ ↔ Shortest F l.intValue
    by_cases h0 : l.intValue = 0
    · have hvalue : l.value = 0 := by rw [Numeral.value_of_isInt hi, h0, Int.cast_zero]
      obtain ⟨hfin, hval⟩ := LawfulFloat.ofNumeral_zero (F := F) hvalue
      refine iff_of_true ?_ (.inl h0)
      rw [serializeNumber, if_pos hfin, ecmascriptNumberToString, if_pos ((eq_zero_iff hfin).2 hval),
        h0]
      rfl
    · rw [LawfulFloat.ofNumeral_int hl hi h0, Shortest, or_iff_right h0]
      by_cases hfin : PyFloat.isFinite (PyFloat.ofInt l.intValue : F) = true
      · rw [serializeNumber, if_pos hfin, Except.ok.injEq, ecmascript_eq_ofInt_iff hfin h0 hlt,
          and_iff_right hfin]
      · rw [serializeNumber, if_neg hfin]
        exact iff_of_false (by rintro ⟨⟩) fun h => hfin h.1
  · exact iff_of_true ht trivial

/-- The text of a number, where it has one. -/
def numberText (n : PyNum F) : Text := (serializeNumber n).toOption.getD []

/-- Reading every number as its text. -/
def textHooks : Json.Hooks Text PyError where
  number l := .ok l.text
  constant _ := .ok []
  invalid := .jsonDecodeError

/-- A canonical form reads back, every number as it is written and every
string as it is. -/
theorem style_readBy_text : (style (F := F)).ReadBy textHooks (fun _ => True) Json.AnyText
    numberText where
  number := by
    intro n t _ ht
    have htext : numberText n = t := by
      change serializeNumber n = .ok t at ht
      rw [numberText, ht]
      rfl
    rw [htext]
    cases n with
    | int n =>
      simp only [style, serializeNumber, guard_eq_ok] at ht
      cases ht.2
      exact ⟨Numeral.ofInt n, Numeral.ofInt_wf n, (Numeral.ofInt_text n).symm,
        congrArg Except.ok (Numeral.ofInt_text n)⟩
    | float x =>
      by_cases hx : PyFloat.isFinite x = true
      · simp only [style, serializeNumber, if_pos hx] at ht
        cases ht
        obtain ⟨l, hl, htext, -⟩ := ecmascript_reads hx
        exact ⟨l, hl, htext, congrArg Except.ok htext.symm⟩
      · simp only [style, serializeNumber, if_neg hx] at ht
        cases ht
  string := fun _ rest => Json.scanString_quote_of (fun h => absurd h Bool.false_ne_true) rest
  itemSpace := nofun
  keySpace := nofun
  newline := fun _ => nofun

/-- **The views of a document have one canonical form** exactly when each of
its integers is what `repr` writes of the nearest double. -/
theorem canonicalize_views_iff {text canonical : Text} {v : Doc F}
    (hv : Json.loads defaultHooks text = .ok v) (hc : canonicalize v = .ok canonical) :
    (∃ w : Doc F, Json.loads floatHooks text = .ok w ∧ canonicalize w = .ok canonical) ↔
      v.Valid ShortestIntegers Json.AnyText := by
  -- both parses are halves of one tree of pairs of numbers
  obtain ⟨r, hr, rfl, hw⟩ := Json.loads_paired hooks_covered hv
  have hwritten := Json.valid_map_iff.1
    ((Json.valid_map_iff.2 (Json.Valid.mono (fun _ _ => trivial) (fun _ => id) hr) :
      (r.map Prod.fst).Valid (fun _ => True) Json.AnyText).isOk hc)
  have hviews := hr.and hwritten
  rw [Json.valid_map_iff]
  constructor
  -- a canonical text shows the texts of its numbers
  · rintro ⟨w, hw', hcw⟩
    rw [hw, Except.ok.injEq] at hw'
    subst hw'
    have hany : r.Valid (fun _ => True) Json.AnyText :=
      Json.Valid.mono (fun _ _ => trivial) (fun _ => id) hr
    have htexts := Json.numbers_of_serialize style_readBy_text (Json.valid_map_iff.2 hany)
      (Json.valid_map_iff.2 hany) hany hc hcw
    have hwritten' := Json.valid_map_iff.1 ((Json.valid_map_iff.2 hany :
      (r.map Prod.snd).Valid (fun _ => True) Json.AnyText).isOk hcw)
    refine Json.Valid.mono ?_ (fun _ => id) ((hviews.and htexts).and hwritten')
    rintro ⟨m, n⟩ ⟨⟨⟨hmn, t, ht⟩, heq⟩, t', ht'⟩
    change serializeNumber m = .ok t at ht
    change serializeNumber n = .ok t' at ht'
    change numberText m = numberText n at heq
    rw [numberText, numberText, ht, ht'] at heq
    cases heq
    exact (serializeNumber_views hmn ht).1 ht'
  · intro hshort
    refine ⟨_, hw, ?_⟩
    have halike : r.Valid (fun p => (style (F := F)).number p.1 = style.number p.2) Json.AnyText := by
      refine Json.Valid.mono ?_ (fun _ => id) (hviews.and hshort)
      rintro ⟨m, n⟩ ⟨⟨hmn, t, ht⟩, hm⟩
      change serializeNumber m = .ok t at ht
      change serializeNumber m = serializeNumber n
      rw [ht, (serializeNumber_views hmn ht).2 hm]
    rw [← hc]
    exact (Json.serialize_halves halike 0).symm

/-- Up to `2^53` every integer is. -/
theorem shortest_of_isDouble {n : ℤ} (hn : n.natAbs ≤ 2 ^ 53) : Shortest F n := by
  by_cases h0 : n = 0
  · exact .inl h0
  · have hfin := LawfulFloat.finite_ofInt (F := F) hn
    exact .inr ⟨hfin, (ecmascript_eq_ofInt_iff hfin h0 (by omega)).1 (ecmascript_ofInt hn)⟩

end Integer

/-! ## `2^53 + 1` -/

theorem canonicalize_views_iff_two :
    (∃ w : Doc Decimal, Json.loads floatHooks (lit "[2]") = .ok w ∧ canonicalize w = .ok (lit "[2]")) ↔
      (Json.arr [.num (.int 2)] : Doc Decimal).Valid ShortestIntegers Json.AnyText := by
  have hv : (Json.loads (defaultHooks (F := Decimal)) (lit "[2]")).toOption =
      some (.arr [.num (.int 2)]) := by decide +kernel
  have hc : (canonicalize (.arr [.num (.int 2)] : Doc Decimal)).toOption = some (lit "[2]") := by
    decide +kernel
  exact canonicalize_views_iff (toOption_eq_some.1 hv) (toOption_eq_some.1 hc)

/-- The integer is written with its own digits, its double with those of
`2^53`. -/
theorem not_views_alike : ¬∀ (text canonical : Text) (v w : Doc Binary64),
    Json.loads defaultHooks text = .ok v → Json.loads floatHooks text = .ok w →
      canonicalize v = .ok canonical → canonicalize w = .ok canonical := by
  intro h
  have hv : (Json.loads (defaultHooks (F := Binary64)) (lit "9007199254740993")).toOption =
      some (.num (.int 9007199254740993)) := by decide +kernel
  have hc : (canonicalize (.num (.int 9007199254740993) : Doc Binary64)).toOption =
      some (lit "9007199254740993") := by decide +kernel
  have hw : (Json.loads (floatHooks (F := Binary64)) (lit "9007199254740993")).toOption =
      some (.num (.float (PyFloat.ofInt 9007199254740992))) := by decide +kernel
  have hd : (canonicalize (.num (.float (PyFloat.ofInt 9007199254740992)) : Doc Binary64)).toOption =
      some (lit "9007199254740992") := by decide +kernel
  have heq := h _ _ _ _ (toOption_eq_some.1 hv) (toOption_eq_some.1 hw) (toOption_eq_some.1 hc)
  rw [toOption_eq_some.1 hd, Except.ok.injEq] at heq
  exact absurd heq (by decide)

end Jcs

end Lakehouse

import Lakehouse.Common.Binary64
import Lakehouse.Signing.IntegerView
/-!
# Numbers in the ECMAScript layout

`Number::toString` writes the digits of a number in one of five forms,
chosen by how many there are and where the point stands
(`NumberToString`). The canonical text of a float is in the form of its
shortest digits and denotes the decimal `repr` wrote
(`ecmascriptNumberToString_lays`).
-/

namespace Lakehouse

namespace Jcs

/-! ## The layout -/

/-- The exponent part: its sign, and the digits of its size without a leading
zero. -/
inductive ExponentPart (m : ℤ) : Text → Prop
  | positive {t : Text} (h : 0 < m) (ht : Numeral.Digits t) (hfirst : t.head? ≠ some 0x30)
      (hvalue : (digitsValue t : ℤ) = m) : ExponentPart m (lit "e+" ++ t)
  | negative {t : Text} (h : m < 0) (ht : Numeral.Digits t) (hfirst : t.head? ≠ some 0x30)
      (hvalue : (digitsValue t : ℤ) = -m) : ExponentPart m (lit "e-" ++ t)

/-- **`Number::toString`** of the number `0.d × 10 ^ n` with the digits `d`. -/
inductive NumberToString (d : Text) (n : ℤ) : Text → Prop
  /-- An integer, with zeros up to its last place. -/
  | integer {zeros : ℕ} (hn : n = d.length + zeros) (h : n ≤ 21) :
      NumberToString d n (d ++ List.replicate zeros 0x30)
  /-- The point stands inside the digits. -/
  | point {front back : Text} (hd : d = front ++ back) (hback : back ≠ []) (hfront : front ≠ [])
      (hn : n = front.length) (h : n ≤ 21) : NumberToString d n (front ++ 0x2E :: back)
  /-- Zeros stand between the point and the digits. -/
  | fraction {zeros : ℕ} (hn : n = -zeros) (h : -6 < n) :
      NumberToString d n (lit "0." ++ List.replicate zeros 0x30 ++ d)
  /-- One digit and an exponent. -/
  | digit {c : ℕ} {exponent : Text} (hd : d = [c]) (h : n ≤ -6 ∨ 21 < n)
      (hexponent : ExponentPart (n - 1) exponent) : NumberToString d n (c :: exponent)
  /-- A point after the first digit, and an exponent. -/
  | scientific {c : ℕ} {back exponent : Text} (hd : d = c :: back) (hback : back ≠ [])
      (h : n ≤ -6 ∨ 21 < n) (hexponent : ExponentPart (n - 1) exponent) :
      NumberToString d n (c :: 0x2E :: back ++ exponent)

theorem exponentPart_exponentText {m : ℤ} (h : m ≠ 0) : ExponentPart m (exponentText m) := by
  obtain ⟨hd, hv, hh⟩ := Text.ofNat_spec m.natAbs
  have hfirst := hh (Int.natAbs_pos.2 h)
  obtain hneg | hpos := lt_or_gt_of_ne h
  · have hvalue : (digitsValue (Text.ofNat m.natAbs) : ℤ) = -m := by
      rw [hv]
      omega
    rw [exponentText, if_neg (not_le.2 hneg)]
    exact .negative hneg hd hfirst hvalue
  · have hvalue : (digitsValue (Text.ofNat m.natAbs) : ℤ) = m := by
      rw [hv]
      omega
    rw [exponentText, if_pos hpos.le]
    exact .positive hpos hd hfirst hvalue

/-- **The layout of digits and an exponent is the one of `Number::toString`.** -/
theorem layout_numberToString {d : Text} (hd : d ≠ []) (e : ℤ) :
    NumberToString d (e + d.length) (layout d e) := by
  have hlen : 0 < d.length := List.length_pos_of_ne_nil hd
  unfold layout
  dsimp only
  split_ifs with h₁ h₂ h₃ h₄
  · exact .integer (by omega) h₁.2
  · refine .point (List.take_append_drop _ d).symm ?_ ?_ ?_ h₂.2
    · rw [Ne, List.drop_eq_nil_iff]
      omega
    · rw [Ne, List.take_eq_nil_iff]
      rintro (hzero | hnil)
      · omega
      · exact hd hnil
    · rw [List.length_take]
      omega
  · have hzeros : e + d.length = -((-(e + d.length)).toNat : ℤ) := by omega
    exact NumberToString.fraction hzeros h₃.1
  · obtain ⟨c, rfl⟩ := List.length_eq_one_iff.1 (by omega : d.length = 1)
    exact .digit rfl (by omega) (exponentPart_exponentText (by omega))
  · obtain ⟨c, back, rfl⟩ := List.exists_cons_of_ne_nil hd
    refine .scientific rfl ?_ (by omega) (exponentPart_exponentText (by omega))
    rintro rfl
    exact h₄ rfl

/-! ## Floats -/

variable {F : Type} [PyFloat F] {x : F} {l : Numeral}

/-- **The canonical text of a float that is not zero** is the layout of its
shortest digits, and denotes the decimal that `repr` writes of its absolute
value, with its sign. -/
theorem ecmascriptNumberToString_lays (h0 : PyFloat.eq x (PyFloat.ofInt 0) = false)
    (hl : l.IsRepr) (hrepr : PyFloat.repr (PyFloat.abs x) = l.text) (hvalue : l.value ≠ 0) :
    ∃ d e t, shortestDigits (PyFloat.abs x) = (d, e) ∧
      (Numeral.Digits d ∧ d.head? ≠ some 0x30 ∧ d.getLast? ≠ some 0x30) ∧
      (digitsValue d : ℚ) * 10 ^ e = l.value ∧
      ecmascriptNumberToString x =
        (if PyFloat.lt x (PyFloat.ofInt 0) then [0x2D] else []) ++ t ∧
      NumberToString d (e + d.length) t ∧
      ∃ m : Numeral, m.Wf ∧ m.text = ecmascriptNumberToString x ∧
        m.value = (if PyFloat.lt x (PyFloat.ofInt 0) then -1 else 1) * l.value := by
  obtain ⟨d, e, hde, hd, hfirst, hdecimal⟩ := shortestDigits_spec hl hrepr hvalue
  have hd0 : digitsValue d ≠ 0 := by
    intro hzero
    rw [hzero, Nat.cast_zero, zero_mul] at hdecimal
    exact hvalue hdecimal.symm
  have htext : ecmascriptNumberToString x =
      (if PyFloat.lt x (PyFloat.ofInt 0) then [0x2D] else []) ++ layout d e := by
    rw [ecmascriptNumberToString, if_neg (by rw [h0]; decide), hde]
  obtain ⟨m, hm, hneg, hlayout, hm'⟩ := layout_spec hd hfirst e
  refine ⟨d, e, layout d e, hde, ⟨hd, hfirst, shortestDigits_last hde hd0⟩, hdecimal, htext,
    layout_numberToString hd.1 e, ?_⟩
  rw [htext]
  split_ifs
  · refine ⟨{ m with neg := true }, ⟨hm.int, hm.frac, hm.exp⟩, ?_, ?_⟩
    · rw [hlayout]
      simp [Numeral.text, hneg]
    · rw [value_neg m hneg, hm', hdecimal, neg_one_mul]
  · exact ⟨m, hm, hlayout.symm, by rw [hm', hdecimal, one_mul]⟩

/-- The double nearest to `-1.5e-7`, which `repr` writes as `-1.5e-07`. -/
def smallDouble : Binary64 := Binary64.ofScaled true 15 (-8)

theorem ecmascriptNumberToString_lays_small : ∃ d e t,
    PyFloat.repr smallDouble = lit "-1.5e-07" ∧
      shortestDigits (PyFloat.abs smallDouble) = (d, e) ∧ NumberToString d (e + d.length) t ∧
      lit "-1.5e-7" = 0x2D :: t := by
  have hl : (⟨false, lit "1", some (lit "5"), some (.minus, lit "07")⟩ : Numeral).IsRepr := by
    refine ⟨⟨.inr ⟨⟨by decide, by decide⟩, by decide⟩, ?_, ?_⟩, rfl, rfl, ?_⟩
    · rintro f hf
      cases hf
      exact ⟨by decide, by decide⟩
    · rintro sign e he
      cases he
      exact ⟨by decide, by decide⟩
    · rintro sign e he
      cases he
      decide
  obtain ⟨d, e, t, hde, -, -, htext, ht, -⟩ := ecmascriptNumberToString_lays
    (x := smallDouble) (by decide +kernel) hl (by decide +kernel) (by decide +kernel)
  have hnegative : PyFloat.lt smallDouble (PyFloat.ofInt 0) = true := by decide +kernel
  have hwritten : ecmascriptNumberToString smallDouble = lit "-1.5e-7" := by decide +kernel
  rw [hnegative, if_pos rfl] at htext
  exact ⟨d, e, t, by decide +kernel, hde, ht, hwritten.symm.trans htext⟩

end Jcs

end Lakehouse

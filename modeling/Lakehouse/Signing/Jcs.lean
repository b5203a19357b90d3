import Lakehouse.PyJson
/-!
# The canonical form

`canonicalize` is the JSON Canonicalization Scheme the signatures are
computed over: members sorted by UTF-16 code units, no whitespace,
minimal escaping, numbers in the ECMAScript layout.
-/

namespace Lakehouse

namespace Jcs

/-- Big-endian octets of one code unit. -/
def unitOctets (u : ℕ) : List ℕ := [u / 0x100, u % 0x100]

/-- `text.encode("utf-16-be", "surrogatepass")`. -/
def utf16SortKey (t : Text) : List ℕ :=
  t.flatMap fun c =>
    if c < 0x10000 then unitOctets c
    else unitOctets (0xD800 + (c - 0x10000) / 0x400) ++
      unitOctets (0xDC00 + (c - 0x10000) % 0x400)

/-- `int(text)` of an exponent as `repr` writes it. -/
def exponentValue : Text → ℤ
  | 0x2B :: t => digitsValue t
  | 0x2D :: t => -(digitsValue t : ℤ)
  | t => digitsValue t

section Numbers

variable {F : Type} [PyFloat F]

/-- The digits and the exponent of the shortest decimal of a float. -/
def shortestDigits (value : F) : Text × ℤ :=
  let (mantissa, _, exponentText) := Text.partition 0x65 (PyFloat.repr value)
  let exponent := if exponentText = [] then 0 else exponentValue exponentText
  let (integer, _, fraction) := Text.partition 0x2E mantissa
  let digits := (integer ++ fraction).dropWhile (· == 0x30)
  let exponent := exponent - fraction.length
  let stripped := Text.rstripChar 0x30 digits
  let exponent := exponent + (digits.length - stripped.length : ℕ)
  if stripped = [] then ([0x30], 0) else (stripped, exponent)

/-- The exponent part, with its sign. -/
def exponentText (m : ℤ) : Text := 0x65 :: (if 0 ≤ m then 0x2B else 0x2D) :: Text.ofNat m.natAbs

/-- The ECMAScript layout of digits and an exponent. -/
def layout (digits : Text) (exponent : ℤ) : Text :=
  let k : ℤ := digits.length
  let n := exponent + k
  if k ≤ n ∧ n ≤ 21 then digits ++ List.replicate (n - k).toNat 0x30
  else if 0 < n ∧ n ≤ 21 then digits.take n.toNat ++ 0x2E :: digits.drop n.toNat
  else if -6 < n ∧ n ≤ 0 then 0x30 :: 0x2E :: List.replicate (-n).toNat 0x30 ++ digits
  else if k = 1 then digits ++ exponentText (n - 1)
  else digits.take 1 ++ 0x2E :: digits.drop 1 ++ exponentText (n - 1)

/-- `_ecmascript_number_to_string`. -/
def ecmascriptNumberToString (value : F) : Text :=
  if PyFloat.eq value (PyFloat.ofInt 0) then lit "0"
  else
    let sign := if PyFloat.lt value (PyFloat.ofInt 0) then [0x2D] else []
    let (digits, exponent) := shortestDigits (PyFloat.abs value)
    sign ++ layout digits exponent

/-- `_serialize_number`. -/
def serializeNumber : PyNum F → Except PyError Text
  | .int n =>
    if 10 ^ 21 ≤ n.natAbs then
      .error (.valueError
        (lit "JCS cannot canonicalize integers outside the IEEE-754 range"))
    else .ok (Text.ofInt n)
  | .float x =>
    if PyFloat.isFinite x then .ok (ecmascriptNumberToString x)
    else .error (.valueError (lit "JCS cannot canonicalize non-finite numbers"))

/-- How the canonical form is written. -/
def style : Json.Style (PyNum F) PyError where
  number := serializeNumber
  string := Json.quote false
  itemSpace := []
  keySpace := []
  newline _ := []
  sortKey := some utf16SortKey

/-- **The canonical form of a document.** -/
def canonicalize (v : Doc F) : Except PyError Text := v.serialize style 0

end Numbers

/-! ## The order of members -/

theorem utf16SortKey_injective {s t : Text} (hs : s.IsScalar) (ht : t.IsScalar)
    (h : utf16SortKey s = utf16SortKey t) : s = t := by
  induction s generalizing t with
  | nil =>
    cases t with
    | nil => rfl
    | cons d t =>
      exfalso
      simp only [utf16SortKey, List.flatMap_nil, List.flatMap_cons] at h
      split_ifs at h <;> simp [unitOctets] at h
  | cons c s ih =>
    cases t with
    | nil =>
      exfalso
      simp only [utf16SortKey, List.flatMap_nil, List.flatMap_cons] at h
      split_ifs at h <;> simp [unitOctets] at h
    | cons d t =>
      rw [Text.isScalar_cons] at hs ht
      have hc := hs.1
      have hd := ht.1
      unfold Scalar at hc hd
      simp only [utf16SortKey, List.flatMap_cons] at h
      have hkey : c = d ∧ utf16SortKey s = utf16SortKey t := by
        split_ifs at h <;>
          simp only [unitOctets, List.cons_append, List.nil_append, List.cons.injEq] at h
        · exact ⟨by omega, h.2.2⟩
        · omega
        · omega
        · exact ⟨by omega, h.2.2.2.2⟩
      rw [hkey.1, ih hs.2 ht.2 hkey.2]

/-! ## The shortest digits -/

theorem notMem_of_digits {c : ℕ} {t : Text} (ht : ∀ d ∈ t, isDigit d = true)
    (hc : isDigit c = false) : c ∉ t := fun h => by
  rw [ht c h] at hc
  cases hc

/-- The parts a numeral written by `repr` splits into. -/
theorem partition_repr {l : Numeral} (hl : l.IsRepr) :
    ∃ b t, Text.partition 0x65 l.text = (l.int ++ Numeral.fracText l.frac, b, t) ∧
      (if t = [] then 0 else exponentValue t) = Numeral.expValue l.exp := by
  have hint : ∀ d ∈ l.int, isDigit d = true := hl.digits_int.2
  have hm : 0x65 ∉ l.int ++ Numeral.fracText l.frac := by
    rw [List.mem_append, not_or]
    refine ⟨notMem_of_digits hint (by decide), ?_⟩
    cases hf : l.frac with
    | none => exact List.not_mem_nil
    | some f =>
      rw [Numeral.fracText, List.mem_cons, not_or]
      exact ⟨by decide, notMem_of_digits (hl.frac f hf).2 (by decide)⟩
  have htext : l.text = (l.int ++ Numeral.fracText l.frac) ++ Numeral.expText l.exp := by
    rw [Numeral.text, hl.neg]
    simp
  rw [htext]
  rcases he : l.exp with - | ⟨s, e⟩
  · exact ⟨false, [], by rw [Numeral.expText, List.append_nil, Text.partition_of_notMem hm], rfl⟩
  · cases s with
    | none => exact absurd rfl (hl.sign _ _ he)
    | plus => exact ⟨true, 0x2B :: e, Text.partition_append hm, rfl⟩
    | minus => exact ⟨true, 0x2D :: e, Text.partition_append hm, rfl⟩

theorem partition_mantissa {l : Numeral} (hl : l.IsRepr) :
    ∃ b, Text.partition 0x2E (l.int ++ Numeral.fracText l.frac) = (l.int, b, l.frac.getD []) := by
  have hint : ∀ d ∈ l.int, isDigit d = true := hl.digits_int.2
  have hm : 0x2E ∉ l.int := notMem_of_digits hint (by decide)
  cases l.frac with
  | none => exact ⟨false, by rw [Numeral.fracText, List.append_nil, Text.partition_of_notMem hm]; rfl⟩
  | some f => exact ⟨true, Text.partition_append hm⟩

/-- **The digits and the exponent denote the number**, and carry no
superfluous zero. -/
theorem shortestDigits_spec {F : Type} [PyFloat F] {x : F} {l : Numeral} (hl : l.IsRepr)
    (hx : PyFloat.repr x = l.text) (hv : l.value ≠ 0) :
    ∃ d e, shortestDigits x = (d, e) ∧ Numeral.Digits d ∧ d.head? ≠ some 0x30 ∧
      (digitsValue d : ℚ) * 10 ^ e = l.value := by
  obtain ⟨b, t, hp, he⟩ := partition_repr hl
  obtain ⟨b', hp'⟩ := partition_mantissa hl
  have hval : l.value = digitsValue l.digits * (10 : ℚ) ^ l.exponent := by
    rw [Numeral.value, hl.neg]
    simp
  have hdig : ∀ c ∈ l.digits, isDigit c = true := by
    intro c hc
    rcases List.mem_append.1 hc with hc | hc
    · rcases hl.int with h | h
      · rw [h, List.mem_singleton] at hc
        rw [hc]; decide
      · exact h.1.2 c hc
    · cases hf : l.frac with
      | none => rw [hf] at hc; cases hc
      | some f => rw [hf] at hc; exact (hl.frac f hf).2 c hc
  obtain ⟨n, hn⟩ := Text.eq_replicate_append 0x30 l.digits
  have hs := Text.eq_rstripChar_append 0x30 (l.digits.dropWhile (· == 0x30))
  set digits := l.digits.dropWhile (· == 0x30) with hdigits
  set stripped := Text.rstripChar 0x30 digits with hstripped
  have hvalue : digitsValue l.digits =
      digitsValue stripped * 10 ^ (digits.length - stripped.length) := by
    calc digitsValue l.digits = digitsValue digits := by rw [hn, digitsValue_zeros_append]
      _ = _ := by conv_lhs => rw [hs, digitsValue_append_zeros]
  have hne : stripped ≠ [] := by
    intro h
    rw [hval, hvalue, h] at hv
    simp [digitsValue] at hv
  refine ⟨stripped, Numeral.expValue l.exp - (l.frac.getD []).length +
    (digits.length - stripped.length : ℕ), ?_, ⟨hne, ?_⟩, ?_, ?_⟩
  · unfold shortestDigits
    rw [hx, hp]
    dsimp only
    rw [hp', he]
    exact if_neg hne
  · intro c hc
    have hmem : c ∈ digits := by rw [hs]; exact List.mem_append_left _ hc
    exact hdig c ((List.dropWhile_sublist _).mem hmem)
  · intro h
    have hhead : digits.head? = some 0x30 := by
      rw [hs, List.head?_append_of_ne_nil _ hne]
      exact h
    have hnot := List.head?_dropWhile_not (· == 0x30) l.digits
    rw [← hdigits, hhead] at hnot
    exact absurd hnot (by decide)
  · rw [hval, hvalue, Numeral.exponent, zpow_add₀ (by norm_num), zpow_natCast]
    push_cast
    ring

/-! ## The layout -/

/-- The value of a numeral without a sign. -/
theorem value_of_pos (int : Text) (frac : Option Text) (exp : Option (ExpSign × Text)) :
    (⟨false, int, frac, exp⟩ : Numeral).value =
      digitsValue (int ++ frac.getD []) *
        (10 : ℚ) ^ (Numeral.expValue exp - (frac.getD []).length) := by
  simp [Numeral.value, Numeral.digits, Numeral.exponent]

theorem exponentText_spec (m : ℤ) : ∃ x : ExpSign × Text,
    exponentText m = Numeral.expText (some x) ∧ Numeral.expValue (some x) = m ∧
      Numeral.Digits x.2 := by
  obtain ⟨hd, hv, -⟩ := Text.ofNat_spec m.natAbs
  unfold exponentText
  by_cases hm : 0 ≤ m
  · refine ⟨(.plus, Text.ofNat m.natAbs), by rw [if_pos hm]; rfl, ?_, hd⟩
    change (digitsValue (Text.ofNat m.natAbs) : ℤ) = m
    rw [hv]
    omega
  · refine ⟨(.minus, Text.ofNat m.natAbs), by rw [if_neg hm]; rfl, ?_, hd⟩
    rw [Numeral.expValue, hv]
    omega

/-- **The layout writes a numeral** that denotes the digits at their
exponent. -/
theorem layout_spec {d : Text} (hd : Numeral.Digits d) (hh : d.head? ≠ some 0x30) (e : ℤ) :
    ∃ l : Numeral, l.Wf ∧ l.neg = false ∧ layout d e = l.text ∧
      l.value = digitsValue d * 10 ^ e := by
  have hlen : 0 < d.length := List.length_pos_iff.2 hd.1
  unfold layout
  dsimp only
  split_ifs with h₁ h₂ h₃ h₄
  · -- an integer, with zeros up to its last place
    refine ⟨⟨false, d ++ List.replicate (e + d.length - d.length).toNat 0x30, none, none⟩,
      ⟨Or.inr ⟨digits_append hd (digits_zeros _), ?_⟩, by simp, by simp⟩, rfl, ?_, ?_⟩
    · dsimp only
      rw [List.head?_append_of_ne_nil _ hd.1]
      exact hh
    · simp [Numeral.text, Numeral.fracText, Numeral.expText]
    · have he : ((e + d.length - d.length).toNat : ℤ) = e := by omega
      rw [value_of_pos]
      simp only [Option.getD_none, List.append_nil, List.length_nil, Nat.cast_zero, sub_zero,
        Numeral.expValue, zpow_zero, mul_one]
      rw [digitsValue_append_zeros]
      push_cast
      rw [← zpow_natCast, he]
  · -- the point stands inside the digits
    set n := (e + d.length).toNat with hn
    have hnd : n < d.length := by omega
    have hn0 : 0 < n := by omega
    have htake : Numeral.Digits (d.take n) :=
      ⟨by simp [List.take_eq_nil_iff, hd.1]; omega, fun c hc => hd.2 c (List.mem_of_mem_take hc)⟩
    have hdrop : Numeral.Digits (d.drop n) :=
      ⟨by simp [List.drop_eq_nil_iff]; omega, fun c hc => hd.2 c (List.mem_of_mem_drop hc)⟩
    refine ⟨⟨false, d.take n, some (d.drop n), none⟩, ⟨Or.inr ⟨htake, ?_⟩, ?_, by simp⟩, rfl,
      ?_, ?_⟩
    · dsimp only
      rw [List.head?_take, if_neg (by omega)]
      exact hh
    · rintro f hf
      cases hf
      exact hdrop
    · simp [Numeral.text, Numeral.fracText, Numeral.expText]
    · have he : (0 : ℤ) - ((d.drop n).length : ℕ) = e := by
        rw [List.length_drop]
        omega
      rw [value_of_pos, Option.getD_some, List.take_append_drop, Numeral.expValue, he]
  · -- zeros stand between the point and the digits
    set z := (-(e + d.length)).toNat with hz
    refine ⟨⟨false, [0x30], some (List.replicate z 0x30 ++ d), none⟩, ⟨Or.inl rfl, ?_, by simp⟩,
      rfl, ?_, ?_⟩
    · rintro f hf
      cases hf
      exact ⟨by simp [hd.1], fun c hc => (List.mem_append.1 hc).elim (digits_zeros z c) (hd.2 c)⟩
    · simp [Numeral.text, Numeral.fracText, Numeral.expText]
    · have he : (0 : ℤ) - ((List.replicate z 0x30 ++ d).length : ℕ) = e := by
        rw [List.length_append, List.length_replicate]
        omega
      rw [value_of_pos, Option.getD_some, Numeral.expValue, he]
      have hdv : digitsValue ([0x30] ++ (List.replicate z 0x30 ++ d)) = digitsValue d := by
        rw [← digitsValue_zeros_append (z + 1) d, List.replicate_succ]
        rfl
      rw [hdv]
  · -- one digit and an exponent
    obtain ⟨x, hx, hxv, hxd⟩ := exponentText_spec (e + d.length - 1)
    refine ⟨⟨false, d, none, some x⟩, ⟨Or.inr ⟨hd, hh⟩, by simp, ?_⟩, rfl, ?_, ?_⟩
    · rintro s t hst
      cases hst
      exact hxd
    · rw [hx]
      simp [Numeral.text, Numeral.fracText]
    · have he : Numeral.expValue (some x) - (([] : Text).length : ℕ) = e := by
        rw [hxv, List.length_nil]
        omega
      rw [value_of_pos, Option.getD_none, he, List.append_nil]
  · -- a point after the first digit, and an exponent
    obtain ⟨x, hx, hxv, hxd⟩ := exponentText_spec (e + d.length - 1)
    have hlong : 1 < d.length := by omega
    have htake : Numeral.Digits (d.take 1) :=
      ⟨by simp [List.take_eq_nil_iff, hd.1], fun c hc => hd.2 c (List.mem_of_mem_take hc)⟩
    have hdrop : Numeral.Digits (d.drop 1) :=
      ⟨by rw [Ne, List.drop_eq_nil_iff]; omega, fun c hc => hd.2 c (List.mem_of_mem_drop hc)⟩
    refine ⟨⟨false, d.take 1, some (d.drop 1), some x⟩, ⟨Or.inr ⟨htake, ?_⟩, ?_, ?_⟩, rfl, ?_, ?_⟩
    · dsimp only
      rw [List.head?_take, if_neg (by decide)]
      exact hh
    · rintro f hf
      cases hf
      exact hdrop
    · rintro s t hst
      cases hst
      exact hxd
    · rw [hx]
      simp [Numeral.text, Numeral.fracText]
    · have he : Numeral.expValue (some x) - ((d.drop 1).length : ℕ) = e := by
        rw [hxv, List.length_drop]
        omega
      rw [value_of_pos, Option.getD_some, he, List.take_append_drop]

end Jcs

end Lakehouse

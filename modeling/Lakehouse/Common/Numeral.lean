import Mathlib.Data.List.TakeWhile
import Lakehouse.Common.Text
import Mathlib.Data.Rat.Defs
import Mathlib.Algebra.Field.Rat
import Mathlib.Algebra.Order.Field.Rat
import Mathlib.Tactic.IntervalCases
import Mathlib.Tactic.Ring
/-!
# Decimal numerals

The JSON number grammar: an optional minus, an integer part without
superfluous zeros, an optional fraction and an optional exponent. A
numeral is kept as its parts, `Numeral.text` writes it and `scanNumeral`
reads the longest one off the front of a text; the two are inverse on
well-formed numerals (`scanNumeral_text`). `Numeral.value` is the
rational it denotes.
-/

namespace Lakehouse

/-- An ASCII digit. -/
def isDigit (c : ℕ) : Bool := 0x30 ≤ c && c ≤ 0x39

/-- The number a run of digits denotes. -/
def digitsValue (t : Text) : ℕ := t.foldl (fun n c => 10 * n + (c - 0x30)) 0

/-- The sign of an exponent, as written. -/
inductive ExpSign where
  | none | plus | minus
  deriving DecidableEq, Repr

/-- A decimal numeral, in its parts. -/
structure Numeral where
  neg : Bool
  int : Text
  frac : Option Text
  exp : Option (ExpSign × Text)
  deriving DecidableEq, Repr

namespace Numeral

/-- A nonempty run of digits. -/
def Digits (t : Text) : Prop := t ≠ [] ∧ ∀ c ∈ t, isDigit c = true

instance : DecidablePred Digits := fun t => by unfold Digits; infer_instance

/-- The parts are those the grammar allows. -/
structure Wf (l : Numeral) : Prop where
  int : l.int = [0x30] ∨ (Digits l.int ∧ l.int.head? ≠ some 0x30)
  frac : ∀ f, l.frac = some f → Digits f
  exp : ∀ s e, l.exp = some (s, e) → Digits e

/-- No fraction and no exponent: what `parse_int` is called with. -/
def isInt (l : Numeral) : Bool := l.frac.isNone && l.exp.isNone

def fracText : Option Text → Text
  | none => []
  | some f => 0x2E :: f

def expText : Option (ExpSign × Text) → Text
  | none => []
  | some (.none, e) => 0x65 :: e
  | some (.plus, e) => 0x65 :: 0x2B :: e
  | some (.minus, e) => 0x65 :: 0x2D :: e

/-- The numeral as it is written. -/
def text (l : Numeral) : Text :=
  (if l.neg then [0x2D] else []) ++ (l.int ++ (fracText l.frac ++ expText l.exp))

/-- The exponent part as an integer. -/
def expValue : Option (ExpSign × Text) → ℤ
  | none => 0
  | some (.minus, e) => -(digitsValue e : ℤ)
  | some (_, e) => digitsValue e

/-- The digits of the significand. -/
def digits (l : Numeral) : Text := l.int ++ l.frac.getD []

/-- The power of ten the last digit stands at. -/
def exponent (l : Numeral) : ℤ := expValue l.exp - (l.frac.getD []).length

/-- **The rational a numeral denotes.** -/
def value (l : Numeral) : ℚ :=
  (if l.neg then -1 else 1) * (digitsValue l.digits * (10 : ℚ) ^ l.exponent)

/-- The integer an integer numeral denotes. -/
def intValue (l : Numeral) : ℤ :=
  if l.neg then -(digitsValue l.int : ℤ) else digitsValue l.int

/-- An integer numeral denotes its integer. -/
theorem value_of_isInt {l : Numeral} (h : l.isInt = true) : l.value = l.intValue := by
  obtain ⟨neg, int, frac, exp⟩ := l
  simp only [isInt, Bool.and_eq_true, Option.isNone_iff_eq_none] at h
  obtain ⟨rfl, rfl⟩ := h
  cases neg <;> simp [value, intValue, digits, exponent, expValue]

end Numeral

/-! ## Reading a numeral -/

/-- An optional fraction: a point counts only before a digit. -/
def scanFrac : Text → Option Text × Text
  | 0x2E :: c :: t =>
    if isDigit c then (some ((c :: t).takeWhile isDigit), (c :: t).dropWhile isDigit)
    else (none, 0x2E :: c :: t)
  | t => (none, t)

/-- The digits of an exponent after its sign. -/
def scanExpDigits (s : ExpSign) (t whole : Text) : Option (ExpSign × Text) × Text :=
  match t with
  | c :: t =>
    if isDigit c then (some (s, (c :: t).takeWhile isDigit), (c :: t).dropWhile isDigit)
    else (none, whole)
  | [] => (none, whole)

/-- An optional exponent. -/
def scanExp : Text → Option (ExpSign × Text) × Text
  | [] => (none, [])
  | e :: t =>
    if e = 0x65 ∨ e = 0x45 then
      match t with
      | 0x2B :: t => scanExpDigits .plus t (e :: 0x2B :: t)
      | 0x2D :: t => scanExpDigits .minus t (e :: 0x2D :: t)
      | t => scanExpDigits .none t (e :: t)
    else (none, e :: t)

/-- What follows the integer part. -/
def scanTail (neg : Bool) (int t : Text) : Numeral × Text :=
  (⟨neg, int, (scanFrac t).1, (scanExp (scanFrac t).2).1⟩, (scanExp (scanFrac t).2).2)

/-- The numeral after an optional minus. -/
def scanUnsigned (neg : Bool) : Text → Option (Numeral × Text)
  | [] => none
  | c :: t =>
    if c = 0x30 then some (scanTail neg [0x30] t)
    else if isDigit c then
      some (scanTail neg ((c :: t).takeWhile isDigit) ((c :: t).dropWhile isDigit))
    else none

/-- **The longest numeral at the front of a text.** -/
def scanNumeral : Text → Option (Numeral × Text)
  | 0x2D :: t => scanUnsigned true t
  | t => scanUnsigned false t

/-- A run of digits that starts with one. -/
theorem digits_takeWhile {c : ℕ} {t : Text} (hc : isDigit c = true) :
    Numeral.Digits ((c :: t).takeWhile isDigit) := by
  refine ⟨?_, fun d hd => List.mem_takeWhile_imp hd⟩
  rw [List.takeWhile_cons_of_pos hc]
  exact List.cons_ne_nil _ _

/-- A fraction that is read has digits. -/
theorem scanFrac_wf (t : Text) : ∀ f, (scanFrac t).1 = some f → Numeral.Digits f := by
  intro f hf
  unfold scanFrac at hf
  split at hf
  · split_ifs at hf with hc
    cases hf
    exact digits_takeWhile hc
  · cases hf

/-- The digits of an exponent that is read. -/
theorem scanExpDigits_wf (s : ExpSign) (t whole : Text) :
    ∀ s' e, (scanExpDigits s t whole).1 = some (s', e) → Numeral.Digits e := by
  intro s' e he
  unfold scanExpDigits at he
  split at he
  · split_ifs at he with hc
    cases he
    exact digits_takeWhile hc
  · cases he

/-- An exponent that is read has digits. -/
theorem scanExp_wf (t : Text) : ∀ s e, (scanExp t).1 = some (s, e) → Numeral.Digits e := by
  intro s e he
  unfold scanExp at he
  split at he
  · cases he
  · split_ifs at he
    split at he
    · exact scanExpDigits_wf _ _ _ s e he
    · exact scanExpDigits_wf _ _ _ s e he
    · exact scanExpDigits_wf _ _ _ s e he

/-- A numeral that is read is well formed. -/
theorem scanUnsigned_wf {neg : Bool} {t r : Text} {l : Numeral}
    (h : scanUnsigned neg t = some (l, r)) : l.Wf := by
  unfold scanUnsigned at h
  split at h
  · cases h
  · next c t =>
    split_ifs at h with h₀ hc
    · cases h
      exact ⟨Or.inl rfl, scanFrac_wf _, scanExp_wf _⟩
    · cases h
      refine ⟨Or.inr ⟨digits_takeWhile hc, ?_⟩, scanFrac_wf _, scanExp_wf _⟩
      rw [List.takeWhile_cons_of_pos hc, List.head?_cons]
      exact fun h => h₀ (Option.some.inj h)

/-- **What is scanned is a numeral of the grammar.** -/
theorem scanNumeral_wf {t r : Text} {l : Numeral} (h : scanNumeral t = some (l, r)) : l.Wf := by
  unfold scanNumeral at h
  split at h
  · exact scanUnsigned_wf h
  · exact scanUnsigned_wf h

/-- What may follow a numeral without being read into it. -/
def NumeralEnd (t : Text) : Prop :=
  ∀ c, t.head? = some c → isDigit c = false ∧ c ≠ 0x2E ∧ c ≠ 0x65 ∧ c ≠ 0x45

/-- A numeral ends where the text does. -/
theorem numeralEnd_nil : NumeralEnd [] := by intro c h; cases h

/-- A numeral ends before a character that no numeral goes on with. -/
theorem numeralEnd_cons {c : ℕ} {t : Text} :
    NumeralEnd (c :: t) ↔ isDigit c = false ∧ c ≠ 0x2E ∧ c ≠ 0x65 ∧ c ≠ 0x45 := by
  simp [NumeralEnd]

/-- A text no digit stands at the front of. -/
def NoDigit (t : Text) : Prop := ∀ c, t.head? = some c → isDigit c = false

/-- The digits in front of what starts with none are taken. -/
theorem takeWhile_digits {d t : Text} (hd : ∀ c ∈ d, isDigit c = true) (ht : NoDigit t) :
    (d ++ t).takeWhile isDigit = d := by
  induction d with
  | nil =>
    cases t with
    | nil => rfl
    | cons c t => simp [ht c rfl]
  | cons c d ih => simp [hd c (by simp), ih fun x hx => hd x (by simp [hx])]

/-- What stands behind the digits is left. -/
theorem dropWhile_digits {d t : Text} (hd : ∀ c ∈ d, isDigit c = true) (ht : NoDigit t) :
    (d ++ t).dropWhile isDigit = t := by
  induction d with
  | nil =>
    cases t with
    | nil => rfl
    | cons c t => simp [ht c rfl]
  | cons c d ih => simp [hd c (by simp), ih fun x hx => hd x (by simp [hx])]

/-- No digit follows a numeral. -/
theorem NumeralEnd.noDigit {t : Text} (h : NumeralEnd t) : NoDigit t := fun c hc => (h c hc).1

/-- No digit follows the digits before an exponent. -/
theorem noDigit_expText {e : Option (ExpSign × Text)} {t : Text} (ht : NumeralEnd t) :
    NoDigit (Numeral.expText e ++ t) := by
  rcases e with - | ⟨s, e⟩
  · exact ht.noDigit
  · cases s <;> (intro c hc; simp [Numeral.expText] at hc; subst hc; rfl)

/-- The digits of an exponent are read back. -/
theorem scanExpDigits_eq {s : ExpSign} {e t whole : Text} (he : Numeral.Digits e)
    (ht : NumeralEnd t) : scanExpDigits s (e ++ t) whole = (some (s, e), t) := by
  obtain ⟨hne, hd⟩ := he
  cases e with
  | nil => exact absurd rfl hne
  | cons c e =>
    have h₁ := takeWhile_digits hd ht.noDigit
    have h₂ := dropWhile_digits hd ht.noDigit
    simp only [List.cons_append] at h₁ h₂ ⊢
    rw [scanExpDigits, if_pos (hd c (by simp)), h₁, h₂]

/-- An exponent is read back. -/
theorem scanExp_expText {e : Option (ExpSign × Text)} {t : Text}
    (he : ∀ s d, e = some (s, d) → Numeral.Digits d) (ht : NumeralEnd t) :
    scanExp (Numeral.expText e ++ t) = (e, t) := by
  rcases e with - | ⟨s, e⟩
  · cases t with
    | nil => rfl
    | cons c t =>
      have h := numeralEnd_cons.1 ht
      simp only [Numeral.expText, List.nil_append]
      rw [scanExp.eq_def]
      exact if_neg (by omega)
  · have hd := he s e rfl
    cases s with
    | none =>
      obtain ⟨hne, hdig⟩ := hd
      cases e with
      | nil => exact absurd rfl hne
      | cons c e =>
        have hc : isDigit c = true := hdig c (by simp)
        have hp : c ≠ 0x2B := by rintro rfl; exact absurd hc (by decide)
        have hm : c ≠ 0x2D := by rintro rfl; exact absurd hc (by decide)
        simp only [Numeral.expText, List.cons_append]
        rw [scanExp, if_pos (Or.inl rfl)]
        · exact scanExpDigits_eq (e := c :: e) ⟨hne, hdig⟩ ht
        · exact fun _ heq => hp (List.cons.inj heq).1
        · exact fun _ heq => hm (List.cons.inj heq).1
    | plus => exact scanExpDigits_eq hd ht
    | minus => exact scanExpDigits_eq hd ht

/-- A fraction is read back. -/
theorem scanFrac_fracText {f : Option Text} {t : Text} (hf : ∀ d, f = some d → Numeral.Digits d)
    (ht : NoDigit t) (hp : t.head? ≠ some 0x2E) :
    scanFrac (Numeral.fracText f ++ t) = (f, t) := by
  cases f with
  | none =>
    cases t with
    | nil => rfl
    | cons c t =>
      simp only [Numeral.fracText, List.nil_append]
      rw [scanFrac]
      rintro c' t' h
      exact absurd (by rw [h]; rfl) hp
  | some f =>
    obtain ⟨hne, hd⟩ := hf f rfl
    cases f with
    | nil => exact absurd rfl hne
    | cons c f =>
      have h₁ := takeWhile_digits hd ht
      have h₂ := dropWhile_digits hd ht
      simp only [List.cons_append] at h₁ h₂
      simp only [Numeral.fracText, List.cons_append]
      rw [scanFrac, if_pos (hd c (by simp)), h₁, h₂]

/-- An exponent does not start with a point. -/
theorem expText_head {e : Option (ExpSign × Text)} {t : Text} (ht : NumeralEnd t) :
    (Numeral.expText e ++ t).head? ≠ some 0x2E := by
  rcases e with - | ⟨s, e⟩
  · intro h
    exact (ht _ h).2.1 rfl
  · cases s <;> simp [Numeral.expText]

/-- The fraction and the exponent are read back. -/
theorem scanTail_eq {l : Numeral} {t : Text} (hl : l.Wf) (ht : NumeralEnd t) :
    scanTail l.neg l.int (Numeral.fracText l.frac ++ (Numeral.expText l.exp ++ t)) = (l, t) := by
  have hf := scanFrac_fracText hl.frac (noDigit_expText (e := l.exp) ht) (expText_head ht)
  have he := scanExp_expText hl.exp ht
  simp only [scanTail, hf, he]

/-- No digit follows the integer part. -/
theorem noDigit_fracText {l : Numeral} {t : Text} (ht : NumeralEnd t) :
    NoDigit (Numeral.fracText l.frac ++ (Numeral.expText l.exp ++ t)) := by
  cases l.frac with
  | none => exact noDigit_expText ht
  | some f => intro c hc; simp [Numeral.fracText] at hc; subst hc; rfl

/-- The integer part is a run of digits. -/
theorem Numeral.Wf.digits_int {l : Numeral} (hl : l.Wf) : Numeral.Digits l.int := by
  rcases hl.int with hzero | hdigits
  · rw [hzero]
    decide
  · exact hdigits.1

/-- The integer part never starts with a minus. -/
theorem Numeral.Wf.int_cons {l : Numeral} (hl : l.Wf) :
    ∃ c t, l.int = c :: t ∧ isDigit c = true := by
  obtain ⟨hne, hd⟩ := hl.digits_int
  obtain ⟨c, t, h⟩ := List.exists_cons_of_ne_nil hne
  exact ⟨c, t, h, hd c (by simp [h])⟩

/-- A numeral without its minus is read back. -/
theorem scanUnsigned_eq {l : Numeral} {t : Text} (hl : l.Wf) (ht : NumeralEnd t) :
    scanUnsigned l.neg (l.int ++ (Numeral.fracText l.frac ++ (Numeral.expText l.exp ++ t))) =
      some (l, t) := by
  have htail := scanTail_eq hl ht
  rcases hl.int with h | ⟨⟨hne, hd⟩, h0⟩
  · rw [h] at htail ⊢
    rw [List.singleton_append, scanUnsigned, if_pos rfl, htail]
  · obtain ⟨c, d, hc⟩ := List.exists_cons_of_ne_nil hne
    have h₁ := takeWhile_digits hd (noDigit_fracText (l := l) ht)
    have h₂ := dropWhile_digits hd (noDigit_fracText (l := l) ht)
    have hc0 : c ≠ 0x30 := fun hz => h0 (by rw [hc, hz]; rfl)
    have hcd : isDigit c = true := hd c (by simp [hc])
    rw [hc] at h₁ h₂ htail ⊢
    simp only [List.cons_append] at h₁ h₂ ⊢
    rw [scanUnsigned, if_neg hc0, if_pos hcd, h₁, h₂, htail]

/-- **Reading inverts writing**, before anything that cannot continue a
numeral. -/
theorem scanNumeral_text {l : Numeral} {t : Text} (hl : l.Wf) (ht : NumeralEnd t) :
    scanNumeral (l.text ++ t) = some (l, t) := by
  have h := scanUnsigned_eq hl ht
  obtain ⟨c, d, hc, hd⟩ := hl.int_cons
  have hne : c ≠ 0x2D := by rintro rfl; exact absurd hd (by decide)
  unfold Numeral.text
  cases hneg : l.neg with
  | true =>
    rw [hneg] at h
    simpa [scanNumeral] using h
  | false =>
    rw [hneg] at h
    simp only [Bool.false_eq_true, if_false, List.nil_append, List.append_assoc]
    rw [hc, List.cons_append] at h ⊢
    rw [scanNumeral]
    · exact h
    · rintro t' heq
      exact hne (List.cons.inj heq).1

/-- The first character of a numeral. -/
theorem Numeral.Wf.text_cons {l : Numeral} (hl : l.Wf) :
    ∃ c t, l.text = c :: t ∧ (isDigit c = true ∨ c = 0x2D) := by
  obtain ⟨c, d, hc, hd⟩ := hl.int_cons
  unfold Numeral.text
  cases l.neg with
  | true => exact ⟨0x2D, _, rfl, Or.inr rfl⟩
  | false => exact ⟨c, _, by rw [hc]; rfl, Or.inl hd⟩

/-- After a minus a numeral goes on with a digit. -/
theorem Numeral.Wf.not_minus_word {l : Numeral} (hl : l.Wf) {c : ℕ} {w : Text} (rest : Text)
    (hc : isDigit c = false) : ¬(0x2D :: c :: w) <+: l.text ++ rest := by
  obtain ⟨d, t, hd, hdig⟩ := hl.int_cons
  intro hp
  unfold Numeral.text at hp
  rw [hd] at hp
  cases hneg : l.neg with
  | true =>
    rw [hneg, if_pos rfl] at hp
    have hp' := (List.cons_prefix_cons.1 hp).2
    rw [(List.cons_prefix_cons.1 hp').1, hdig] at hc
    cases hc
  | false =>
    rw [hneg, if_neg (by decide)] at hp
    rw [← (List.cons_prefix_cons.1 hp).1] at hdig
    exact absurd hdig (by decide)

/-! ## The numbers numerals denote -/

/-- The value of digits behind others. -/
theorem digitsValue_append (a b : Text) :
    digitsValue (a ++ b) = digitsValue a * 10 ^ b.length + digitsValue b := by
  have h : ∀ (t : Text) (n : ℕ), t.foldl (fun n c => 10 * n + (c - 0x30)) n =
      n * 10 ^ t.length + digitsValue t := by
    intro t
    induction t with
    | nil => intro n; simp [digitsValue]
    | cons c t ih =>
      intro n
      have h₀ : digitsValue (c :: t) = (10 * 0 + (c - 0x30)) * 10 ^ t.length + digitsValue t := ih _
      rw [List.foldl_cons, ih, h₀, List.length_cons, pow_succ]
      ring
  rw [digitsValue, List.foldl_append, h]
  rfl

/-- Zeros denote zero. -/
theorem digitsValue_zeros (n : ℕ) : digitsValue (List.replicate n 0x30) = 0 := by
  induction n with
  | zero => rfl
  | succ n ih =>
    have h₀ : digitsValue [0x30] = 0 := rfl
    rw [List.replicate_succ, ← List.singleton_append, digitsValue_append, ih, h₀, Nat.zero_mul]

/-- Leading zeros count for nothing. -/
theorem digitsValue_zeros_append (n : ℕ) (t : Text) :
    digitsValue (List.replicate n 0x30 ++ t) = digitsValue t := by
  rw [digitsValue_append, digitsValue_zeros, Nat.zero_mul, Nat.zero_add]

/-- Zeros behind digits multiply by ten. -/
theorem digitsValue_append_zeros (n : ℕ) (t : Text) :
    digitsValue (t ++ List.replicate n 0x30) = digitsValue t * 10 ^ n := by
  rw [digitsValue_append, digitsValue_zeros, List.length_replicate, Nat.add_zero]

/-- The value of one digit more. -/
theorem digitsValue_snoc (t : Text) (c : ℕ) :
    digitsValue (t ++ [c]) = 10 * digitsValue t + (c - 0x30) := by
  rw [digitsValue_append, List.length_singleton, pow_one, mul_comm]
  simp [digitsValue]

/-- Digits behind digits. -/
theorem digits_append {a b : Text} (ha : Numeral.Digits a) (hb : ∀ c ∈ b, isDigit c = true) :
    Numeral.Digits (a ++ b) :=
  ⟨by simp [ha.1], fun c hc => (List.mem_append.1 hc).elim (ha.2 c) (hb c)⟩

/-- Zeros are digits. -/
theorem digits_zeros (n : ℕ) : ∀ c ∈ List.replicate n 0x30, isDigit c = true := fun c hc => by
  rw [List.eq_of_mem_replicate hc]
  decide

/-- The digits are the characters from `0` to `9`. -/
theorem isDigit_iff {c : ℕ} : isDigit c = true ↔ 0x30 ≤ c ∧ c ≤ 0x39 := by
  rw [isDigit, Bool.and_eq_true, decide_eq_true_eq, decide_eq_true_eq]

/-- Digits denote less than a one and as many zeros. -/
theorem digitsValue_lt {t : Text} (ht : ∀ c ∈ t, isDigit c = true) : digitsValue t < 10 ^ t.length := by
  induction t using List.reverseRecOn with
  | nil => exact Nat.one_pos
  | append_singleton s c ih =>
    have hc := isDigit_iff.1 (ht c (by simp))
    have hs := ih fun d hd => ht d (List.mem_append_left _ hd)
    rw [digitsValue_snoc, List.length_append, List.length_singleton, pow_succ]
    omega

/-- Digits that end in no zero denote no multiple of ten. -/
theorem digitsValue_mod_ten {t : Text} (ht : Numeral.Digits t) (hlast : t.getLast? ≠ some 0x30) :
    digitsValue t % 10 ≠ 0 := by
  induction t using List.reverseRecOn with
  | nil => exact absurd rfl ht.1
  | append_singleton s c _ =>
    have hc := isDigit_iff.1 (ht.2 c (by simp))
    have hne : c ≠ 0x30 := fun h => hlast (by rw [h]; simp)
    rw [digitsValue_snoc]
    omega

/-- A number below ten is written with one digit. -/
theorem Text.ofNat_of_lt {d : ℕ} (h : d < 10) : Text.ofNat d = [0x30 + d] := by
  interval_cases d <;> rfl

/-- A digit more is written behind the others. -/
theorem Text.ofNat_step {n d : ℕ} (hn : 0 < n) (hd : d < 10) :
    Text.ofNat (10 * n + d) = Text.ofNat n ++ [0x30 + d] := by
  rw [← Text.ofNat_of_lt hd, Text.ofNat, Text.ofNat, Text.ofNat, ← List.map_append,
    Nat.toDigits_append_toDigits (by decide) hn hd]

/-- **`str(n)`** writes digits, without a superfluous zero, that denote
`n`. -/
theorem Text.ofNat_spec (n : ℕ) :
    Numeral.Digits (Text.ofNat n) ∧ digitsValue (Text.ofNat n) = n ∧
      (0 < n → (Text.ofNat n).head? ≠ some 0x30) := by
  induction n using Nat.strong_induction_on with
  | _ n ih =>
    by_cases hn : n < 10
    · rw [Text.ofNat_of_lt hn]
      refine ⟨⟨List.cons_ne_nil _ _, ?_⟩, ?_, ?_⟩
      · simp [isDigit]
        omega
      · simp [digitsValue]
      · intro hpos h
        rw [List.head?_cons, Option.some.injEq] at h
        omega
    · obtain ⟨q, d, hd, rfl⟩ : ∃ q d, d < 10 ∧ n = 10 * q + d :=
        ⟨n / 10, n % 10, Nat.mod_lt _ (by decide), by omega⟩
      have hq : 0 < q := by omega
      obtain ⟨⟨hne, hdig⟩, hval, hhead⟩ := ih q (by omega)
      rw [Text.ofNat_step hq hd]
      refine ⟨⟨by simp, ?_⟩, ?_, fun _ => ?_⟩
      · intro c hc
        rcases List.mem_append.1 hc with hc | hc
        · exact hdig c hc
        · rw [List.mem_singleton] at hc
          subst hc
          simp [isDigit]
          omega
      · rw [digitsValue_append, hval]
        simp [digitsValue]
        omega
      · rw [List.head?_append_of_ne_nil _ hne]
        exact hhead hq

/-- Digits without a superfluous zero are what `str` writes of their value. -/
theorem ofNat_digitsValue {t : Text} (ht : Numeral.Digits t) (hh : t.head? ≠ some 0x30) :
    Text.ofNat (digitsValue t) = t := by
  induction t using List.reverseRecOn with
  | nil => exact absurd rfl ht.1
  | append_singleton s c ih =>
    have hc := isDigit_iff.1 (ht.2 c (by simp))
    rw [digitsValue_snoc]
    cases s with
    | nil =>
      rw [show digitsValue [] = 0 from rfl, Nat.mul_zero, Nat.zero_add,
        Text.ofNat_of_lt (by omega), List.nil_append, Nat.add_sub_cancel' hc.1]
    | cons a s =>
      have hs := ih ⟨List.cons_ne_nil a s, fun d hd => ht.2 d (List.mem_append_left _ hd)⟩ hh
      have hpos : 0 < digitsValue (a :: s) := by
        rw [Nat.pos_iff_ne_zero]
        intro h0
        rw [h0] at hs
        exact hh (by rw [← hs]; rfl)
      rw [Text.ofNat_step hpos (by omega), hs, Nat.add_sub_cancel' hc.1]

/-! ## Integers -/

/-- The numeral `str(n)` writes. -/
def Numeral.ofInt (n : ℤ) : Numeral :=
  ⟨decide (n < 0), Text.ofNat n.natAbs, none, none⟩

/-- A number below a power of ten has no more digits than the power. -/
theorem Text.length_ofNat_le {k n : ℕ} (hk : 0 < k) (hn : n < 10 ^ k) :
    (Text.ofNat n).length ≤ k := by
  rw [Text.ofNat, List.length_map]
  exact (Nat.length_toDigits_le_iff (by decide) hk).2 hn

/-- What an integer is written with. -/
theorem Text.mem_ofInt {n : ℤ} {c : ℕ} (hc : c ∈ Text.ofInt n) : c = 0x2D ∨ isDigit c = true := by
  cases n with
  | ofNat n => exact Or.inr ((Text.ofNat_spec n).1.2 c hc)
  | negSucc n =>
    obtain rfl | hc := List.mem_cons.1 hc
    · exact Or.inl rfl
    · exact Or.inr ((Text.ofNat_spec (n + 1)).1.2 c hc)

/-- A digit is a scalar value. -/
theorem scalar_of_isDigit {c : ℕ} (h : isDigit c = true) : Scalar c := by
  rw [isDigit, Bool.and_eq_true, decide_eq_true_eq, decide_eq_true_eq] at h
  exact Or.inl (by omega)

/-- Natural numbers are written with scalar values. -/
theorem Text.isScalar_ofNat (n : ℕ) : (Text.ofNat n).IsScalar := fun c hc =>
  scalar_of_isDigit ((Text.ofNat_spec n).1.2 c hc)

/-- Integers are written with scalar values. -/
theorem Text.isScalar_ofInt (n : ℤ) : (Text.ofInt n).IsScalar := by
  intro c hc
  obtain rfl | hdigit := Text.mem_ofInt hc
  · decide
  · exact scalar_of_isDigit hdigit

/-- A numeral is written with digits, signs, a point and an `e`. -/
theorem Numeral.Wf.isScalar_text {l : Numeral} (hl : l.Wf) : l.text.IsScalar := by
  have hdigits : ∀ {t : Text}, Digits t → t.IsScalar := fun ht c hc =>
    scalar_of_isDigit (ht.2 c hc)
  have hint : l.int.IsScalar := by
    obtain h | ⟨h, -⟩ := hl.int
    · rw [h]
      decide
    · exact hdigits h
  have hfrac : (fracText l.frac).IsScalar := by
    cases h : l.frac with
    | none => exact Text.isScalar_nil
    | some f => exact Text.isScalar_cons.2 ⟨by decide, hdigits (hl.frac f h)⟩
  have hexp : (expText l.exp).IsScalar := by
    have hsigns : Scalar 0x65 ∧ Scalar 0x2B ∧ Scalar 0x2D := by decide
    cases h : l.exp with
    | none => exact Text.isScalar_nil
    | some p =>
      obtain ⟨sign, e⟩ := p
      have he := hdigits (hl.exp sign e h)
      cases sign <;> simp [expText, hsigns, he]
  have hneg : Text.IsScalar (if l.neg then [0x2D] else []) := by
    split_ifs <;> decide
  unfold Numeral.text
  simp [hneg, hint, hfrac, hexp]

/-- Integers are told apart by their texts. -/
theorem Text.ofInt_injective : Function.Injective Text.ofInt := by
  have hnat : ∀ {m n : ℕ}, Text.ofNat m = Text.ofNat n → m = n := fun {m n} h => by
    rw [← (Text.ofNat_spec m).2.1, h, (Text.ofNat_spec n).2.1]
  have hsign : ∀ {m n : ℕ}, Text.ofNat m ≠ 0x2D :: Text.ofNat n := fun {m n} h => by
    have hdigit := (Text.ofNat_spec m).1.2 0x2D (h ▸ List.mem_cons_self)
    exact absurd hdigit (by decide)
  intro m n h
  cases m with
  | ofNat m =>
    cases n with
    | ofNat n => exact congrArg Int.ofNat (hnat h)
    | negSucc n => exact absurd h hsign
  | negSucc m =>
    cases n with
    | ofNat n => exact absurd h.symm hsign
    | negSucc n => exact congrArg Int.negSucc (Nat.succ.inj (hnat (List.cons.inj h).2))

/-- The numeral of an integer is written as the integer is. -/
theorem Numeral.ofInt_text (n : ℤ) : (Numeral.ofInt n).text = Text.ofInt n := by
  cases n with
  | ofNat n => simp [Numeral.ofInt, Numeral.text, Text.ofInt, fracText, expText]
  | negSucc n =>
    have hneg : Int.negSucc n < 0 := Int.negSucc_lt_zero n
    simp [Numeral.ofInt, Numeral.text, Text.ofInt, fracText, expText, hneg]

/-- The numeral of an integer is well formed. -/
theorem Numeral.ofInt_wf (n : ℤ) : (Numeral.ofInt n).Wf := by
  refine ⟨?_, nofun, nofun⟩
  obtain ⟨hd, -, hh⟩ := Text.ofNat_spec n.natAbs
  by_cases hn : n = 0
  · subst hn
    exact Or.inl rfl
  · exact Or.inr ⟨hd, hh (Int.natAbs_pos.2 hn)⟩

/-- The numeral of an integer denotes it. -/
theorem Numeral.ofInt_intValue (n : ℤ) : (Numeral.ofInt n).intValue = n := by
  obtain ⟨-, hv, -⟩ := Text.ofNat_spec n.natAbs
  unfold Numeral.ofInt Numeral.intValue
  simp only [hv, decide_eq_true_eq]
  split_ifs <;> omega

end Lakehouse

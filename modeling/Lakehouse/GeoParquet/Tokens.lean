import Lakehouse.Common.Numeral
/-!
# The tokens of a WKT text

`findall` of the token pattern takes the words, the numbers and the marks
of a text in order and passes over every other character. A text that is
tokens with whitespace about them is found to be just these
(`findall_of_laid`), and all that is found is a word, a number or a mark
(`isToken_of_findall`).
-/

namespace Lakehouse

/-- **The decimal digits of Unicode**, `unicodedata.decimal`. -/
structure DecimalDigits where
  value : ℕ → Option ℕ
  ascii : ∀ c < 0x80, value c = if isDigit c then some (c - 0x30) else none
  lt_ten : ∀ {c d}, value c = some d → d < 10
  /-- A digit is not whitespace. -/
  ofSpace : ∀ {c}, Text.isSpace c = true → value c = none

namespace GeoParquet

variable (U : DecimalDigits)

/-! ## The pattern -/

/-- `\d`. -/
def isDecimal (c : ℕ) : Bool := (U.value c).isSome

/-- `[A-Za-z]`. -/
def isLetter (c : ℕ) : Bool := (0x41 ≤ c && c ≤ 0x5A) || (0x61 ≤ c && c ≤ 0x7A)

/-- `[(),]`. -/
def isMark (c : ℕ) : Bool := c == 0x28 || c == 0x29 || c == 0x2C

/-- `[eE]`. -/
def isExponent (c : ℕ) : Bool := c == 0x65 || c == 0x45

/-- `[+-]`. -/
def isSign (c : ℕ) : Bool := c == 0x2B || c == 0x2D

/-- One character of a class or none: what is matched and what follows. -/
def matchOptional (p : ℕ → Bool) : Text → Text × Text
  | [] => ([], [])
  | c :: t => if p c then ([c], t) else ([], c :: t)

/-- As many characters of a class as there are. -/
def matchMany (p : ℕ → Bool) (t : Text) : Text × Text := (t.takeWhile p, t.dropWhile p)

/-- `(?:[eE][+-]?\d+)?`. -/
def matchExponent (t : Text) : Text × Text :=
  let (e, u) := matchOptional isExponent t
  let (sign, v) := matchOptional isSign u
  let (digits, rest) := matchMany (isDecimal U) v
  if e ≠ [] ∧ digits ≠ [] then (e ++ (sign ++ digits), rest) else ([], t)

/-- `\d+\.?\d*(?:[eE][+-]?\d+)?|\.\d+`. -/
def matchUnsigned (t : Text) : Option (Text × Text) :=
  let (int, u) := matchMany (isDecimal U) t
  if int ≠ [] then
    let (point, v) := matchOptional (· == 0x2E) u
    let (frac, w) := matchMany (isDecimal U) v
    let (exp, rest) := matchExponent U w
    some (int ++ (point ++ (frac ++ exp)), rest)
  else
    let (point, v) := matchOptional (· == 0x2E) t
    let (frac, rest) := matchMany (isDecimal U) v
    if point ≠ [] ∧ frac ≠ [] then some (point ++ frac, rest) else none

/-- `-?` and an unsigned number. A minus no number follows is none: the
match without it fails at the minus itself. -/
def matchNumber (t : Text) : Option (Text × Text) :=
  let (minus, u) := matchOptional (· == 0x2D) t
  (matchUnsigned U u).map fun m => (minus ++ m.1, m.2)

/-- **`_TOKEN_PATTERN`** at the front of a text. -/
def matchToken (t : Text) : Option (Text × Text) :=
  let (word, rest) := matchMany isLetter t
  if word ≠ [] then some (word, rest)
  else match matchNumber U t with
    | some m => some m
    | none =>
      let (mark, rest) := matchOptional isMark t
      if mark ≠ [] then some (mark, rest) else none

/-- The matches from a place on. -/
def findallFrom : ℕ → Text → List Text
  | 0, _ => []
  | fuel + 1, t =>
    match matchToken U t with
    | some (token, rest) => token :: findallFrom fuel rest
    | none => findallFrom fuel t.tail

/-- **`_TOKEN_PATTERN.findall`.** -/
def findall (t : Text) : List Text := findallFrom U t.length t

/-! ## Tokens -/

/-- Digits, as ASCII ones. -/
def asciiDigits (t : Text) : Text := t.map fun c => 0x30 + (U.value c).getD 0

/-- A run of decimal digits. -/
def Decimals (t : Text) : Prop := ∀ c ∈ t, isDecimal U c = true

def signText : ExpSign → Text
  | .none => []
  | .plus => [0x2B]
  | .minus => [0x2D]

/-- An exponent, or none. -/
inductive Exponent : Text → Option (ExpSign × Text) → Prop
  | absent : Exponent [] none
  | present {e : ℕ} (s : ExpSign) {d : Text} : isExponent e = true → Decimals U d → d ≠ [] →
      Exponent (e :: (signText s ++ d)) (some (s, asciiDigits U d))

def minusText (neg : Bool) : Text := if neg then [0x2D] else []

/-- **A number**, and the numeral it is. -/
inductive Number : Text → Numeral → Prop
  | whole (neg : Bool) {int x : Text} {frac : Option Text} {exp : Option (ExpSign × Text)} :
      Decimals U int → int ≠ [] → (∀ f ∈ frac, Decimals U f) → Exponent U x exp →
      Number (minusText neg ++ (int ++ (Numeral.fracText frac ++ x)))
        ⟨neg, asciiDigits U int, frac.map (asciiDigits U), exp⟩
  | fraction (neg : Bool) {f : Text} : Decimals U f → f ≠ [] →
      Number (minusText neg ++ 0x2E :: f) ⟨neg, [], some (asciiDigits U f), none⟩

def signOf : Text → ExpSign
  | 0x2B :: _ => .plus
  | 0x2D :: _ => .minus
  | _ => .none

/-- The exponent a text is, if it is not empty. -/
def exponentOf (x : Text) : Option (ExpSign × Text) :=
  let (e, y) := matchOptional isExponent x
  let (sign, digits) := matchOptional isSign y
  if e = [] then none else some (signOf sign, asciiDigits U digits)

/-- The numeral the text of a number is. -/
def numeralOf (w : Text) : Numeral :=
  let (minus, u) := matchOptional (· == 0x2D) w
  let (int, v) := matchMany (isDecimal U) u
  let (point, z) := matchOptional (· == 0x2E) v
  let (frac, x) := matchMany (isDecimal U) z
  { neg := minus ≠ []
    int := asciiDigits U int
    frac := if point = [] then none else some (asciiDigits U frac)
    exp := exponentOf U x }

/-- A word. -/
def Word (t : Text) : Prop := t ≠ [] ∧ ∀ c ∈ t, isLetter c = true

/-- **What the pattern matches.** -/
inductive IsToken : Text → Prop
  | word {w : Text} : Word w → IsToken w
  | number {w : Text} {l : Numeral} : Number U w l → IsToken w
  | mark {c : ℕ} : isMark c = true → IsToken [c]

/-- The text ends here, or goes on with whitespace or a mark. -/
def Ends (t : Text) : Prop := ∀ c, t.head? = some c → Text.isSpace c = true ∨ isMark c = true

/-- **A text laid out as tokens**: nothing but whitespace about them, and
some between any two that are not marks. -/
inductive Laid : Text → List Text → Prop
  | done : Laid [] []
  | space {c : ℕ} {t : Text} {ts : List Text} : Text.isSpace c = true → Laid t ts → Laid (c :: t) ts
  | mark {c : ℕ} {t : Text} {ts : List Text} : isMark c = true → Laid t ts → Laid (c :: t) ([c] :: ts)
  | word {w t : Text} {ts : List Text} : Word w → Ends t → Laid t ts → Laid (w ++ t) (w :: ts)
  | number {w t : Text} {l : Numeral} {ts : List Text} : Number U w l → Ends t → Laid t ts →
      Laid (w ++ t) (w :: ts)

/-! ## The classes of characters -/

section Classes

/-- No character of the class stands at the front. -/
def Stops (p : ℕ → Bool) (t : Text) : Prop := ∀ c, t.head? = some c → p c = false

/-- Nothing follows at the end of a text. -/
theorem stops_nil {p : ℕ → Bool} : Stops p [] := nofun

/-- A class stops where the next character is not in it. -/
theorem stops_cons {p : ℕ → Bool} {c : ℕ} {t : Text} : Stops p (c :: t) ↔ p c = false := by
  simp [Stops]

/-- A run of a class is matched as a whole, where the class stops after it. -/
theorem matchMany_run {p : ℕ → Bool} {a t : Text} (ha : ∀ c ∈ a, p c = true) (ht : Stops p t) :
    matchMany p (a ++ t) = (a, t) := by
  have hstop : t.takeWhile p = [] ∧ t.dropWhile p = t := by
    cases t with
    | nil => exact ⟨rfl, rfl⟩
    | cons c t =>
      have hc : ¬p c = true := by rw [stops_cons.1 ht]; exact Bool.false_ne_true
      exact ⟨List.takeWhile_cons_of_neg hc, List.dropWhile_cons_of_neg hc⟩
  rw [matchMany, List.takeWhile_append_of_pos ha, List.dropWhile_append_of_pos ha, hstop.1,
    hstop.2, List.append_nil]

/-- Where a class stops, none of it is matched. -/
theorem matchMany_none {p : ℕ → Bool} {t : Text} (ht : Stops p t) : matchMany p t = ([], t) :=
  matchMany_run (a := []) nofun ht

/-- A character of the class is matched. -/
theorem matchOptional_one {p : ℕ → Bool} {c : ℕ} (hc : p c = true) (t : Text) :
    matchOptional p (c :: t) = ([c], t) := if_pos hc

/-- Where a class stops, its optional character is not matched. -/
theorem matchOptional_none {p : ℕ → Bool} {t : Text} (ht : Stops p t) :
    matchOptional p t = ([], t) := by
  cases t with
  | nil => rfl
  | cons c t => exact if_neg (by rw [stops_cons.1 ht]; exact Bool.false_ne_true)

/-- Among the ASCII characters the decimal digits are `0` to `9`. -/
theorem isDecimal_ascii {c : ℕ} (hc : c < 0x80) : isDecimal U c = isDigit c := by
  rw [isDecimal, U.ascii c hc]
  cases isDigit c
  all_goals rfl

/-- Whitespace is no digit. -/
theorem not_isDecimal_of_isSpace {c : ℕ} (hc : Text.isSpace c = true) : isDecimal U c = false := by
  rw [isDecimal, U.ofSpace hc]
  rfl

/-- The characters the pattern names are ASCII, and none is a digit. -/
theorem not_isDecimal {c : ℕ}
    (hc : isLetter c = true ∨ isMark c = true ∨ isSign c = true ∨ c = 0x2E) :
    isDecimal U c = false := by
  have hclass : c < 0x80 ∧ isDigit c = false := by
    simp only [isLetter, isMark, isSign, isDigit, Bool.or_eq_true, Bool.and_eq_true,
      decide_eq_true_eq, beq_iff_eq, Bool.and_eq_false_iff, decide_eq_false_iff_not] at hc ⊢
    omega
  rw [isDecimal_ascii U hclass.1, hclass.2]

/-- The mark of an exponent is a letter. -/
theorem isLetter_of_isExponent {c : ℕ} (hc : isExponent c = true) : isLetter c = true := by
  simp only [isExponent, Bool.or_eq_true, beq_iff_eq] at hc
  obtain rfl | rfl := hc
  all_goals rfl

/-- A digit is no sign. -/
theorem not_isSign_of_isDecimal {c : ℕ} (hc : isDecimal U c = true) : isSign c = false := by
  by_contra h
  rw [Bool.not_eq_false] at h
  rw [not_isDecimal U (.inr (.inr (.inl h)))] at hc
  cases hc

/-- What ends a token is no letter, no point and no minus. -/
theorem ends_class {c : ℕ} (hc : Text.isSpace c = true ∨ isMark c = true) :
    isLetter c = false ∧ c ≠ 0x2E ∧ c ≠ 0x2D := by
  simp only [Text.isSpace, isLetter, isMark, Bool.or_eq_true, Bool.and_eq_true, beq_iff_eq,
    decide_eq_true_eq, Bool.or_eq_false_iff, Bool.and_eq_false_iff, decide_eq_false_iff_not] at hc ⊢
  omega

/-- Where a token ends, no letter follows. -/
theorem Ends.letter {t : Text} (h : Ends t) : Stops isLetter t := fun c hc => (ends_class (h c hc)).1

/-- Where a token ends, no digit follows. -/
theorem Ends.decimal {t : Text} (h : Ends t) : Stops (isDecimal U) t := fun c hc => by
  rcases h c hc with h | h
  · exact not_isDecimal_of_isSpace U h
  · exact not_isDecimal U (.inr (.inl h))

/-- Where a token ends, no point follows. -/
theorem Ends.point {t : Text} (h : Ends t) : Stops (· == 0x2E) t := fun c hc =>
  beq_false_of_ne (ends_class (h c hc)).2.1

/-- Where a token ends, no exponent follows. -/
theorem Ends.exponent {t : Text} (h : Ends t) : Stops isExponent t := fun c hc => by
  by_contra he
  rw [Bool.not_eq_false] at he
  have hletter := h.letter c hc
  rw [isLetter_of_isExponent he] at hletter
  cases hletter

end Classes

/-! ## The pattern matches a token -/

section Matches

variable {U} {rest : Text}

/-- An exponent, or none, stops digits and points where what follows it does. -/
theorem Exponent.stops {x : Text} {exp : Option (ExpSign × Text)} (h : Exponent U x exp)
    (hr : Ends rest) : Stops (isDecimal U) (x ++ rest) ∧ Stops (· == 0x2E) (x ++ rest) := by
  cases h with
  | absent => exact ⟨hr.decimal U, hr.point⟩
  | present s he hd hne =>
    rw [List.cons_append]
    refine ⟨stops_cons.2 (not_isDecimal U (.inl (isLetter_of_isExponent he))), stops_cons.2 ?_⟩
    simp only [isExponent, Bool.or_eq_true, beq_iff_eq] at he
    obtain rfl | rfl := he
    all_goals rfl

/-- A sign in front of digits is matched. -/
theorem matchSign {s : ExpSign} {d : Text} (hd : Decimals U d) (hne : d ≠ []) :
    matchOptional isSign (signText s ++ (d ++ rest)) = (signText s, d ++ rest) := by
  cases s with
  | none =>
    obtain ⟨c, d, rfl⟩ := List.exists_cons_of_ne_nil hne
    refine matchOptional_none ?_
    rw [List.cons_append]
    exact stops_cons.2 (not_isSign_of_isDecimal U (hd c List.mem_cons_self))
  | plus | minus => rfl

/-- An exponent is matched as a whole, where a token ends after it. -/
theorem matchExponent_of_exponent {x : Text} {exp : Option (ExpSign × Text)} (h : Exponent U x exp)
    (hr : Ends rest) : matchExponent U (x ++ rest) = (x, rest) := by
  cases h with
  | absent =>
    rw [List.nil_append]
    simp only [matchExponent, matchOptional_none hr.exponent]
    exact if_neg fun h => h.1 rfl
  | @present e s d he hd hne =>
    rw [List.cons_append, List.append_assoc]
    simp only [matchExponent, matchOptional_one he, matchSign hd hne,
      matchMany_run hd (hr.decimal U), List.singleton_append]
    exact if_pos ⟨List.cons_ne_nil e [], hne⟩

/-- A number with an integer part is matched as a whole. -/
theorem matchUnsigned_whole {int x : Text} {frac : Option Text} {exp : Option (ExpSign × Text)}
    (hint : Decimals U int) (hne : int ≠ []) (hfrac : ∀ f ∈ frac, Decimals U f)
    (hx : Exponent U x exp) (hr : Ends rest) :
    matchUnsigned U (int ++ (Numeral.fracText frac ++ x) ++ rest) =
      some (int ++ (Numeral.fracText frac ++ x), rest) := by
  have hstops := hx.stops hr
  cases frac with
  | none =>
    rw [Numeral.fracText, List.nil_append, List.append_assoc]
    simp only [matchUnsigned, matchMany_run hint hstops.1, if_pos hne, matchOptional_none hstops.2,
      matchMany_none hstops.1, matchExponent_of_exponent hx hr, List.nil_append]
  | some f =>
    have hpoint : Stops (isDecimal U) (0x2E :: (f ++ (x ++ rest))) :=
      stops_cons.2 (not_isDecimal U (.inr (.inr (.inr rfl))))
    have hmatch : matchOptional (· == 0x2E) (0x2E :: (f ++ (x ++ rest))) = ([0x2E], f ++ (x ++ rest)) :=
      matchOptional_one rfl _
    rw [Numeral.fracText, List.append_assoc, List.cons_append, List.cons_append, List.append_assoc]
    simp only [matchUnsigned, matchMany_run hint hpoint, if_pos hne, hmatch,
      matchMany_run (hfrac f rfl) hstops.1, matchExponent_of_exponent hx hr, List.singleton_append]

/-- A number without an integer part is matched as a whole. -/
theorem matchUnsigned_fraction {f : Text} (hf : Decimals U f) (hne : f ≠ []) (hr : Ends rest) :
    matchUnsigned U (0x2E :: f ++ rest) = some (0x2E :: f, rest) := by
  have hpoint : Stops (isDecimal U) (0x2E :: (f ++ rest)) :=
    stops_cons.2 (not_isDecimal U (.inr (.inr (.inr rfl))))
  have hmatch : matchOptional (· == 0x2E) (0x2E :: (f ++ rest)) = ([0x2E], f ++ rest) :=
    matchOptional_one rfl _
  rw [List.cons_append]
  simp only [matchUnsigned, matchMany_none hpoint, hmatch, matchMany_run hf (hr.decimal U),
    List.singleton_append]
  rw [if_neg (not_not.2 rfl), if_pos ⟨List.cons_ne_nil _ _, hne⟩]

/-- A minus is matched in front of what has none itself. -/
theorem matchMinus (neg : Bool) {m : Text} (hminus : m.head? ≠ some 0x2D) :
    matchOptional (· == 0x2D) (minusText neg ++ m) = (minusText neg, m) := by
  cases neg with
  | true => exact matchOptional_one rfl m
  | false => exact matchOptional_none fun c hc => beq_false_of_ne fun h => hminus (h ▸ hc)

/-- The sign of a number goes with it. -/
theorem matchNumber_signed (neg : Bool) {m t : Text} (hm : m ≠ []) (hminus : m.head? ≠ some 0x2D)
    (h : matchUnsigned U (m ++ t) = some (m, t)) :
    matchNumber U (minusText neg ++ m ++ t) = some (minusText neg ++ m, t) := by
  have hhead : (m ++ t).head? ≠ some 0x2D := by rwa [List.head?_append_of_ne_nil _ hm]
  rw [List.append_assoc]
  simp only [matchNumber, matchMinus neg hhead, h, Option.map_some]

/-- A digit or a point is no minus. -/
theorem head_ne_minus {c : ℕ} {t : Text} (hc : isDecimal U c = true ∨ c = 0x2E) :
    (c :: t).head? ≠ some 0x2D := by
  rw [List.head?_cons, Ne, Option.some.injEq]
  rintro rfl
  rcases hc with hc | hc
  · rw [not_isDecimal U (.inr (.inr (.inl rfl)))] at hc
    cases hc
  · cases hc

/-- A run of digits does not start with a minus. -/
theorem head_ne_minus_run {a : Text} (ha : Decimals U a) (hne : a ≠ []) (t : Text) :
    (a ++ t).head? ≠ some 0x2D := by
  obtain ⟨c, a, rfl⟩ := List.exists_cons_of_ne_nil hne
  exact head_ne_minus (.inl (ha c List.mem_cons_self))

/-- **A number is matched whole.** -/
theorem matchNumber_of_number {w : Text} {l : Numeral} (h : Number U w l) (hr : Ends rest) :
    matchNumber U (w ++ rest) = some (w, rest) := by
  cases h with
  | @whole neg int x frac exp hint hne hfrac hx =>
    exact matchNumber_signed neg (List.append_ne_nil_of_left_ne_nil hne _)
      (head_ne_minus_run hint hne _) (matchUnsigned_whole hint hne hfrac hx hr)
  | fraction neg hf hne =>
    exact matchNumber_signed neg (List.cons_ne_nil _ _) (head_ne_minus (U := U) (.inr rfl))
      (matchUnsigned_fraction hf hne hr)

/-- A minus is written exactly for a negative number. -/
theorem minusText_ne_nil (neg : Bool) : decide (minusText neg ≠ []) = neg := by
  cases neg
  all_goals rfl

/-- No digits are written as none. -/
theorem asciiDigits_nil : asciiDigits U [] = [] := rfl

/-- The exponent of a numeral, off the end of its text. -/
theorem exponentOf_of_exponent {x : Text} {exp : Option (ExpSign × Text)} (h : Exponent U x exp) :
    exponentOf U x = exp := by
  cases h with
  | absent => rfl
  | @present e s d he hd hne =>
    have hsign : matchOptional isSign (signText s ++ (d ++ [])) = (signText s, d ++ []) :=
      matchSign hd hne
    rw [List.append_nil] at hsign
    simp only [exponentOf, matchOptional_one he, hsign]
    rw [if_neg (List.cons_ne_nil e [])]
    cases s
    all_goals rfl

/-- **A text is one numeral.** -/
theorem numeralOf_of_number {w : Text} {l : Numeral} (h : Number U w l) : numeralOf U w = l := by
  have hends : Ends [] := nofun
  have hpoint : ∀ t, Stops (isDecimal U) (0x2E :: t) := fun t =>
    stops_cons.2 (not_isDecimal U (.inr (.inr (.inr rfl))))
  have hmatch : ∀ t, matchOptional (· == 0x2E) (0x2E :: t) = ([0x2E], t) := matchOptional_one rfl
  cases h with
  | @whole neg int x frac exp hint hne hfrac hx =>
    have hexp := exponentOf_of_exponent hx
    have hstops := hx.stops hends
    rw [List.append_nil] at hstops
    have hminus := matchMinus neg (head_ne_minus_run hint hne (Numeral.fracText frac ++ x))
    cases frac with
    | none =>
      rw [Numeral.fracText, List.nil_append] at hminus ⊢
      simp only [numeralOf, hminus, matchMany_run hint hstops.1, matchOptional_none hstops.2,
        matchMany_none hstops.1, hexp, minusText_ne_nil, if_true, Option.map_none]
    | some f =>
      have hshape : Numeral.fracText (some f) ++ x = 0x2E :: (f ++ x) := rfl
      rw [hshape] at hminus ⊢
      simp only [numeralOf, hminus, matchMany_run hint (hpoint _), hmatch,
        matchMany_run (hfrac f rfl) hstops.1, hexp, minusText_ne_nil, List.cons_ne_nil, if_false,
        Option.map_some]
  | @fraction neg f hf hne =>
    have hminus := matchMinus neg (m := 0x2E :: f) (head_ne_minus (U := U) (.inr rfl))
    have hrun := matchMany_run hf (stops_nil (p := isDecimal U))
    rw [List.append_nil] at hrun
    simp only [numeralOf, hminus, matchMany_none (hpoint f), hmatch, hrun, minusText_ne_nil,
      List.cons_ne_nil, if_false, exponentOf_of_exponent .absent, asciiDigits_nil]

/-- Whitespace and marks start no word and no number. -/
theorem matchNumber_none {c : ℕ} {t : Text} (hc : Text.isSpace c = true ∨ isMark c = true) :
    matchMany isLetter (c :: t) = ([], c :: t) ∧ matchNumber U (c :: t) = none := by
  have hends : Ends (c :: t) := fun d hd => by
    cases hd
    exact hc
  have hminus : Stops (· == 0x2D) (c :: t) := stops_cons.2 (beq_false_of_ne (ends_class hc).2.2)
  refine ⟨matchMany_none hends.letter, ?_⟩
  simp only [matchNumber, matchOptional_none hminus, matchUnsigned, matchMany_none (hends.decimal U),
    matchOptional_none hends.point]
  rfl

/-- A mark is a token. -/
theorem matchToken_mark {c : ℕ} (hc : isMark c = true) (t : Text) :
    matchToken U (c :: t) = some ([c], t) := by
  obtain ⟨hword, hnumber⟩ := matchNumber_none (U := U) (t := t) (.inr hc)
  simp only [matchToken, hword, hnumber, matchOptional_one hc]
  rfl

/-- No token starts with whitespace. -/
theorem matchToken_space {c : ℕ} (hc : Text.isSpace c = true) (t : Text) :
    matchToken U (c :: t) = none := by
  obtain ⟨hword, hnumber⟩ := matchNumber_none (U := U) (t := t) (.inl hc)
  have hmark : Stops isMark (c :: t) := by
    rw [stops_cons]
    simp only [Text.isSpace, isMark, Bool.or_eq_true, Bool.and_eq_true, beq_iff_eq,
      decide_eq_true_eq, Bool.or_eq_false_iff, beq_eq_false_iff_ne] at hc ⊢
    omega
  simp only [matchToken, hword, hnumber, matchOptional_none hmark]
  rfl

/-- A word is matched as a whole, where a token ends after it. -/
theorem matchToken_word {w : Text} (hw : Word w) (hr : Ends rest) :
    matchToken U (w ++ rest) = some (w, rest) := by
  simp only [matchToken, matchMany_run hw.2 hr.letter]
  exact if_pos hw.1

/-- A digit is no letter. -/
theorem not_isLetter_of_isDecimal {c : ℕ} (hc : isDecimal U c = true) : isLetter c = false := by
  by_contra h
  rw [Bool.not_eq_false] at h
  rw [not_isDecimal U (.inl h)] at hc
  cases hc

/-- A number is not empty and does not start with a letter. -/
theorem Number.stops_letter {w : Text} {l : Numeral} (h : Number U w l) (t : Text) :
    w ≠ [] ∧ Stops isLetter (w ++ t) := by
  cases h with
  | @whole neg int x frac exp hint hne =>
    obtain ⟨c, int, rfl⟩ := List.exists_cons_of_ne_nil hne
    cases neg with
    | true => exact ⟨List.cons_ne_nil _ _, stops_cons.2 rfl⟩
    | false =>
      exact ⟨List.cons_ne_nil _ _,
        stops_cons.2 (not_isLetter_of_isDecimal (hint c List.mem_cons_self))⟩
  | fraction neg =>
    cases neg
    all_goals exact ⟨List.cons_ne_nil _ _, stops_cons.2 rfl⟩

/-- A number is matched as a whole, where a token ends after it. -/
theorem matchToken_number {w : Text} {l : Numeral} (h : Number U w l) (hr : Ends rest) :
    matchToken U (w ++ rest) = some (w, rest) := by
  simp only [matchToken, matchMany_none (h.stops_letter rest).2, matchNumber_of_number h hr]
  rfl

/-- A token matched is found, before what is found in the rest. -/
theorem findallFrom_token {w t : Text} (hw : w ≠ []) (h : matchToken U (w ++ t) = some (w, t))
    {fuel : ℕ} (hf : (w ++ t).length ≤ fuel) {ts : List Text}
    (ih : ∀ {fuel}, t.length ≤ fuel → findallFrom U fuel t = ts) :
    findallFrom U fuel (w ++ t) = w :: ts := by
  have hpos := List.length_pos_of_ne_nil hw
  rw [List.length_append] at hf
  obtain ⟨fuel, rfl⟩ : ∃ k, fuel = k + 1 := ⟨fuel - 1, by omega⟩
  rw [findallFrom, h]
  exact congrArg (w :: ·) (ih (by omega))

/-- Nothing is found in the empty text. -/
theorem findallFrom_nil (fuel : ℕ) : findallFrom U fuel [] = [] := by
  induction fuel with
  | zero => rfl
  | succ fuel ih => exact ih

/-- **A text laid out as tokens is found to be these tokens.** -/
theorem findall_of_laid {t : Text} {ts : List Text} (h : Laid U t ts) : findall U t = ts := by
  suffices hall : ∀ {fuel}, t.length ≤ fuel → findallFrom U fuel t = ts from hall le_rfl
  induction h with
  | done => exact fun _ => findallFrom_nil _
  | @space c t ts hc _ ih =>
    intro fuel hf
    rw [List.length_cons] at hf
    obtain ⟨fuel, rfl⟩ : ∃ k, fuel = k + 1 := ⟨fuel - 1, by omega⟩
    rw [findallFrom, matchToken_space hc]
    exact ih (by omega)
  | mark hc _ ih => exact fun hf => findallFrom_token (List.cons_ne_nil _ []) (matchToken_mark hc _) hf ih
  | word hw hr _ ih => exact fun hf => findallFrom_token hw.1 (matchToken_word hw hr) hf ih
  | number hw hr _ ih =>
    exact fun hf => findallFrom_token (hw.stops_letter []).1 (matchToken_number hw hr) hf ih

end Matches

/-! ## What is found is a token -/

section Found

variable {U}

/-- What is matched is of the class, which stops after it. -/
theorem matchMany_spec {p : ℕ → Bool} {t a r : Text} (h : matchMany p t = (a, r)) :
    (∀ c ∈ a, p c = true) ∧ Stops p r := by
  cases h
  refine ⟨fun c hc => List.mem_takeWhile_imp hc, fun c hc => ?_⟩
  have hnot := List.head?_dropWhile_not p t
  rw [hc] at hnot
  simpa using hnot

/-- What an optional character matches: nothing, or one of the class. -/
theorem matchOptional_spec {p : ℕ → Bool} {t a r : Text} (h : matchOptional p t = (a, r)) :
    (a = [] ∧ r = t) ∨ ∃ c, a = [c] ∧ p c = true := by
  cases t with
  | nil =>
    cases h
    exact .inl ⟨rfl, rfl⟩
  | cons c t =>
    rw [matchOptional] at h
    split_ifs at h with hc <;> cases h
    · exact .inr ⟨c, rfl, hc⟩
    · exact .inl ⟨rfl, rfl⟩

/-- What matches the optional sign is the text of one. -/
theorem signText_of_match {t a r : Text} (h : matchOptional isSign t = (a, r)) :
    ∃ s, a = signText s := by
  obtain ⟨rfl, -⟩ | ⟨c, rfl, hc⟩ := matchOptional_spec h
  · exact ⟨.none, rfl⟩
  · simp only [isSign, Bool.or_eq_true, beq_iff_eq] at hc
    obtain rfl | rfl := hc
    · exact ⟨.plus, rfl⟩
    · exact ⟨.minus, rfl⟩

/-- What matches the exponent is one. -/
theorem exponent_of_match {t x r : Text} (h : matchExponent U t = (x, r)) :
    ∃ exp, Exponent U x exp := by
  unfold matchExponent at h
  rcases he : matchOptional isExponent t with ⟨e, u⟩
  rcases hs : matchOptional isSign u with ⟨sign, v⟩
  rcases hd : matchMany (isDecimal U) v with ⟨digits, w⟩
  simp only [he, hs, hd] at h
  split_ifs at h with hne <;> cases h
  · obtain ⟨rfl, -⟩ | ⟨c, rfl, hc⟩ := matchOptional_spec he
    · exact absurd rfl hne.1
    · obtain ⟨s, rfl⟩ := signText_of_match hs
      exact ⟨_, .present s hc (matchMany_spec hd).1 hne.2⟩
  · exact ⟨none, .absent⟩

/-- What matches the optional minus is the text of one. -/
theorem minusText_of_match {t a r : Text} (h : matchOptional (· == 0x2D) t = (a, r)) :
    ∃ neg, a = minusText neg := by
  obtain ⟨rfl, -⟩ | ⟨c, rfl, hc⟩ := matchOptional_spec h
  · exact ⟨false, rfl⟩
  · rw [beq_iff_eq] at hc
    exact ⟨true, by rw [hc]; rfl⟩

/-- What is matched as an unsigned number is one, under either sign. -/
theorem number_of_matchUnsigned {t m r : Text} (h : matchUnsigned U t = some (m, r)) (neg : Bool) :
    ∃ l, Number U (minusText neg ++ m) l := by
  unfold matchUnsigned at h
  rcases hi : matchMany (isDecimal U) t with ⟨int, u⟩
  rcases hp : matchOptional (· == 0x2E) u with ⟨point, v⟩
  rcases hf : matchMany (isDecimal U) v with ⟨frac, w⟩
  rcases hx : matchExponent U w with ⟨x, z⟩
  rcases hp' : matchOptional (· == 0x2E) t with ⟨point', v'⟩
  rcases hf' : matchMany (isDecimal U) v' with ⟨frac', w'⟩
  simp only [hi, hp, hf, hx, hp', hf'] at h
  split_ifs at h with hne hfrac <;> cases h
  · obtain ⟨exp, hexp⟩ := exponent_of_match hx
    obtain ⟨rfl, rfl⟩ | ⟨c, rfl, hc⟩ := matchOptional_spec hp
    · -- without a point no digit follows the first run
      rw [matchMany_none (matchMany_spec hi).2] at hf
      cases hf
      have hnumber : Number U (minusText neg ++ (int ++ (Numeral.fracText none ++ x))) _ :=
        .whole neg (matchMany_spec hi).1 hne nofun hexp
      exact ⟨_, hnumber⟩
    · rw [beq_iff_eq] at hc
      subst hc
      have hnumber : Number U (minusText neg ++ (int ++ (Numeral.fracText (some frac) ++ x))) _ :=
        .whole neg (matchMany_spec hi).1 hne (fun f hm => by cases hm; exact (matchMany_spec hf).1) hexp
      exact ⟨_, hnumber⟩
  · obtain ⟨rfl, -⟩ | ⟨c, rfl, hc⟩ := matchOptional_spec hp'
    · exact absurd rfl hfrac.1
    · rw [beq_iff_eq] at hc
      subst hc
      exact ⟨_, .fraction neg (matchMany_spec hf').1 hfrac.2⟩

/-- What matches the token pattern is a token. -/
theorem isToken_of_match {t w r : Text} (h : matchToken U t = some (w, r)) : IsToken U w := by
  unfold matchToken at h
  rcases hw : matchMany isLetter t with ⟨word, u⟩
  rcases hm : matchOptional isMark t with ⟨mark, v⟩
  simp only [hw, hm] at h
  by_cases hne : word ≠ []
  · rw [if_pos hne] at h
    cases h
    exact .word ⟨hne, (matchMany_spec hw).1⟩
  · rw [if_neg hne] at h
    cases hn : matchNumber U t with
    | some m =>
      rw [hn] at h
      cases h
      unfold matchNumber at hn
      rcases hs : matchOptional (· == 0x2D) t with ⟨minus, z⟩
      simp only [hs, Option.map_eq_some_iff] at hn
      obtain ⟨⟨m, z'⟩, hu, hm⟩ := hn
      cases hm
      obtain ⟨neg, rfl⟩ := minusText_of_match hs
      obtain ⟨l, hl⟩ := number_of_matchUnsigned hu neg
      exact .number hl
    | none =>
      rw [hn] at h
      dsimp only at h
      split_ifs at h with hmark
      cases h
      obtain ⟨rfl, -⟩ | ⟨c, rfl, hc⟩ := matchOptional_spec hm
      · exact absurd rfl hmark
      · exact .mark hc

/-- All that is found is tokens. -/
theorem isToken_of_findallFrom {fuel : ℕ} {t : Text} : ∀ w ∈ findallFrom U fuel t, IsToken U w := by
  induction fuel generalizing t with
  | zero => nofun
  | succ fuel ih =>
    intro w hw
    rw [findallFrom] at hw
    cases hm : matchToken U t with
    | none =>
      rw [hm] at hw
      exact ih w hw
    | some m =>
      rw [hm] at hw
      obtain rfl | hw := List.mem_cons.1 hw
      · exact isToken_of_match hm
      · exact ih w hw

/-- **Words, numbers and marks are all that is found.** -/
theorem isToken_of_findall {t : Text} : ∀ w ∈ findall U t, IsToken U w := isToken_of_findallFrom

end Found

end GeoParquet

end Lakehouse

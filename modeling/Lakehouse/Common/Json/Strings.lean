import Lakehouse.Common.Text
/-!
# JSON strings

How `json.dumps` escapes a text, with `ensure_ascii` and without, and
how `json.loads` reads it back. Two escaped surrogates that form a pair
are read as one code point, so only a text of scalar values survives the
round trip (`scanString_quote`).
-/

namespace Lakehouse

namespace Json

/-- A lower-case hexadecimal digit. -/
def hexDigit (n : ℕ) : ℕ := if n < 10 then 0x30 + n else 0x61 + (n - 10)

/-- The value of a hexadecimal digit, of either case. -/
def hexValue (c : ℕ) : Option ℕ :=
  if 0x30 ≤ c ∧ c ≤ 0x39 then some (c - 0x30)
  else if 0x61 ≤ c ∧ c ≤ 0x66 then some (c - 0x61 + 10)
  else if 0x41 ≤ c ∧ c ≤ 0x46 then some (c - 0x41 + 10)
  else none

/-- `\uXXXX`. -/
def unicodeEscape (c : ℕ) : Text :=
  [0x5C, 0x75, hexDigit (c / 0x1000), hexDigit (c / 0x100 % 0x10), hexDigit (c / 0x10 % 0x10),
    hexDigit (c % 0x10)]

/-- The letter of a two-character escape. -/
def shortEscape (c : ℕ) : Option ℕ :=
  if c = 0x22 then some 0x22
  else if c = 0x5C then some 0x5C
  else if c = 0x08 then some 0x62
  else if c = 0x0C then some 0x66
  else if c = 0x0A then some 0x6E
  else if c = 0x0D then some 0x72
  else if c = 0x09 then some 0x74
  else none

/-- One code point inside a string; `ascii` is `ensure_ascii`. -/
def escapeChar (ascii : Bool) (c : ℕ) : Text :=
  match shortEscape c with
  | some e => [0x5C, e]
  | none =>
    if c < 0x20 then unicodeEscape c
    else if ascii = false ∨ c ≤ 0x7E then [c]
    else if c < 0x10000 then unicodeEscape c
    else unicodeEscape (0xD800 + (c - 0x10000) / 0x400) ++
      unicodeEscape (0xDC00 + (c - 0x10000) % 0x400)

/-- `json.dumps(text)`. -/
def quote (ascii : Bool) (t : Text) : Text := 0x22 :: t.flatMap (escapeChar ascii) ++ [0x22]

/-- The character a two-character escape stands for. -/
def unescape (e : ℕ) : Option ℕ :=
  if e = 0x22 then some 0x22
  else if e = 0x5C then some 0x5C
  else if e = 0x2F then some 0x2F
  else if e = 0x62 then some 0x08
  else if e = 0x66 then some 0x0C
  else if e = 0x6E then some 0x0A
  else if e = 0x72 then some 0x0D
  else if e = 0x74 then some 0x09
  else none

/-- Four hexadecimal digits. -/
def hexQuad (a b c d : ℕ) : Option ℕ := do
  let a ← hexValue a
  let b ← hexValue b
  let c ← hexValue c
  let d ← hexValue d
  return ((a * 0x10 + b) * 0x10 + c) * 0x10 + d

/-- The units of a string after its opening quote, each with whether a
`\u` escape wrote it, and what follows the closing quote. -/
def scanUnits : Text → Option (List (Bool × ℕ) × Text)
  | [] => none
  | c :: t =>
    if c = 0x22 then some ([], t)
    else if c = 0x5C then
      match t with
      | [] => none
      | e :: t =>
        if e = 0x75 then
          match t with
          | a :: b :: c :: d :: t =>
            match hexQuad a b c d with
            | some u => (scanUnits t).map fun r => ((true, u) :: r.1, r.2)
            | none => none
          | _ => none
        else
          match unescape e with
          | some u => (scanUnits t).map fun r => ((false, u) :: r.1, r.2)
          | none => none
    else if c < 0x20 then none
    else (scanUnits t).map fun r => ((false, c) :: r.1, r.2)

/-- Two escaped surrogates that form a pair are one code point. -/
def joinUnits : List (Bool × ℕ) → Text
  | [] => []
  | [u] => [u.2]
  | u :: v :: us =>
    if u.1 ∧ v.1 ∧ 0xD800 ≤ u.2 ∧ u.2 < 0xDC00 ∧ 0xDC00 ≤ v.2 ∧ v.2 < 0xE000 then
      (0x10000 + (u.2 - 0xD800) * 0x400 + (v.2 - 0xDC00)) :: joinUnits us
    else u.2 :: joinUnits (v :: us)

/-- The rest of a string after its opening quote. -/
def scanString (t : Text) : Option (Text × Text) :=
  (scanUnits t).map fun r => (joinUnits r.1, r.2)

/-- The `msg` of a string that is refused: what is wrong where the scan ends.
The four digits of an escape are only read with something after them. -/
def stringFault : Text → Text
  | [] => lit "Unterminated string starting at"
  | c :: t =>
    if c = 0x22 then []
    else if c = 0x5C then
      match t with
      | [] => lit "Unterminated string starting at"
      | e :: t =>
        if e = 0x75 then
          match t with
          | a :: b :: c :: d :: t =>
            if (hexQuad a b c d).isSome ∧ t ≠ [] then stringFault t
            else lit "Invalid \\uXXXX escape"
          | _ => lit "Invalid \\uXXXX escape"
        else if (unescape e).isSome then stringFault t
        else lit "Invalid \\escape"
    else if c < 0x20 then lit "Invalid control character at"
    else stringFault t

/-! ## The round trip -/

/-- A hex digit has its value. -/
theorem hexValue_hexDigit {n : ℕ} (h : n < 16) : hexValue (hexDigit n) = some n := by
  unfold hexDigit hexValue
  split_ifs <;> first | omega | (congr 1; omega)

/-- The four digits of an escape are read back. -/
theorem hexQuad_unicodeEscape {c : ℕ} (h : c < 0x10000) :
    hexQuad (hexDigit (c / 0x1000)) (hexDigit (c / 0x100 % 0x10)) (hexDigit (c / 0x10 % 0x10))
      (hexDigit (c % 0x10)) = some c := by
  have h₁ := hexValue_hexDigit (n := c / 0x1000) (by omega)
  have h₂ := hexValue_hexDigit (n := c / 0x100 % 0x10) (by omega)
  have h₃ := hexValue_hexDigit (n := c / 0x10 % 0x10) (by omega)
  have h₄ := hexValue_hexDigit (n := c % 0x10) (by omega)
  have hc : ((c / 0x1000 * 0x10 + c / 0x100 % 0x10) * 0x10 + c / 0x10 % 0x10) * 0x10 + c % 0x10
      = c := by omega
  simp [hexQuad, h₁, h₂, h₃, h₄, hc]

/-- A short escape is read back, and is not `u`. -/
theorem unescape_shortEscape {c e : ℕ} (h : shortEscape c = some e) :
    unescape e = some c ∧ e ≠ 0x75 := by
  unfold shortEscape at h
  split_ifs at h <;> (cases h; subst_vars; exact ⟨by decide, by decide⟩)

/-- An escape scans as one unit. -/
theorem scanUnits_unicodeEscape {c : ℕ} (h : c < 0x10000) (t : Text) :
    scanUnits (unicodeEscape c ++ t) = (scanUnits t).map fun r => ((true, c) :: r.1, r.2) := by
  rw [unicodeEscape]
  simp only [List.cons_append, List.nil_append]
  rw [scanUnits, if_neg (by decide), if_pos rfl]
  simp only [if_true, hexQuad_unicodeEscape h]

/-- The units one code point is written as. -/
def unitsOf (ascii : Bool) (c : ℕ) : List (Bool × ℕ) :=
  match shortEscape c with
  | some _ => [(false, c)]
  | none =>
    if c < 0x20 then [(true, c)]
    else if ascii = false ∨ c ≤ 0x7E then [(false, c)]
    else if c < 0x10000 then [(true, c)]
    else [(true, 0xD800 + (c - 0x10000) / 0x400), (true, 0xDC00 + (c - 0x10000) % 0x400)]

/-- A character scans as its units. -/
theorem scanUnits_escapeChar {ascii : Bool} {c : ℕ} (hc : ascii = true → c < 0x110000) (t : Text) :
    scanUnits (escapeChar ascii c ++ t) =
      (scanUnits t).map fun r => (unitsOf ascii c ++ r.1, r.2) := by
  unfold escapeChar unitsOf
  cases hs : shortEscape c with
  | some e =>
    obtain ⟨hu, hne⟩ := unescape_shortEscape hs
    simp only [List.cons_append, List.nil_append]
    rw [scanUnits.eq_def]
    simp only [if_neg (show (0x5C : ℕ) ≠ 0x22 by decide), if_true, if_neg hne, hu]
  | none =>
    have hq : c ≠ 0x22 := by rintro rfl; cases hs
    have hb : c ≠ 0x5C := by rintro rfl; cases hs
    dsimp only
    split_ifs with h₁ h₂ h₃
    · exact scanUnits_unicodeEscape (by omega) t
    · simp only [List.cons_append, List.nil_append]
      rw [scanUnits.eq_def]
      simp only [if_neg hq, if_neg hb, if_neg h₁]
    · exact scanUnits_unicodeEscape h₃ t
    · have hbound := hc (by simpa using (not_or.1 h₂).1)
      rw [List.append_assoc, scanUnits_unicodeEscape (by omega),
        scanUnits_unicodeEscape (by omega), Option.map_map]
      rfl

/-- A text scans as the units of its characters. -/
theorem scanUnits_flatMap {ascii : Bool} {t : Text} (ht : ascii = true → t.IsScalar) (rest : Text) :
    scanUnits (t.flatMap (escapeChar ascii) ++ 0x22 :: rest) =
      some (t.flatMap (unitsOf ascii), rest) := by
  induction t with
  | nil =>
    rw [List.flatMap_nil, List.nil_append, scanUnits.eq_def]
    exact if_pos rfl
  | cons c t ih =>
    have hc : ascii = true → c < 0x110000 := fun h => by
      have hscalar := (Text.isScalar_cons.1 (ht h)).1
      unfold Scalar at hscalar
      omega
    rw [List.flatMap_cons, List.append_assoc, scanUnits_escapeChar hc,
      ih fun h => (Text.isScalar_cons.1 (ht h)).2, List.flatMap_cons]
    rfl

/-- A unit that does not start a pair stands for itself. -/
theorem joinUnits_cons {u : Bool × ℕ} (hu : ¬(u.1 = true ∧ 0xD800 ≤ u.2 ∧ u.2 < 0xDC00))
    (us : List (Bool × ℕ)) : joinUnits (u :: us) = u.2 :: joinUnits us := by
  cases us with
  | nil => rfl
  | cons v us =>
    rw [joinUnits, if_neg]
    tauto

/-- A pair of escaped surrogates is one code point. -/
theorem joinUnits_pair {h l : ℕ} (hh : 0xD800 ≤ h ∧ h < 0xDC00) (hl : 0xDC00 ≤ l ∧ l < 0xE000)
    (us : List (Bool × ℕ)) :
    joinUnits ((true, h) :: (true, l) :: us) =
      (0x10000 + (h - 0xD800) * 0x400 + (l - 0xDC00)) :: joinUnits us := by
  rw [joinUnits, if_pos ⟨rfl, rfl, hh.1, hh.2, hl⟩]

/-- The units of a text join to the text. -/
theorem joinUnits_flatMap {ascii : Bool} {t : Text} (ht : ascii = true → t.IsScalar) :
    joinUnits (t.flatMap (unitsOf ascii)) = t := by
  induction t with
  | nil => rfl
  | cons c t ih =>
    rw [List.flatMap_cons]
    have ih' := ih fun h => (Text.isScalar_cons.1 (ht h)).2
    generalize t.flatMap (unitsOf ascii) = us at ih'
    have hraw : joinUnits ((false, c) :: us) = c :: t := by rw [joinUnits_cons (fun h => Bool.false_ne_true h.1), ih']
    have hone : ¬(0xD800 ≤ c ∧ c < 0xDC00) → joinUnits ((true, c) :: us) = c :: t := fun h => by
      rw [joinUnits_cons fun hu => h hu.2, ih']
    unfold unitsOf
    split
    · exact hraw
    · split_ifs with h₁ h₂ h₃
      · exact hone (by omega)
      · exact hraw
      all_goals
        have hc := (Text.isScalar_cons.1 (ht (by simpa using (not_or.1 h₂).1))).1
        unfold Scalar at hc
      · exact hone (by omega)
      · simp only [List.cons_append, List.nil_append]
        have hjoin : 0x10000 + (0xD800 + (c - 0x10000) / 0x400 - 0xD800) * 0x400 +
            (0xDC00 + (c - 0x10000) % 0x400 - 0xDC00) = c := by omega
        rw [joinUnits_pair (by omega) (by omega), ih', hjoin]

/-- **A quoted text reads back**, a raw one whatever it is made of. -/
theorem scanString_quote_of {ascii : Bool} {t : Text} (ht : ascii = true → t.IsScalar) (rest : Text) :
    ∃ body, quote ascii t ++ rest = 0x22 :: body ∧ scanString body = some (t, rest) := by
  refine ⟨t.flatMap (escapeChar ascii) ++ 0x22 :: rest, by simp [quote], ?_⟩
  rw [scanString, scanUnits_flatMap ht, Option.map_some, joinUnits_flatMap ht]

/-- **A quoted text is scanned back.** -/
theorem scanString_quote {ascii : Bool} {t : Text} (ht : t.IsScalar) (rest : Text) :
    ∃ body, quote ascii t ++ rest = 0x22 :: body ∧ scanString body = some (t, rest) :=
  scanString_quote_of (fun _ => ht) rest

/-- An escape never hides a surrogate: unescaped, the text has none. -/
theorem scalar_hexDigit {n : ℕ} (h : n < 0x10) : Scalar (hexDigit n) := by
  unfold hexDigit Scalar
  split_ifs <;> omega

/-- An escape is ASCII. -/
theorem isScalar_unicodeEscape {c : ℕ} (h : c < 0x10000) : (unicodeEscape c).IsScalar := by
  have hb : Scalar 0x5C := by decide
  have hu : Scalar 0x75 := by decide
  simp only [unicodeEscape, Text.isScalar_cons, Text.isScalar_nil, and_true]
  exact ⟨hb, hu, scalar_hexDigit (by omega), scalar_hexDigit (by omega), scalar_hexDigit (by omega),
    scalar_hexDigit (by omega)⟩

/-- A text of scalar values is quoted with such. -/
theorem isScalar_quote {ascii : Bool} {t : Text} (ht : t.IsScalar) : (quote ascii t).IsScalar := by
  have hq : Scalar 0x22 := by decide
  have hbody : Text.IsScalar (t.flatMap (escapeChar ascii)) := by
    intro d hd
    obtain ⟨c, hc, hd⟩ := List.mem_flatMap.1 hd
    have hscalar := ht c hc
    have hbound : c < 0x110000 := by unfold Scalar at hscalar; omega
    unfold escapeChar at hd
    split at hd
    · rename_i e he
      unfold shortEscape at he
      simp only [List.mem_cons, List.not_mem_nil, or_false] at hd
      obtain rfl | rfl := hd
      · decide
      · split_ifs at he <;> cases he <;> decide
    · split_ifs at hd with h₁ h₂ h₃
      · exact isScalar_unicodeEscape (by omega) d hd
      · rw [List.mem_singleton.1 hd]
        exact hscalar
      · exact isScalar_unicodeEscape h₃ d hd
      · obtain hd | hd := List.mem_append.1 hd
        all_goals exact isScalar_unicodeEscape (by omega) d hd
  simp [quote, hq, hbody]

/-- A text is scalar where its quotation is. -/
theorem isScalar_of_quote {t : Text} (h : (quote false t).IsScalar) : t.IsScalar := by
  intro c hc
  have hmem : ∀ d ∈ escapeChar false c, d ∈ quote false t := fun d hd => by
    rw [quote, List.mem_append, List.mem_cons]
    exact Or.inl (Or.inr (List.mem_flatMap.2 ⟨c, hc, hd⟩))
  unfold escapeChar at hmem
  cases hs : shortEscape c with
  | some e =>
    unfold shortEscape at hs
    split_ifs at hs <;> (subst_vars; decide)
  | none =>
    rw [hs] at hmem
    dsimp only at hmem
    split_ifs at hmem with h₁ h₂
    · exact Or.inl (by omega)
    · exact h c (hmem c (List.mem_singleton_self c))
    · exact absurd (Or.inl rfl) h₂
    · exact absurd (Or.inl rfl) h₂

end Json

end Lakehouse

import Lakehouse.Common.Text
import Mathlib.Tactic.IntervalCases
/-!
# Base64, the URL alphabet, unpadded

`urlsafe_b64encode(..).rstrip("=")` and its inverse. The decoder is the
lenient one of the standard library: the unused low bits of the last
character of a two- or three-character tail are dropped, and only a
one-character tail is refused.
-/

namespace Lakehouse

namespace Base64

/-- The character of a six-bit value. -/
def digit (n : ℕ) : ℕ :=
  if n < 26 then 0x41 + n
  else if n < 52 then 0x61 + (n - 26)
  else if n < 62 then 0x30 + (n - 52)
  else if n = 62 then 0x2D else 0x5F

/-- The six-bit value of a character, `[A-Za-z0-9_-]`. -/
def value (c : ℕ) : Option ℕ :=
  if 0x41 ≤ c ∧ c ≤ 0x5A then some (c - 0x41)
  else if 0x61 ≤ c ∧ c ≤ 0x7A then some (c - 0x61 + 26)
  else if 0x30 ≤ c ∧ c ≤ 0x39 then some (c - 0x30 + 52)
  else if c = 0x2D then some 62
  else if c = 0x5F then some 63
  else none

/-- Octets to six-bit values. -/
def sextets : List ℕ → List ℕ
  | [] => []
  | [x] => [x / 4, x % 4 * 16]
  | [x, y] => [x / 4, x % 4 * 16 + y / 16, y % 16 * 4]
  | x :: y :: z :: rest =>
    x / 4 :: (x % 4 * 16 + y / 16) :: (y % 16 * 4 + z / 64) :: z % 64 :: sextets rest

/-- Six-bit values to octets; a lone trailing value is refused. -/
def octets : List ℕ → Option (List ℕ)
  | [] => some []
  | [_] => none
  | [a, b] => some [a * 4 + b / 16]
  | [a, b, c] => some [a * 4 + b / 16, b % 16 * 16 + c / 4]
  | a :: b :: c :: d :: rest =>
    (octets rest).map fun tail =>
      (a * 4 + b / 16) :: (b % 16 * 16 + c / 4) :: (c % 4 * 64 + d) :: tail

/-- `base64.urlsafe_b64encode(b).rstrip(b"=").decode("ascii")`. -/
def encode (b : Bytes) : Text := (sextets (b.map UInt8.toNat)).map digit

/-- `base64.b64encode(b).decode("ascii")`: the standard alphabet, padded. -/
def encodeStandard (b : Bytes) : Text :=
  (sextets (b.map UInt8.toNat)).map
      (fun n => if n = 62 then 0x2B else if n = 63 then 0x2F else digit n) ++
    List.replicate ((3 - b.length % 3) % 3) 0x3D

/-- `base64.urlsafe_b64decode` of an unpadded segment of the alphabet. -/
def decode (t : Text) : Option Bytes := do
  let values ← t.mapM value
  let bytes ← octets values
  return bytes.map UInt8.ofNat

/-- The value of a digit is the sextet it stands for. -/
theorem value_digit {n : ℕ} (h : n < 64) : value (digit n) = some n := by
  interval_cases n <;> decide

/-- The sextets of octets are below 64. -/
theorem sextets_lt : ∀ l : List ℕ, (∀ x ∈ l, x < 256) → ∀ n ∈ sextets l, n < 64
  | [], _ => by simp [sextets]
  | [x], h => by
    have := h x (by simp)
    simp only [sextets, List.mem_cons, List.not_mem_nil, or_false]
    omega
  | [x, y], h => by
    have := h x (by simp)
    have := h y (by simp)
    simp only [sextets, List.mem_cons, List.not_mem_nil, or_false]
    omega
  | x :: y :: z :: rest, h => by
    have := h x (by simp)
    have := h y (by simp)
    have := h z (by simp)
    have ih := sextets_lt rest fun w hw => h w (by simp [hw])
    intro n hn
    simp only [sextets, List.mem_cons] at hn
    rcases hn with rfl | rfl | rfl | rfl | hn
    · omega
    · omega
    · omega
    · omega
    · exact ih n hn

/-- **Octets are read back from their sextets.** -/
theorem octets_sextets : ∀ l : List ℕ, (∀ x ∈ l, x < 256) → octets (sextets l) = some l
  | [], _ => rfl
  | [x], h => by
    have := h x (by simp)
    have e : x / 4 * 4 + x % 4 * 16 / 16 = x := by omega
    simp only [sextets, octets, e]
  | [x, y], h => by
    have := h x (by simp)
    have := h y (by simp)
    have e₁ : x / 4 * 4 + (x % 4 * 16 + y / 16) / 16 = x := by omega
    have e₂ : (x % 4 * 16 + y / 16) % 16 * 16 + y % 16 * 4 / 4 = y := by omega
    simp only [sextets, octets, e₁, e₂]
  | x :: y :: z :: rest, h => by
    have := h x (by simp)
    have := h y (by simp)
    have := h z (by simp)
    have ih := octets_sextets rest fun w hw => h w (by simp [hw])
    have e₁ : x / 4 * 4 + (x % 4 * 16 + y / 16) / 16 = x := by omega
    have e₂ : (x % 4 * 16 + y / 16) % 16 * 16 + (y % 16 * 4 + z / 64) / 4 = y := by omega
    have e₃ : (y % 16 * 4 + z / 64) % 4 * 64 + z % 64 = z := by omega
    simp only [sextets, octets, ih, Option.map_some, e₁, e₂, e₃]

/-- Sextets are read back from their digits. -/
theorem mapM_value_digit : ∀ l : List ℕ, (∀ n ∈ l, n < 64) → (l.map digit).mapM value = some l
  | [], _ => rfl
  | n :: l, h => by
    have ih := mapM_value_digit l fun m hm => h m (by simp [hm])
    simp [value_digit (h n (by simp)), ih]

/-- Bytes are read back from their numbers. -/
theorem map_ofNat_toNat (b : Bytes) : (b.map UInt8.toNat).map UInt8.ofNat = b := by
  rw [List.map_map]
  conv_rhs => rw [← List.map_id b]
  exact List.map_congr_left fun x _ => by simp

/-- A byte is below 256. -/
theorem toNat_lt (b : Bytes) : ∀ x ∈ b.map UInt8.toNat, x < 256 := by
  intro x hx
  obtain ⟨y, _, rfl⟩ := List.mem_map.1 hx
  exact y.toNat_lt

/-- **Decoding inverts encoding.** -/
theorem decode_encode (b : Bytes) : decode (encode b) = some b := by
  have hs := sextets_lt _ (toNat_lt b)
  simp only [decode, encode, mapM_value_digit _ hs, octets_sextets _ (toNat_lt b), Option.bind_eq_bind,
    Option.bind_some, map_ofNat_toNat, Option.pure_def]

/-- The encoder writes the alphabet only. -/
theorem encode_mem (b : Bytes) : ∀ c ∈ encode b, ∃ n, n < 64 ∧ c = digit n := by
  intro c hc
  obtain ⟨n, hn, rfl⟩ := List.mem_map.1 hc
  exact ⟨n, sextets_lt _ (toNat_lt b) n hn, rfl⟩

/-- Nothing but the empty string encodes to the empty text. -/
theorem encode_ne_nil {b : Bytes} (h : b ≠ []) : encode b ≠ [] := by
  cases b with
  | nil => exact absurd rfl h
  | cons x b =>
    rcases b with - | ⟨y, - | ⟨z, b⟩⟩ <;> simp [encode, sextets]

/-! ## The texts of one octet string -/

/-- The value of a digit is below 64. -/
theorem value_lt {c v : ℕ} (h : value c = some v) : v < 64 := by
  unfold value at h
  split_ifs at h <;> cases h <;> omega

/-- The characters of the alphabet are read apart. -/
theorem value_inj {c c' v : ℕ} (h : value c = some v) (h' : value c' = some v) : c = c' := by
  unfold value at h h'
  split_ifs at h <;> cases h <;> split_ifs at h' <;> simp only [Option.some.injEq] at h' <;> omega

/-- **The number of sextets is that of the octets they spell.** -/
theorem length_octets : ∀ {l o : List ℕ}, octets l = some o → l.length = (4 * o.length + 2) / 3
  | [], o, h => by cases h; rfl
  | [_], o, h => by cases h
  | [_, _], o, h => by cases h; simp
  | [_, _, _], o, h => by cases h; simp
  | _ :: _ :: _ :: _ :: rest, o, h => by
    obtain ⟨tail, htail, rfl⟩ := Option.map_eq_some_iff.1 h
    have ih := length_octets htail
    simp only [List.length_cons]
    omega

/-- **The decoder drops the unused low bits** of a tail of two characters. -/
theorem octets_concat_congr {v v' : ℕ} (hv : v / 16 = v' / 16) : ∀ {l : List ℕ}, l.length % 4 = 1 →
    octets (l ++ [v]) = octets (l ++ [v'])
  | [], h => by simp at h
  | [_], _ => by simp only [List.cons_append, List.nil_append, octets, hv]
  | [_, _], h => by simp at h
  | [_, _, _], h => by simp at h
  | _ :: _ :: _ :: _ :: rest, h => by
    have ih := octets_concat_congr hv (l := rest) (by simp only [List.length_cons] at h; omega)
    simp only [List.cons_append, octets, ih]

/-- Two readings of the same octets agree but for their last value. -/
theorem octets_inj : ∀ {l l' o : List ℕ}, (∀ n ∈ l, n < 64) → (∀ n ∈ l', n < 64) →
    l.length = l'.length → l.getLast? = l'.getLast? → octets l = some o → octets l' = some o → l = l'
  | [], l', _, _, _, hlength, _, _, _ => (List.length_eq_zero_iff.1 hlength.symm).symm
  | [_], _, _, _, _, _, _, h, _ => by cases h
  | [a, b], [a', b'], _, hl, hl', _, hlast, h, h' => by
    simp only [List.getLast?_cons_cons, List.getLast?_singleton, Option.some.injEq] at hlast
    simp only [octets, Option.some.injEq] at h h'
    rw [← h', List.cons.injEq] at h
    have hb := hl b (by simp)
    have hb' := hl' b' (by simp)
    rw [hlast, show a = a' by omega]
  | [a, b, c], [a', b', c'], _, hl, hl', _, hlast, h, h' => by
    simp only [List.getLast?_cons_cons, List.getLast?_singleton, Option.some.injEq] at hlast
    simp only [octets, Option.some.injEq] at h h'
    rw [← h', List.cons.injEq, List.cons.injEq] at h
    have hb := hl b (by simp)
    have hb' := hl' b' (by simp)
    have hc := hl c (by simp)
    have hc' := hl' c' (by simp)
    rw [hlast, show a = a' by omega, show b = b' by omega]
  | a :: b :: c :: d :: rest, a' :: b' :: c' :: d' :: rest', _, hl, hl', hlength, hlast, h, h' => by
    obtain ⟨tail, htail, rfl⟩ := Option.map_eq_some_iff.1 h
    obtain ⟨tail', htail', heq⟩ := Option.map_eq_some_iff.1 h'
    simp only [List.cons.injEq] at heq
    obtain ⟨h₁, h₂, h₃, rfl⟩ := heq
    have hb := hl b (by simp)
    have hb' := hl' b' (by simp)
    have hc := hl c (by simp)
    have hc' := hl' c' (by simp)
    have hd := hl d (by simp)
    have hd' := hl' d' (by simp)
    have hrest : rest = rest' := by
      refine octets_inj (fun n hn => hl n (by simp [hn])) (fun n hn => hl' n (by simp [hn]))
        (by simpa using hlength) ?_ htail htail'
      cases rest with
      | nil =>
        cases rest' with
        | nil => rfl
        | cons x rest' => simp at hlength
      | cons x rest =>
        cases rest' with
        | nil => simp at hlength
        | cons x' rest' => simpa only [List.getLast?_cons_cons] using hlast
    rw [hrest, show a = a' by omega, show b = b' by omega, show c = c' by omega,
      show d = d' by omega]

/-- The octets of sextets are below 256. -/
theorem octets_lt : ∀ {l o : List ℕ}, (∀ n ∈ l, n < 64) → octets l = some o → ∀ x ∈ o, x < 256
  | [], _, _, h => by cases h; simp
  | [_], _, _, h => by cases h
  | [a, b], _, hl, h => by
    have ha := hl a (by simp)
    have hb := hl b (by simp)
    cases h
    simp only [List.mem_cons, List.not_mem_nil, or_false]
    omega
  | [a, b, c], _, hl, h => by
    have ha := hl a (by simp)
    have hb := hl b (by simp)
    have hc := hl c (by simp)
    cases h
    simp only [List.mem_cons, List.not_mem_nil, or_false]
    omega
  | a :: b :: c :: d :: rest, _, hl, h => by
    obtain ⟨tail, htail, rfl⟩ := Option.map_eq_some_iff.1 h
    have ha := hl a (by simp)
    have hb := hl b (by simp)
    have hc := hl c (by simp)
    have hd := hl d (by simp)
    have ih := octets_lt (fun n hn => hl n (by simp [hn])) htail
    intro x hx
    simp only [List.mem_cons] at hx
    rcases hx with rfl | rfl | rfl | hx
    · omega
    · omega
    · omega
    · exact ih x hx

/-- A text of digits has the value of each. -/
theorem mapM_value_eq_some {t : Text} {values : List ℕ} :
    t.mapM value = some values ↔ List.Forall₂ (fun c v => value c = some v) t values := by
  induction t generalizing values with
  | nil => simp [eq_comm]
  | cons c t ih =>
    simp only [List.mapM_cons, Option.bind_eq_bind, Option.pure_def, Option.bind_eq_some_iff,
      Option.some.injEq, List.forall₂_cons_left_iff, ih]
    constructor
    · rintro ⟨v, hv, rest, hrest, rfl⟩
      exact ⟨v, rest, hv, hrest, rfl⟩
    · rintro ⟨v, rest, hv, hrest, rfl⟩
      exact ⟨v, hv, rest, hrest, rfl⟩

/-- The values of a text are below 64. -/
theorem value_lt_of_mem {t : Text} {values : List ℕ}
    (h : List.Forall₂ (fun c v => value c = some v) t values) : ∀ v ∈ values, v < 64 := by
  induction h with
  | nil => simp
  | cons hv _ ih => exact List.forall_mem_cons.2 ⟨value_lt hv, ih⟩

/-- The last value is that of the last digit. -/
theorem getLast?_values {t : Text} {values : List ℕ}
    (h : List.Forall₂ (fun c v => value c = some v) t values) :
    values.getLast? = t.getLast?.bind value := by
  have hreverse := List.rel_reverse h
  rw [List.getLast?_eq_head?_reverse, List.getLast?_eq_head?_reverse]
  generalize t.reverse = t', values.reverse = values' at hreverse
  cases hreverse with
  | nil => rfl
  | cons hv _ => exact hv.symm

/-- The values of a text and its octets. -/
theorem decode_eq_some {t : Text} {b : Bytes} : decode t = some b ↔ ∃ values,
    List.Forall₂ (fun c v => value c = some v) t values ∧
      octets values = some (b.map UInt8.toNat) := by
  simp only [decode, Option.bind_eq_bind, Option.pure_def, Option.bind_eq_some_iff,
    Option.some.injEq, mapM_value_eq_some]
  constructor
  · rintro ⟨values, hvalues, o, ho, rfl⟩
    refine ⟨values, hvalues, ?_⟩
    have hlt := octets_lt (value_lt_of_mem hvalues) ho
    rw [ho, List.map_map, Option.some.injEq]
    conv_lhs => rw [← List.map_id o]
    exact List.map_congr_left fun x hx => (Nat.mod_eq_of_lt (hlt x hx)).symm
  · rintro ⟨values, hvalues, ho⟩
    exact ⟨values, hvalues, _, ho, map_ofNat_toNat b⟩

/-- A text that decodes consists of digits. -/
theorem isSome_of_decode {t : Text} {b : Bytes} (h : decode t = some b) :
    ∀ c ∈ t, (value c).isSome := by
  obtain ⟨values, hvalues, -⟩ := decode_eq_some.1 h
  clear h
  induction hvalues with
  | nil => simp
  | cons hv _ ih => exact List.forall_mem_cons.2 ⟨by rw [hv]; rfl, ih⟩

/-- **Two texts of the same octets agree but for their last character.** -/
theorem decode_inj {t t' : Text} {b : Bytes} (h : decode t = some b) (h' : decode t' = some b)
    (hlast : t.getLast? = t'.getLast?) : t = t' := by
  obtain ⟨values, hvalues, ho⟩ := decode_eq_some.1 h
  obtain ⟨values', hvalues', ho'⟩ := decode_eq_some.1 h'
  have hlength : values.length = values'.length := by
    rw [length_octets ho, length_octets ho']
  have hvalue : values = values' :=
    octets_inj (value_lt_of_mem hvalues) (value_lt_of_mem hvalues') hlength
      (by rw [getLast?_values hvalues, getLast?_values hvalues', hlast]) ho ho'
  subst hvalue
  have hunique : Relator.LeftUnique fun c v => value c = some v := fun _ _ _ hc hc' => value_inj hc hc'
  exact hunique.forall₂ hvalues hvalues'

/-- **A text of one octet more than a multiple of three has another spelling**:
its last character carries four bits that nothing reads. -/
theorem decode_respell {t : Text} {c : ℕ} {b : Bytes} (h : decode (t ++ [c]) = some b)
    (hb : b.length % 3 = 1) : ∃ c', c' ≠ c ∧ (value c').isSome ∧ decode (t ++ [c']) = some b := by
  obtain ⟨values, hvalues, ho⟩ := decode_eq_some.1 h
  have hsome := mapM_value_eq_some.2 hvalues
  simp only [List.mapM_append, List.mapM_cons, List.mapM_nil, Option.bind_eq_bind, Option.pure_def,
    Option.bind_eq_some_iff, Option.some.injEq] at hsome
  obtain ⟨init, hinit, last, ⟨v, hv, -, rfl, rfl⟩, rfl⟩ := hsome
  have hmod : init.length % 4 = 1 := by
    have hlength := length_octets ho
    rw [List.length_append, List.length_singleton, List.length_map] at hlength
    omega
  have hv₆₄ := value_lt hv
  -- the next of the sixteen values with the same two high bits
  set v' := v / 16 * 16 + (v + 1) % 16 with hv'
  have hv'₆₄ : v' < 64 := by omega
  have hvalue := value_digit hv'₆₄
  refine ⟨digit v', fun hc => ?_, by rw [hvalue]; rfl, ?_⟩
  · rw [hc, hv, Option.some.injEq] at hvalue
    omega
  · refine decode_eq_some.2 ⟨init ++ [v'], ?_, ?_⟩
    · exact List.rel_append (mapM_value_eq_some.1 hinit) (.cons hvalue .nil)
    · rw [← ho]
      exact octets_concat_congr (by omega) hmod

end Base64

end Lakehouse

import Mathlib.Data.List.Basic
import Mathlib.Data.UInt
import Mathlib.Order.Lex
/-!
# Texts and their bytes

A Python `str` is a sequence of code points, surrogates included, so a
text here is the list of its code points. `lit` reads a source literal
into one. The file has the few `str` methods the models use and UTF-8 in
both directions: `utf8` fails where Python's `encode` raises, on a
surrogate, and `fromUtf8` inverts it (`fromUtf8_utf8`).
-/

namespace Lakehouse

/-- A Python `str`, as its code points. -/
abbrev Text : Type := List ℕ

instance : LawfulBEq Text := inferInstance

instance : LawfulBEq (Text × ℤ) := inferInstance

/-- A Python `bytes`. -/
abbrev Bytes : Type := List UInt8

/-- The text of a source literal. -/
def lit (s : String) : Text := s.toList.map Char.toNat

/-- A Unicode scalar value: a code point that is not a surrogate. -/
def Scalar (c : ℕ) : Prop := c < 0xD800 ∨ (0xE000 ≤ c ∧ c < 0x110000)

instance : DecidablePred Scalar := fun c => by unfold Scalar; infer_instance

namespace Text

/-- Every code point is a scalar value. -/
def IsScalar (t : Text) : Prop := ∀ c ∈ t, Scalar c

instance : DecidablePred IsScalar := fun t => by unfold IsScalar; infer_instance

/-- The empty text is one of scalar values. -/
@[simp] theorem isScalar_nil : IsScalar [] := by simp [IsScalar]

/-- A text is of scalar values where its first character and the rest are. -/
@[simp] theorem isScalar_cons {c : ℕ} {t : Text} : IsScalar (c :: t) ↔ Scalar c ∧ IsScalar t := by
  simp [IsScalar]

/-- A text is of scalar values where its parts are. -/
@[simp] theorem isScalar_append {t u : Text} : IsScalar (t ++ u) ↔ IsScalar t ∧ IsScalar u := by
  simp [IsScalar, or_imp, forall_and]

/-! ## The `str` methods -/

/-- The code points `str.strip` removes. -/
def isSpace (c : ℕ) : Bool :=
  (0x09 ≤ c && c ≤ 0x0D) || (0x1C ≤ c && c ≤ 0x20) || c == 0x85 || c == 0xA0 || c == 0x1680 ||
    (0x2000 ≤ c && c ≤ 0x200A) || c == 0x2028 || c == 0x2029 || c == 0x202F || c == 0x205F ||
    c == 0x3000

/-- `str.strip`. -/
def strip (t : Text) : Text := ((t.dropWhile isSpace).reverse.dropWhile isSpace).reverse

/-- `str.rstrip` of one character. -/
def rstripChar (c : ℕ) (t : Text) : Text := (t.reverse.dropWhile (· == c)).reverse

/-- `str.split` on one character. -/
def splitOn (c : ℕ) : Text → List Text
  | [] => [[]]
  | d :: t =>
    if d = c then [] :: splitOn c t
    else match splitOn c t with
      | [] => [[d]]
      | p :: ps => (d :: p) :: ps

/-- `str.partition` on one character: what stands before its first
occurrence, whether there is one, and what follows it. -/
def partition (c : ℕ) : Text → Text × Bool × Text
  | [] => ([], false, [])
  | d :: t =>
    if d = c then ([], true, t)
    else ((d :: (partition c t).1), (partition c t).2)

/-- `str.rpartition` on one character: what stands before its last
occurrence, whether there is one, and what follows it (the whole text
when there is none). -/
def rpartition (c : ℕ) (t : Text) : Text × Bool × Text :=
  match partition c t.reverse with
  | (_, false, _) => ([], false, t)
  | (after, true, before) => (before.reverse, true, after.reverse)

/-- `sep.join(parts)`. -/
def join (sep : Text) : List Text → Text
  | [] => []
  | [p] => p
  | p :: q :: ps => p ++ sep ++ join sep (q :: ps)

/-- The decimal digits of a natural number, `str(n)`. -/
def ofNat (n : ℕ) : Text := (Nat.toDigits 10 n).map Char.toNat

/-- `str(n)` of a Python integer. -/
def ofInt : ℤ → Text
  | .ofNat n => ofNat n
  | .negSucc n => 0x2D :: ofNat (n + 1)

/-! ## Splitting -/

/-- A text without the separator is one part. -/
theorem splitOn_of_notMem {c : ℕ} {t : Text} (h : c ∉ t) : splitOn c t = [t] := by
  induction t with
  | nil => rfl
  | cons d t ih =>
    rw [List.mem_cons, not_or] at h
    rw [splitOn, if_neg (Ne.symm h.1), ih h.2]

/-- The part before the first separator is the first one. -/
theorem splitOn_append {c : ℕ} {t u : Text} (h : c ∉ t) :
    splitOn c (t ++ c :: u) = t :: splitOn c u := by
  induction t with
  | nil => rw [List.nil_append, splitOn, if_pos rfl]
  | cons d t ih =>
    rw [List.mem_cons, not_or] at h
    rw [List.cons_append, splitOn, if_neg (Ne.symm h.1), ih h.2]

/-- There is always a part. -/
theorem splitOn_ne_nil (d : ℕ) (t : Text) : splitOn d t ≠ [] := by
  cases t with
  | nil => exact List.cons_ne_nil _ _
  | cons e t =>
    rw [splitOn]
    split_ifs with h
    · exact List.cons_ne_nil _ _
    · split <;> exact List.cons_ne_nil _ _

/-- A text is split at each of its separators. -/
theorem splitOn_append_sep (c : ℕ) (t u : Text) :
    splitOn c (t ++ c :: u) = splitOn c t ++ splitOn c u := by
  induction t with
  | nil => simp [splitOn]
  | cons d t ih =>
    rw [List.cons_append, splitOn, splitOn, ih]
    split_ifs with h
    · rfl
    · cases hs : splitOn c t with
      | nil => exact absurd hs (splitOn_ne_nil c t)
      | cons p ps => rfl

/-- A split text is all its characters but the separators. -/
theorem splitOn_join {c : ℕ} {ps : List Text} (hne : ps ≠ []) (h : ∀ p ∈ ps, c ∉ p) :
    splitOn c (join [c] ps) = ps := by
  induction ps with
  | nil => exact absurd rfl hne
  | cons p ps ih =>
    obtain ⟨hp, hps⟩ := List.forall_mem_cons.1 h
    cases ps with
    | nil => exact splitOn_of_notMem hp
    | cons q ps =>
      rw [join, List.append_assoc, List.singleton_append, splitOn_append hp,
        ih (List.cons_ne_nil q ps) hps]

/-- Joining the parts gives back the text. -/
theorem join_splitOn (c : ℕ) (t : Text) : join [c] (splitOn c t) = t := by
  induction t with
  | nil => rfl
  | cons d t ih =>
    rw [splitOn]
    split_ifs with h
    · cases hs : splitOn c t with
      | nil => exact absurd hs (splitOn_ne_nil c t)
      | cons p ps =>
        rw [join, ← hs, ih, h, List.nil_append, List.singleton_append]
    · cases hs : splitOn c t with
      | nil => exact absurd hs (splitOn_ne_nil c t)
      | cons p ps =>
        rw [hs] at ih
        cases ps with
        | nil => exact congrArg (d :: ·) ih
        | cons q ps => exact congrArg (d :: ·) ih

/-- The characters of the parts are those of the text, but for the separator.
-/
theorem mem_splitOn {c d : ℕ} {t : Text} : (∃ p ∈ splitOn d t, c ∈ p) ↔ c ∈ t ∧ c ≠ d := by
  induction t with
  | nil => simp [splitOn]
  | cons e t ih =>
    rw [splitOn]
    split_ifs with h
    · subst h
      rw [List.exists_mem_cons_iff, ih]
      grind
    · cases hs : splitOn d t with
      | nil => exact absurd hs (splitOn_ne_nil d t)
      | cons p ps =>
        rw [hs, List.exists_mem_cons_iff] at ih
        rw [List.exists_mem_cons_iff, List.mem_cons, or_assoc, ih, List.mem_cons]
        grind

/-- A character of a part is one of the joined text. -/
theorem mem_join_of_mem {c : ℕ} {sep p : Text} {ps : List Text} (hp : p ∈ ps) (hc : c ∈ p) :
    c ∈ join sep ps := by
  induction ps with
  | nil => cases hp
  | cons q ps ih =>
    cases ps with
    | nil => rwa [List.mem_singleton.1 hp] at hc
    | cons r ps =>
      rw [join, List.mem_append, List.mem_append]
      obtain rfl | hp := List.mem_cons.1 hp
      · exact Or.inl (Or.inl hc)
      · exact Or.inr (ih hp)

/-- A character of a joined text is one of a part or of the separator. -/
theorem of_mem_join {c : ℕ} {sep : Text} {ps : List Text} (h : c ∈ join sep ps) :
    c ∈ sep ∨ ∃ p ∈ ps, c ∈ p := by
  induction ps with
  | nil => cases h
  | cons q ps ih =>
    cases ps with
    | nil => exact Or.inr ⟨q, List.mem_singleton_self q, h⟩
    | cons r ps =>
      rw [join, List.mem_append, List.mem_append] at h
      obtain (h | h) | h := h
      · exact Or.inr ⟨q, List.mem_cons_self, h⟩
      · exact Or.inl h
      · obtain h | ⟨p, hp, hc⟩ := ih h
        · exact Or.inl h
        · exact Or.inr ⟨p, List.mem_cons_of_mem q hp, hc⟩

/-- Without the separator all of a text stands before it. -/
theorem partition_of_notMem {c : ℕ} {t : Text} (h : c ∉ t) : partition c t = (t, false, []) := by
  induction t with
  | nil => rfl
  | cons d t ih =>
    rw [List.mem_cons, not_or] at h
    rw [partition, if_neg (Ne.symm h.1), ih h.2]

/-- A text is divided at the first separator. -/
theorem partition_append {c : ℕ} {t u : Text} (h : c ∉ t) :
    partition c (t ++ c :: u) = (t, true, u) := by
  induction t with
  | nil => rw [List.nil_append, partition, if_pos rfl]
  | cons d t ih =>
    rw [List.mem_cons, not_or] at h
    rw [List.cons_append, partition, if_neg (Ne.symm h.1), ih h.2]

/-- A text is cut in one way at its first separator. -/
theorem partition_inj {c : ℕ} {t u t' u' : Text} (ht : c ∉ t) (ht' : c ∉ t')
    (h : t ++ c :: u = t' ++ c :: u') : t = t' ∧ u = u' := by
  have hpart := congrArg (partition c) h
  rw [partition_append ht, partition_append ht'] at hpart
  exact ⟨congrArg Prod.fst hpart, congrArg (fun p => p.2.2) hpart⟩

/-- What follows a text that has the character changes nothing before it. -/
theorem partition_append_of_mem {c : ℕ} {t : Text} (h : c ∈ t) (u : Text) :
    partition c (t ++ u) = ((partition c t).1, true, (partition c t).2.2 ++ u) := by
  induction t with
  | nil => cases h
  | cons d t ih =>
    rw [List.cons_append, partition, partition]
    split_ifs with hd
    · rfl
    · rw [ih ((List.mem_cons.1 h).resolve_left (Ne.symm hd))]

/-- The separator is not in what stands before the first one. -/
theorem notMem_partition (c : ℕ) (t : Text) : c ∉ (partition c t).1 := by
  induction t with
  | nil => exact List.not_mem_nil
  | cons d t ih =>
    rw [partition]
    split_ifs with hd
    · exact List.not_mem_nil
    · rw [List.mem_cons, not_or]
      exact ⟨Ne.symm hd, ih⟩

/-- Where nothing follows a character, at most the character does. -/
theorem eq_of_partition_nil {c : ℕ} {t : Text} (h : (partition c t).2.2 = []) :
    t = (partition c t).1 ∨ t = (partition c t).1 ++ [c] := by
  by_cases hc : c ∈ t
  · obtain ⟨a, b, rfl, ha⟩ := List.eq_append_cons_of_mem hc
    rw [partition_append ha] at h ⊢
    exact Or.inr (by rw [show b = [] from h])
  · rw [partition_of_notMem hc]
    exact Or.inl rfl

/-- Nothing follows a character that is there only where it ends the text. -/
theorem getLast?_of_partition_nil {c : ℕ} {t : Text} (hc : c ∈ t)
    (h : (partition c t).2.2 = []) : t.getLast? = some c := by
  induction t with
  | nil => cases hc
  | cons d t ih =>
    rw [partition] at h
    split_ifs at h with hd
    · rw [show t = [] from h, hd]
      rfl
    · have hc : c ∈ t := (List.mem_cons.1 hc).resolve_left (Ne.symm hd)
      rw [List.getLast?_cons, ih hc h]
      rfl

/-- Without the separator all of a text stands behind it. -/
theorem rpartition_of_notMem {c : ℕ} {t : Text} (h : c ∉ t) : rpartition c t = ([], false, t) := by
  rw [rpartition, partition_of_notMem (by rwa [List.mem_reverse])]

/-- A text is divided at the last separator. -/
theorem rpartition_append {c : ℕ} {t u : Text} (h : c ∉ u) :
    rpartition c (t ++ c :: u) = (t, true, u) := by
  have hr : (t ++ c :: u).reverse = u.reverse ++ c :: t.reverse := by simp
  rw [rpartition, hr, partition_append (by rwa [List.mem_reverse])]
  simp

/-- The last separator divides a text in one way. -/
theorem rpartition_inj {c : ℕ} {t u t' u' : Text} (hu : c ∉ u) (hu' : c ∉ u')
    (h : t ++ c :: u = t' ++ c :: u') : t = t' ∧ u = u' := by
  have hpart := congrArg (rpartition c) h
  rw [rpartition_append hu, rpartition_append hu'] at hpart
  exact ⟨congrArg Prod.fst hpart, congrArg (fun p => p.2.2) hpart⟩

/-- A text that has the separator has a last one. -/
theorem exists_append_last {c : ℕ} {t : Text} (h : c ∈ t) :
    ∃ front last, t = front ++ c :: last ∧ c ∉ last := by
  obtain ⟨a, b, hab, ha⟩ := List.eq_append_cons_of_mem (List.mem_reverse.2 h)
  refine ⟨b.reverse, a.reverse, ?_, by rwa [List.mem_reverse]⟩
  rw [← List.reverse_reverse t, hab]
  simp

/-- A text ends in what stands after its last separator. -/
theorem exists_append_rpartition (c : ℕ) (t : Text) :
    ∃ front, t = front ++ (rpartition c t).2.2 ∧ c ∉ (rpartition c t).2.2 := by
  by_cases h : c ∈ t
  · obtain ⟨front, last, rfl, hl⟩ := exists_append_last h
    rw [rpartition_append hl]
    exact ⟨front ++ [c], by simp, hl⟩
  · rw [rpartition_of_notMem h]
    exact ⟨[], rfl, h⟩

/-! ## Stripping -/

/-- Nothing is dropped where the first character stays. -/
theorem dropWhile_of_head? {p : ℕ → Bool} {t : Text} (h : ∀ c ∈ t.head?, p c = false) :
    t.dropWhile p = t := by
  cases t with
  | nil => rfl
  | cons c t => rw [List.dropWhile_cons, h c rfl, if_neg (by simp)]

/-- A text that neither starts nor ends in a space is its own strip. -/
theorem strip_eq_self {t : Text} (hh : ∀ c ∈ t.head?, isSpace c = false)
    (hl : ∀ c ∈ t.getLast?, isSpace c = false) : strip t = t := by
  rw [strip, dropWhile_of_head? hh, dropWhile_of_head?, List.reverse_reverse]
  rwa [List.head?_reverse]

/-- Nothing is stripped where the last character is another. -/
theorem rstripChar_eq_self {c : ℕ} {t : Text} (h : ∀ d ∈ t.getLast?, d ≠ c) :
    rstripChar c t = t := by
  rw [rstripChar, dropWhile_of_head?, List.reverse_reverse]
  simpa [List.head?_reverse] using h

/-- A text is a run of one character and what follows it. -/
theorem eq_replicate_append (c : ℕ) (t : Text) :
    ∃ n, t = List.replicate n c ++ t.dropWhile (· == c) := by
  induction t with
  | nil => exact ⟨0, rfl⟩
  | cons d t ih =>
    by_cases hd : d = c
    · obtain ⟨n, hn⟩ := ih
      refine ⟨n + 1, ?_⟩
      rw [List.dropWhile_cons_of_pos (by simpa using hd), List.replicate_succ, List.cons_append, ← hn,
        hd]
    · exact ⟨0, by rw [List.dropWhile_cons_of_neg (by simpa using hd)]; rfl⟩

/-- What a strip takes off the end is the character over and over. -/
theorem eq_rstripChar_append (c : ℕ) (t : Text) :
    t = rstripChar c t ++ List.replicate (t.length - (rstripChar c t).length) c := by
  obtain ⟨n, hn⟩ := eq_replicate_append c t.reverse
  have ht : t = rstripChar c t ++ List.replicate n c := by
    have h := congrArg List.reverse hn
    rw [List.reverse_reverse, List.reverse_append, List.reverse_replicate] at h
    exact h
  have hlen : n = t.length - (rstripChar c t).length := by
    have h := congrArg List.length ht
    rw [List.length_append, List.length_replicate] at h
    omega
  rw [← hlen]
  exact ht

/-- One character more to strip is stripped. -/
theorem rstripChar_append {c : ℕ} (t : Text) : rstripChar c (t ++ [c]) = rstripChar c t := by
  simp [rstripChar]

/-- A stripped text does not end with the character. -/
theorem getLast?_rstripChar (c : ℕ) (t : Text) : (rstripChar c t).getLast? ≠ some c := by
  rw [rstripChar, List.getLast?_reverse]
  intro h
  have hnot := List.head?_dropWhile_not (· == c) t.reverse
  rw [h] at hnot
  simp at hnot

/-! ## UTF-8 -/

/-- The octets of one code point. -/
def utf8Octets (c : ℕ) : List ℕ :=
  if c < 0x80 then [c]
  else if c < 0x800 then [0xC0 + c / 0x40, 0x80 + c % 0x40]
  else if c < 0x10000 then [0xE0 + c / 0x1000, 0x80 + c / 0x40 % 0x40, 0x80 + c % 0x40]
  else [0xF0 + c / 0x40000, 0x80 + c / 0x1000 % 0x40, 0x80 + c / 0x40 % 0x40, 0x80 + c % 0x40]

/-- `str.encode("utf-8")`, which raises on a surrogate. -/
def utf8 (t : Text) : Option Bytes :=
  if IsScalar t then some ((t.flatMap utf8Octets).map UInt8.ofNat) else none

/-- A continuation octet. -/
def isTail (b : ℕ) : Bool := 0x80 ≤ b && b ≤ 0xBF

/-- The strict UTF-8 decoder: no overlong form, no surrogate, nothing
above U+10FFFF. -/
def decodeOctets : List ℕ → Option Text
  | [] => some []
  | a :: rest =>
    if a < 0x80 then (decodeOctets rest).map (a :: ·)
    else if 0xC2 ≤ a ∧ a ≤ 0xDF then
      match rest with
      | b :: rest =>
        if isTail b then (decodeOctets rest).map (((a - 0xC0) * 0x40 + (b - 0x80)) :: ·) else none
      | _ => none
    else if 0xE0 ≤ a ∧ a ≤ 0xEF then
      match rest with
      | b :: c :: rest =>
        let v := (a - 0xE0) * 0x1000 + (b - 0x80) * 0x40 + (c - 0x80)
        if isTail b && isTail c && decide (0x800 ≤ v) && decide (Scalar v) then
          (decodeOctets rest).map (v :: ·)
        else none
      | _ => none
    else if 0xF0 ≤ a ∧ a ≤ 0xF4 then
      match rest with
      | b :: c :: d :: rest =>
        let v := (a - 0xF0) * 0x40000 + (b - 0x80) * 0x1000 + (c - 0x80) * 0x40 + (d - 0x80)
        if isTail b && isTail c && isTail d && decide (0x10000 ≤ v) && decide (v < 0x110000) then
          (decodeOctets rest).map (v :: ·)
        else none
      | _ => none
    else none

/-- `bytes.decode("utf-8")`, which raises on ill-formed input. -/
def fromUtf8 (b : Bytes) : Option Text := decodeOctets (b.map UInt8.toNat)

/-- The octets of a scalar value are bytes. -/
theorem utf8Octets_lt {c : ℕ} (h : Scalar c) : ∀ b ∈ utf8Octets c, b < 256 := by
  intro b hb
  have hc : c < 0x110000 := by unfold Scalar at h; omega
  unfold utf8Octets at hb
  split_ifs at hb <;> simp only [List.mem_cons, List.not_mem_nil, or_false] at hb <;> omega

/-- The octets of one code point decode to it, whatever follows. -/
theorem decodeOctets_utf8Octets {c : ℕ} (h : Scalar c) (rest : List ℕ) :
    decodeOctets (utf8Octets c ++ rest) = (decodeOctets rest).map (c :: ·) := by
  have hc : c < 0x110000 := by unfold Scalar at h; omega
  unfold utf8Octets
  split_ifs with h1 h2 h3
  · rw [List.singleton_append, decodeOctets.eq_def]
    exact if_pos h1
  · have hv : (0xC0 + c / 0x40 - 0xC0) * 0x40 + (0x80 + c % 0x40 - 0x80) = c := by omega
    have ht : isTail (0x80 + c % 0x40) = true := by simp [isTail]; omega
    simp only [List.cons_append, List.nil_append]
    rw [decodeOctets, if_neg (by omega), if_pos (by omega)]
    simp only [ht, if_true, hv]
  · have hv : (0xE0 + c / 0x1000 - 0xE0) * 0x1000 + (0x80 + c / 0x40 % 0x40 - 0x80) * 0x40 +
        (0x80 + c % 0x40 - 0x80) = c := by omega
    have ht : isTail (0x80 + c % 0x40) = true := by simp [isTail]; omega
    have ht' : isTail (0x80 + c / 0x40 % 0x40) = true := by simp [isTail]; omega
    simp only [List.cons_append, List.nil_append]
    rw [decodeOctets, if_neg (by omega), if_neg (by omega), if_pos (by omega)]
    have h800 : 0x800 ≤ c := by omega
    simp only [hv, ht, ht', h, h800, decide_true, Bool.and_self, if_true]
  · have hv : (0xF0 + c / 0x40000 - 0xF0) * 0x40000 + (0x80 + c / 0x1000 % 0x40 - 0x80) * 0x1000 +
        (0x80 + c / 0x40 % 0x40 - 0x80) * 0x40 + (0x80 + c % 0x40 - 0x80) = c := by omega
    have ht : isTail (0x80 + c % 0x40) = true := by simp [isTail]; omega
    have ht' : isTail (0x80 + c / 0x40 % 0x40) = true := by simp [isTail]; omega
    have ht'' : isTail (0x80 + c / 0x1000 % 0x40) = true := by simp [isTail]; omega
    simp only [List.cons_append, List.nil_append]
    rw [decodeOctets, if_neg (by omega), if_neg (by omega), if_neg (by omega), if_pos (by omega)]
    have h10000 : 0x10000 ≤ c := by omega
    simp only [hv, ht, ht', ht'', hc, h10000, decide_true, Bool.and_self, if_true]

/-- The octets of a text are read back. -/
theorem decodeOctets_flatMap {t : Text} (h : IsScalar t) :
    decodeOctets (t.flatMap utf8Octets) = some t := by
  induction t with
  | nil => rfl
  | cons c t ih =>
    rw [isScalar_cons] at h
    rw [List.flatMap_cons, decodeOctets_utf8Octets h.1, ih h.2]
    rfl

/-- Octets are kept by the bytes made of them. -/
theorem map_toNat_ofNat {l : List ℕ} (h : ∀ b ∈ l, b < 256) :
    (l.map UInt8.ofNat).map UInt8.toNat = l := by
  rw [List.map_map]
  conv_rhs => rw [← List.map_id l]
  refine List.map_congr_left fun b hb => ?_
  simpa using Nat.mod_eq_of_lt (h b hb)

/-- `encode` succeeds exactly on the texts of scalar values. -/
theorem utf8_eq_some {t : Text} {b : Bytes} :
    utf8 t = some b ↔ IsScalar t ∧ (t.flatMap utf8Octets).map UInt8.ofNat = b := by
  unfold utf8
  split_ifs with h <;> simp [h]

/-- **`decode` inverts `encode`.** -/
theorem fromUtf8_utf8 {t : Text} {b : Bytes} (h : utf8 t = some b) : fromUtf8 b = some t := by
  obtain ⟨hs, rfl⟩ := utf8_eq_some.1 h
  rw [fromUtf8, map_toNat_ofNat, decodeOctets_flatMap hs]
  intro b hb
  obtain ⟨c, hc, hb⟩ := List.mem_flatMap.1 hb
  exact utf8Octets_lt (hs c hc) b hb

/-- Two texts with one encoding are one text. -/
theorem utf8_injective {t u : Text} {b : Bytes} (ht : utf8 t = some b) (hu : utf8 u = some b) :
    t = u :=
  Option.some_injective _ ((fromUtf8_utf8 ht).symm.trans (fromUtf8_utf8 hu))

end Text

end Lakehouse

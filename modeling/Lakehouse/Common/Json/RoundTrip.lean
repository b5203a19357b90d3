import Lakehouse.Common.Json.Parse
/-!
# What is written reads back

A style *reads by* some hooks when its numbers are numerals the hooks
accept, its strings are JSON strings and its spaces are whitespace. Then
the text of any well-formed value parses to that value, members in the
order of the style (`loads_serialize`), so equal texts come from values
that agree up to the order of members.
-/

namespace Lakehouse

namespace Json

variable {N M ε : Type}

/-- Only whitespace. -/
def Blank (t : Text) : Prop := ∀ c ∈ t, isWs c = true

/-- Nothing is skipped before another character. -/
theorem skipWs_of_head {t : Text} {c : ℕ} (h : isWs c = false) : skipWs (c :: t) = c :: t := by
  simp [skipWs, h]

/-- Whitespace is skipped. -/
theorem skipWs_append {s t : Text} (hs : Blank s) : skipWs (s ++ t) = skipWs t := by
  induction s with
  | nil => rfl
  | cons c s ih =>
    have hc : isWs c = true := hs c (by simp)
    rw [List.cons_append, skipWs, List.dropWhile_cons, if_pos hc]
    exact ih fun d hd => hs d (by simp [hd])

/-- **A style whose texts the hooks read back**, each number as `g` of it. -/
structure Style.ReadBy (S : Style N ε) (H : Hooks M ε) (num : N → Prop) (text : Text → Prop)
    (g : N → M) : Prop where
  number : ∀ {n t}, num n → S.number n = .ok t →
    ∃ l : Numeral, l.Wf ∧ t = l.text ∧ H.number l = .ok (g n)
  string : ∀ {t}, text t → ∀ rest,
    ∃ body, S.string t ++ rest = 0x22 :: body ∧ scanString body = some (t, rest)
  itemSpace : Blank S.itemSpace
  keySpace : Blank S.keySpace
  newline : ∀ d, Blank (S.newline d)

mutual

/-- The value as it reads back: members in the order of the style. -/
def arranged (S : Style N ε) (g : N → M) : Json N → Json M
  | null => null
  | bool b => bool b
  | num n => num (g n)
  | str t => str t
  | arr vs => arr (arrangedItems S g vs)
  | obj ms => obj (S.arrange (arrangedMembers S g ms))

def arrangedItems (S : Style N ε) (g : N → M) : List (Json N) → List (Json M)
  | [] => []
  | v :: vs => arranged S g v :: arrangedItems S g vs

def arrangedMembers (S : Style N ε) (g : N → M) : List (Text × Json N) → List (Text × Json M)
  | [] => []
  | (k, v) :: ms => (k, arranged S g v) :: arrangedMembers S g ms

end

/-- Items are arranged one by one. -/
theorem arrangedItems_eq (S : Style N ε) (g : N → M) (vs : List (Json N)) :
    arrangedItems S g vs = vs.map (arranged S g) := by
  induction vs with
  | nil => rfl
  | cons v vs ih => rw [arrangedItems, ih, List.map_cons]

/-- Members have their values arranged. -/
theorem arrangedMembers_eq (S : Style N ε) (g : N → M) (ms : Members (Json N)) :
    arrangedMembers S g ms = ms.mapValues (arranged S g) := by
  induction ms with
  | nil => rfl
  | cons m ms ih =>
    obtain ⟨k, v⟩ := m
    rw [arrangedMembers, ih]
    rfl

/-- An object is arranged with its members in the style's order. -/
theorem arranged_obj (S : Style N ε) (g : N → M) (ms : Members (Json N)) :
    arranged S g (obj ms) = obj (Members.mapValues (arranged S g) (S.arrange ms)) := by
  rw [arranged, arrangedMembers_eq, Members.mapValues,
    S.arrange_map (f := fun m => (m.1, arranged S g m.2)) fun _ => rfl]
  rfl

/-- A style that does not sort changes the numbers alone. -/
theorem arranged_of_unsorted {S : Style N ε} (hS : S.sortKey = none) (g : N → M) (v : Json N) :
    arranged S g v = v.map g := by
  induction v using induct with
  | null => rfl
  | bool b => rfl
  | num n => rfl
  | str t => rfl
  | arr vs ih =>
    rw [arranged, map, arrangedItems_eq, mapItems_eq]
    exact congrArg arr (List.map_congr_left ih)
  | obj ms ih =>
    have harr : S.arrange ms = ms := by rw [Style.arrange, hS]
    rw [arranged_obj, map, mapMembers_eq, harr]
    exact congrArg obj (List.map_congr_left fun m hm => by rw [ih m hm])

/-! ## One part -/

section Reads

variable (H : Hooks M ε)

/-- What a value may start with: neither whitespace nor a closing
bracket nor a byte-order mark. -/
def StartsValue (p : Text) : Prop :=
  ∃ c t, p = c :: t ∧ isWs c = false ∧ c ≠ 0x5D ∧ c ≠ 0xFEFF

/-- The text parses to the value, whatever cannot continue it follows. -/
structure Reads (p : Text) (v : Json M) : Prop where
  head : StartsValue p
  parse : ∀ {fuel rest}, 2 * p.length + 1 ≤ fuel → NumeralEnd rest →
    parseValue H fuel (p ++ rest) = .ok (v, rest)

/-- The text parses to one member. -/
structure ReadsMember (p : Text) (m : Text × Json M) : Prop where
  split : ∃ q s t, p = q ++ 0x3A :: s ++ t ∧ Blank s ∧ Reads H t m.2 ∧
    ∀ rest, ∃ body, q ++ rest = 0x22 :: body ∧ scanString body = some (m.1, rest)

variable {H}

/-- A text that reads as a value starts with no whitespace. -/
theorem Reads.skipWs {p : Text} {v : Json M} (h : Reads H p v) (rest : Text) :
    skipWs (p ++ rest) = p ++ rest := by
  obtain ⟨c, t, rfl, hc, -⟩ := h.head
  exact skipWs_of_head hc

/-- No punctuation is taken into a numeral. -/
theorem numeralEnd_punct {c : ℕ} (h : c = 0x2C ∨ c = 0x5D ∨ c = 0x7D) (t : Text) :
    NumeralEnd (c :: t) := by
  rw [numeralEnd_cons]
  rcases h with rfl | rfl | rfl <;> decide

/-- A numeral ends before whitespace. -/
theorem numeralEnd_blank {s t : Text} (hs : Blank s) (ht : NumeralEnd t) : NumeralEnd (s ++ t) := by
  cases s with
  | nil => exact ht
  | cons c s =>
    have hc : isWs c = true := hs c (by simp)
    rw [List.cons_append, numeralEnd_cons]
    unfold isWs at hc
    simp only [Bool.or_eq_true, beq_iff_eq] at hc
    rcases hc with ((rfl | rfl) | rfl) | rfl <;> decide

/-- The literals and the constants. -/
theorem reads_lit {w : Text} {v : Json M} (hw : ∃ c t, w = c :: t ∧ (isWs c = false ∧ c ≠ 0x5D ∧ c ≠ 0xFEFF) ∧
      c ≠ 0x22 ∧ c ≠ 0x7B ∧ c ≠ 0x5B)
    (h : ∀ rest, parseAtom H (w ++ rest) = .ok (v, rest)) : Reads H w v := by
  obtain ⟨c, t, rfl, hstart, h₁, h₂, h₃⟩ := hw
  refine ⟨⟨c, t, rfl, hstart⟩, fun {fuel rest} hf _ => ?_⟩
  obtain ⟨fuel, rfl⟩ : ∃ n, fuel = n + 1 := ⟨fuel - 1, by omega⟩
  have ha := h rest
  rw [List.cons_append] at ha ⊢
  rw [parseValue, if_neg h₁, if_neg h₂, if_neg h₃, ha]

/-- A literal is in front of what starts with it. -/
theorem prefix_lit {s : String} {rest : Text} : lit s <+: lit s ++ rest := List.prefix_append _ _

/-- `null` is read. -/
theorem reads_null : Reads H (lit "null") null :=
  reads_lit ⟨0x6E, _, rfl, by decide⟩ fun rest => by
    rw [parseAtom, if_pos prefix_lit]
    rfl

/-- `true` is read. -/
theorem reads_true : Reads H (lit "true") (bool true) :=
  reads_lit ⟨0x74, _, rfl, by decide⟩ fun rest => by
    rw [parseAtom, if_neg (by simp [lit]), if_pos prefix_lit]
    rfl

/-- `false` is read. -/
theorem reads_false : Reads H (lit "false") (bool false) :=
  reads_lit ⟨0x66, _, rfl, by decide⟩ fun rest => by
    rw [parseAtom, if_neg (by simp [lit]), if_neg (by simp [lit]), if_pos prefix_lit]
    rfl

/-- A numeral starts like no other value. -/
theorem numeral_head {l : Numeral} (hl : l.Wf) :
    ∃ c t, l.text = c :: t ∧ (isWs c = false ∧ c ≠ 0x5D ∧ c ≠ 0xFEFF) ∧ c ≠ 0x22 ∧ c ≠ 0x7B ∧
      c ≠ 0x5B ∧ c ≠ 0x6E ∧ c ≠ 0x74 ∧ c ≠ 0x66 ∧ c ≠ 0x4E ∧ c ≠ 0x49 := by
  obtain ⟨c, t, hc, hd⟩ := hl.text_cons
  refine ⟨c, t, hc, ?_⟩
  unfold isDigit at hd
  unfold isWs
  simp only [Bool.and_eq_true, decide_eq_true_eq] at hd
  simp only [Bool.or_eq_false_iff, beq_eq_false_iff_ne]
  omega

/-- A numeral is handed to the hook of numbers. -/
theorem parseValue_numeral {l : Numeral} (hl : l.Wf) (fuel : ℕ) {rest : Text}
    (hr : NumeralEnd rest) :
    parseValue H (fuel + 1) (l.text ++ rest) = (do return (num (← H.number l), rest)) := by
  obtain ⟨c, t, hc, -, h₁, h₂, h₃, h₄, h₅, h₆, h₇, h₈⟩ := numeral_head hl
  have hscan := scanNumeral_text hl hr
  have hminus : ¬lit "-Infinity" <+: l.text ++ rest :=
    hl.not_minus_word (w := [0x6E, 0x66, 0x69, 0x6E, 0x69, 0x74, 0x79]) rest (c := 0x49) rfl
  rw [hc, List.cons_append] at hscan hminus ⊢
  have hword : ∀ (s : String) {d : ℕ} {w : Text}, lit s = d :: w → c ≠ d →
      ¬lit s <+: c :: (t ++ rest) := fun s d w hs hne hp => by
    rw [hs] at hp
    exact hne (List.cons_prefix_cons.1 hp).1.symm
  rw [parseValue, if_neg h₁, if_neg h₂, if_neg h₃, parseAtom, if_neg (hword "null" rfl h₄),
    if_neg (hword "true" rfl h₅), if_neg (hword "false" rfl h₆), if_neg (hword "NaN" rfl h₇),
    if_neg (hword "Infinity" rfl h₈), if_neg hminus, hscan]

/-- A numeral is read as its number. -/
theorem reads_number {l : Numeral} {n : M} (hl : l.Wf) (hn : H.number l = .ok n) :
    Reads H l.text (num n) := by
  obtain ⟨c, t, hc, hstart, -⟩ := numeral_head hl
  refine ⟨⟨c, t, hc, hstart⟩, fun {fuel rest} hf hr => ?_⟩
  obtain ⟨fuel, rfl⟩ : ∃ n, fuel = n + 1 := ⟨fuel - 1, by omega⟩
  rw [parseValue_numeral hl fuel hr, hn]
  rfl

/-- A text that is one numeral raises what its hook raises. -/
theorem loads_numeral_error {l : Numeral} {e : ε} (hl : l.Wf) (hn : H.number l = .error e) :
    loads H l.text = .error e := by
  obtain ⟨c, t, hc, ⟨hws, -, hbom⟩, -⟩ := numeral_head hl
  have hskip : skipWs l.text = l.text := by rw [hc, skipWs_of_head hws]
  have hparse := parseValue_numeral (H := H) hl (2 * l.text.length + 1) numeralEnd_nil
  rw [List.append_nil, hn] at hparse
  unfold loads
  rw [if_neg (by rw [hc]; simpa using hbom), hskip, hparse]
  rfl

/-- A string. -/
theorem reads_string {p t : Text}
    (h : ∀ rest, ∃ body, p ++ rest = 0x22 :: body ∧ scanString body = some (t, rest))
    (hp : ∃ q, p = 0x22 :: q) : Reads H p (str t) := by
  obtain ⟨q, rfl⟩ := hp
  refine ⟨⟨0x22, q, rfl, by decide⟩, fun {fuel rest} hf _ => ?_⟩
  obtain ⟨fuel, rfl⟩ : ∃ n, fuel = n + 1 := ⟨fuel - 1, by omega⟩
  obtain ⟨body, hbody, hscan⟩ := h rest
  rw [hbody, parseValue, if_pos rfl, hscan]

/-! ## The parts of an array -/

/-- The parts of an array read back one by one. -/
theorem parseItems_join {sep pad : Text} (hsep : Blank sep) (hpad : Blank pad)
    {ps : List Text} {vs : List (Json M)} (h : List.Forall₂ (Reads H) ps vs) (hne : ps ≠ [])
    {fuel : ℕ} {rest : Text} (hf : 2 * (Text.join (0x2C :: sep) ps).length + 2 ≤ fuel) :
    parseItems H fuel (Text.join (0x2C :: sep) ps ++ (pad ++ 0x5D :: rest)) = .ok (vs, rest) := by
  induction h generalizing fuel with
  | nil => exact absurd rfl hne
  | @cons p v ps vs hp hps ih =>
    obtain ⟨fuel, rfl⟩ : ∃ n, fuel = n + 1 := ⟨fuel - 1, by omega⟩
    cases hps with
    | nil =>
      rw [Text.join] at hf ⊢
      have hend : NumeralEnd (pad ++ 0x5D :: rest) :=
        numeralEnd_blank hpad (numeralEnd_punct (by simp) rest)
      rw [parseItems, hp.parse (by omega) hend, ok_bind]
      simp only [skipWs_append hpad, skipWs_of_head (show isWs 0x5D = false by decide), if_true]
      rfl
    | @cons q w qs ws hq hqs =>
      rw [Text.join] at hf ⊢
      simp only [List.length_append, List.length_cons] at hf
      have hfuel : 2 * (Text.join (0x2C :: sep) (q :: qs)).length + 2 ≤ fuel := by omega
      have hih := ih (List.cons_ne_nil _ _) hfuel
      have hnext : skipWs (sep ++ (Text.join (0x2C :: sep) (q :: qs) ++ (pad ++ 0x5D :: rest))) =
          Text.join (0x2C :: sep) (q :: qs) ++ (pad ++ 0x5D :: rest) := by
        rw [skipWs_append hsep]
        obtain ⟨c, t, hc, hws, -⟩ := hq.head
        cases qs with
        | nil => rw [Text.join, hc]; exact skipWs_of_head hws
        | cons r rs => rw [Text.join, hc]; exact skipWs_of_head hws
      simp only [List.append_assoc, List.cons_append] at hih hnext ⊢
      rw [parseItems, hp.parse (by omega) (numeralEnd_punct (by simp) _), ok_bind]
      simp only [skipWs_of_head (show isWs 0x2C = false by decide), if_true, hnext, hih]
      rfl

/-- The brackets of an array and of an object. -/
theorem enclose_ne_nil (S : Style N ε) (d left right : ℕ) {ps : List Text} (h : ps ≠ []) :
    S.enclose d left right ps =
      left :: (S.newline (d + 1) ++
        (Text.join (0x2C :: (S.itemSpace ++ S.newline (d + 1))) ps ++
          (S.newline d ++ [right]))) := by
  obtain ⟨p, ps, rfl⟩ := List.exists_cons_of_ne_nil h
  simp [Style.enclose]

/-- Items enclosed and separated are read as a list. -/
theorem reads_arr {S : Style N ε} (hi : Blank S.itemSpace) (hn : ∀ d, Blank (S.newline d)) (d : ℕ)
    {ps : List Text} {vs : List (Json M)} (h : List.Forall₂ (Reads H) ps vs) :
    Reads H (S.enclose d 0x5B 0x5D ps) (arr vs) := by
  cases h with
  | nil =>
    refine ⟨⟨0x5B, [0x5D], rfl, by decide⟩, fun {fuel rest} hf _ => ?_⟩
    obtain ⟨fuel, rfl⟩ : ∃ n, fuel = n + 1 := ⟨fuel - 1, by omega⟩
    simp only [Style.enclose, List.cons_append, List.nil_append]
    rw [parseValue, if_neg (by decide), if_neg (by decide), if_pos rfl,
      skipWs_of_head (show isWs 0x5D = false by decide)]
    rfl
  | @cons p v ps vs hp hps =>
    have hall : List.Forall₂ (Reads H) (p :: ps) (v :: vs) := .cons hp hps
    have hsep : Blank (S.itemSpace ++ S.newline (d + 1)) := fun c hc =>
      (List.mem_append.1 hc).elim (hi c) (hn _ c)
    rw [enclose_ne_nil S d _ _ (List.cons_ne_nil p ps)]
    refine ⟨⟨0x5B, _, rfl, by decide⟩, fun {fuel rest} hf _ => ?_⟩
    obtain ⟨fuel, rfl⟩ : ∃ n, fuel = n + 1 := ⟨fuel - 1, by omega⟩
    simp only [List.length_cons, List.length_append] at hf
    have hitems : parseItems H fuel (Text.join (0x2C :: (S.itemSpace ++ S.newline (d + 1)))
        (p :: ps) ++ (S.newline d ++ 0x5D :: rest)) = .ok (v :: vs, rest) :=
      parseItems_join hsep (hn d) hall (List.cons_ne_nil p ps) (by omega)
    obtain ⟨c, t, rfl, hws, hc, -⟩ := hp.head
    have hjoin : ∃ u, Text.join (0x2C :: (S.itemSpace ++ S.newline (d + 1))) ((c :: t) :: ps) =
        c :: u := by
      cases ps with
      | nil => exact ⟨t, rfl⟩
      | cons q qs => exact ⟨_, rfl⟩
    obtain ⟨u, hu⟩ := hjoin
    simp only [hu, List.cons_append, List.append_assoc, List.nil_append] at hitems ⊢
    rw [parseValue, if_neg (by decide), if_neg (by decide), if_pos rfl, skipWs_append (hn _),
      skipWs_of_head hws]
    dsimp only
    rw [if_neg hc, hitems]
    rfl

/-! ## The parts of an object -/

/-- One member, up to what follows its value. -/
theorem parseMembers_member {p : Text} {m : Text × Json M} (h : ReadsMember H p m) {fuel : ℕ}
    {rest : Text} (hf : 2 * p.length ≤ fuel) (hr : NumeralEnd rest) :
    parseMembers H (fuel + 1) (p ++ rest) =
      match skipWs rest with
      | [] => .error (H.invalid expectingComma)
      | d :: rest =>
        if d = 0x7D then .ok ([m], rest)
        else if d = 0x2C then do
          let (ms, rest) ← parseMembers H fuel (skipWs rest)
          return (m :: ms, rest)
        else .error (H.invalid expectingComma) := by
  obtain ⟨k, v⟩ := m
  obtain ⟨q, s, t, rfl, hs, hv, hk⟩ := h.split
  obtain ⟨body, hbody, hscan⟩ := hk (0x3A :: (s ++ (t ++ rest)))
  have hlen : 2 * t.length + 1 ≤ fuel := by
    simp only [List.length_append, List.length_cons] at hf
    omega
  simp only [List.append_assoc, List.cons_append] at hbody ⊢
  rw [hbody, parseMembers, if_pos rfl, hscan]
  dsimp only
  rw [skipWs_of_head (show isWs 0x3A = false by decide)]
  dsimp only
  rw [if_pos rfl, skipWs_append hs, hv.skipWs, hv.parse hlen hr]
  rfl

/-- Members separated are read one by one. -/
theorem parseMembers_join {sep pad : Text} (hsep : Blank sep) (hpad : Blank pad)
    {ps : List Text} {ms : List (Text × Json M)} (h : List.Forall₂ (ReadsMember H) ps ms)
    (hne : ps ≠ []) {fuel : ℕ} {rest : Text}
    (hf : 2 * (Text.join (0x2C :: sep) ps).length + 1 ≤ fuel) :
    parseMembers H fuel (Text.join (0x2C :: sep) ps ++ (pad ++ 0x7D :: rest)) =
      .ok (ms, rest) := by
  induction h generalizing fuel with
  | nil => exact absurd rfl hne
  | @cons p m ps ms hp hps ih =>
    obtain ⟨fuel, rfl⟩ : ∃ n, fuel = n + 1 := ⟨fuel - 1, by omega⟩
    cases hps with
    | nil =>
      rw [Text.join] at hf ⊢
      have hend : NumeralEnd (pad ++ 0x7D :: rest) :=
        numeralEnd_blank hpad (numeralEnd_punct (by simp) rest)
      rw [parseMembers_member hp (by omega) hend]
      simp only [skipWs_append hpad, skipWs_of_head (show isWs 0x7D = false by decide), if_true]
    | @cons q n qs ns hq hqs =>
      rw [Text.join] at hf ⊢
      simp only [List.length_append, List.length_cons] at hf
      have hfuel : 2 * (Text.join (0x2C :: sep) (q :: qs)).length + 1 ≤ fuel := by omega
      have hih := ih (List.cons_ne_nil _ _) hfuel
      have hnext : skipWs (sep ++ (Text.join (0x2C :: sep) (q :: qs) ++ (pad ++ 0x7D :: rest))) =
          Text.join (0x2C :: sep) (q :: qs) ++ (pad ++ 0x7D :: rest) := by
        rw [skipWs_append hsep]
        obtain ⟨q₁, s, t, rfl, -, -, hk⟩ := hq.split
        have hhead : ∀ u, ∃ w, Text.join (0x2C :: sep) ((q₁ ++ 0x3A :: s ++ t) :: qs) ++ u =
            q₁ ++ w := by
          intro u
          cases qs with
          | nil => exact ⟨0x3A :: (s ++ (t ++ u)), by simp [Text.join]⟩
          | cons r rs =>
            exact ⟨0x3A :: (s ++ (t ++ (0x2C :: (sep ++ (Text.join (0x2C :: sep) (r :: rs) ++ u))))),
              by simp [Text.join]⟩
        obtain ⟨w, hw⟩ := hhead (pad ++ 0x7D :: rest)
        obtain ⟨body, hbody, -⟩ := hk w
        rw [hw, hbody]
        exact skipWs_of_head (by decide)
      simp only [List.append_assoc, List.cons_append] at hih hnext ⊢
      rw [parseMembers_member hp (by omega) (numeralEnd_punct (by simp) _)]
      simp only [skipWs_of_head (show isWs 0x2C = false by decide), if_true, hnext, hih]
      rfl

/-- Members enclosed and separated are read as an object. -/
theorem reads_obj {S : Style N ε} (hi : Blank S.itemSpace) (hn : ∀ d, Blank (S.newline d)) (d : ℕ)
    {ps : List Text} {ms : Members (Json M)} (h : List.Forall₂ (ReadsMember H) ps ms)
    (hd : ms.Distinct) : Reads H (S.enclose d 0x7B 0x7D ps) (obj ms) := by
  cases h with
  | nil =>
    refine ⟨⟨0x7B, [0x7D], rfl, by decide⟩, fun {fuel rest} hf _ => ?_⟩
    obtain ⟨fuel, rfl⟩ : ∃ n, fuel = n + 1 := ⟨fuel - 1, by omega⟩
    simp only [Style.enclose, List.cons_append, List.nil_append]
    rw [parseValue, if_neg (by decide), if_pos rfl,
      skipWs_of_head (show isWs 0x7D = false by decide)]
    rfl
  | @cons p m ps ms hp hps =>
    have hall : List.Forall₂ (ReadsMember H) (p :: ps) (m :: ms) := .cons hp hps
    have hsep : Blank (S.itemSpace ++ S.newline (d + 1)) := fun c hc =>
      (List.mem_append.1 hc).elim (hi c) (hn _ c)
    rw [enclose_ne_nil S d _ _ (List.cons_ne_nil p ps)]
    refine ⟨⟨0x7B, _, rfl, by decide⟩, fun {fuel rest} hf _ => ?_⟩
    obtain ⟨fuel, rfl⟩ : ∃ n, fuel = n + 1 := ⟨fuel - 1, by omega⟩
    simp only [List.length_cons, List.length_append] at hf
    have hmembers : parseMembers H fuel (Text.join (0x2C :: (S.itemSpace ++ S.newline (d + 1)))
        (p :: ps) ++ (S.newline d ++ 0x7D :: rest)) = .ok (m :: ms, rest) :=
      parseMembers_join hsep (hn d) hall (List.cons_ne_nil p ps) (by omega)
    obtain ⟨u, hu⟩ : ∃ u, Text.join (0x2C :: (S.itemSpace ++ S.newline (d + 1))) (p :: ps) ++
        (S.newline d ++ 0x7D :: rest) = 0x22 :: u := by
      obtain ⟨q, s, t, rfl, -, -, hk⟩ := hp.split
      cases ps with
      | nil =>
        obtain ⟨body, hbody, -⟩ := hk (0x3A :: (s ++ (t ++ (S.newline d ++ 0x7D :: rest))))
        exact ⟨body, by rw [← hbody]; simp [Text.join]⟩
      | cons r rs =>
        obtain ⟨body, hbody, -⟩ := hk (0x3A :: (s ++ (t ++ (0x2C :: (S.itemSpace ++
          S.newline (d + 1)) ++ (Text.join (0x2C :: (S.itemSpace ++ S.newline (d + 1))) (r :: rs) ++
            (S.newline d ++ 0x7D :: rest))))))
        exact ⟨body, by rw [← hbody]; simp [Text.join]⟩
    simp only [hu, List.cons_append, List.append_assoc, List.nil_append] at hmembers ⊢
    rw [parseValue, if_neg (by decide), if_pos rfl, skipWs_append (hn _),
      skipWs_of_head (show isWs 0x22 = false by decide)]
    dsimp only
    rw [if_neg (by decide), hmembers, ok_bind, Members.ofPairs_of_distinct hd]
    rfl

end Reads

/-! ## The round trip -/

section RoundTrip

variable {S : Style N ε} {H : Hooks M ε} {num : N → Prop} {text : Text → Prop} {g : N → M}

/-- A member that is written is read. -/
theorem reads_member (hS : S.ReadBy H num text g) {d : ℕ} {m : Text × Json N} {p : Text}
    (hk : text m.1) (hv : ∀ t, serialize S d m.2 = .ok t → Reads H t (arranged S g m.2))
    (hp : serializeMember S d m = .ok p) : ReadsMember H p (m.1, arranged S g m.2) := by
  obtain ⟨t, ht, hp⟩ := bind_eq_ok.1 hp
  cases hp
  exact ⟨S.string m.1, S.keySpace, t, rfl, hS.keySpace, hv t ht, hS.string hk⟩

/-- **The text of a value parses to the value.** -/
theorem reads_serialize (hS : S.ReadBy H num text g) (v : Json N) {d : ℕ} {p : Text}
    (hv : v.Valid num text) (hp : serialize S d v = .ok p) : Reads H p (arranged S g v) := by
  induction v using induct generalizing d p with
  | null => cases hp; exact reads_null
  | bool b =>
    cases hp
    cases b with
    | true => exact reads_true
    | false => exact reads_false
  | num n =>
    obtain ⟨l, hl, rfl, hn⟩ := hS.number hv hp
    exact reads_number hl hn
  | str t =>
    cases hp
    obtain ⟨body, hbody, -⟩ := hS.string hv []
    exact reads_string (hS.string hv) ⟨body, by simpa using hbody⟩
  | arr vs ih =>
    rw [serialize_arr] at hp
    obtain ⟨ps, hps, hp⟩ := bind_eq_ok.1 hp
    cases hp
    rw [arranged, arrangedItems_eq]
    refine reads_arr hS.itemSpace hS.newline d ?_
    have hall := validItems_iff.1 hv
    rw [collect_eq_ok, List.forall₂_map_left_iff] at hps
    rw [List.forall₂_map_right_iff]
    exact List.forall₂_iff_get.2 ⟨hps.length_eq.symm, fun i h₁ h₂ =>
      ih _ (List.get_mem ..) (hall _ (List.get_mem ..)) ((List.forall₂_iff_get.1 hps).2 i h₂ h₁)⟩
  | obj ms ih =>
    rw [serialize_obj] at hp
    obtain ⟨ps, hps, hp⟩ := bind_eq_ok.1 hp
    cases hp
    rw [arranged_obj]
    have hall := validMembers_iff.1 hv.2
    have hmem : ∀ m ∈ S.arrange ms, m ∈ ms := fun m => (S.arrange_perm ms).mem_iff.1
    refine reads_obj hS.itemSpace hS.newline d ?_ ?_
    · rw [collect_eq_ok, List.forall₂_map_left_iff] at hps
      rw [Members.mapValues, List.forall₂_map_right_iff]
      refine List.forall₂_iff_get.2 ⟨hps.length_eq.symm, fun i h₁ h₂ => ?_⟩
      have hi := hmem _ (List.get_mem (S.arrange ms) ⟨i, h₂⟩)
      exact reads_member hS (hall _ hi).1 (fun t ht => ih _ hi (hall _ hi).2 ht)
        ((List.forall₂_iff_get.1 hps).2 i h₂ h₁)
    · unfold Members.Distinct
      rw [Members.keys_mapValues]
      exact S.distinct_arrange hv.1

/-- **`json.loads` inverts a style it reads.** -/
theorem loads_serialize (hS : S.ReadBy H num text g) {v : Json N} {p : Text}
    (hv : v.Valid num text) (hp : serialize S 0 v = .ok p) : loads H p = .ok (arranged S g v) := by
  have hr := reads_serialize hS v hv hp
  have hparse := hr.parse (Nat.le_succ (2 * p.length + 1)) numeralEnd_nil
  have hskip := hr.skipWs []
  have hbom : p.head? ≠ some 0xFEFF := by
    obtain ⟨c, t, rfl, -, -, hc⟩ := hr.head
    simpa using hc
  rw [List.append_nil] at hparse hskip
  unfold loads
  rw [if_neg hbom, hskip, hparse]
  rfl

end RoundTrip

/-! ## The strings of a value are in its text -/

/-- Every code point of a part stands in the joined text. -/
theorem mem_join {sep p : Text} {ps : List Text} (h : p ∈ ps) : ∀ c ∈ p, c ∈ Text.join sep ps := by
  induction ps with
  | nil => cases h
  | cons q ps ih =>
    intro c hc
    cases ps with
    | nil =>
      rw [List.mem_singleton] at h
      subst h
      exact hc
    | cons r rs =>
      rw [Text.join]
      rcases List.mem_cons.1 h with rfl | h
      · exact List.mem_append_left _ (List.mem_append_left _ hc)
      · exact List.mem_append_right _ (ih h c hc)

/-- A character of a part is one of the enclosed text. -/
theorem mem_enclose {S : Style N ε} {d l r : ℕ} {p : Text} {ps : List Text} (h : p ∈ ps) :
    ∀ c ∈ p, c ∈ S.enclose d l r ps := by
  intro c hc
  cases ps with
  | nil => cases h
  | cons q ps =>
    rw [Style.enclose]
    exact List.mem_append_left _ (List.mem_append_left _ (List.mem_append_right _ (mem_join h c hc)))

/-- **A text of scalar values has a value of scalar values**, whose
numbers are those the style can write. -/
theorem valid_of_serialize {S : Style N ε} (hS : ∀ {t}, (S.string t).IsScalar → t.IsScalar)
    {num num' : N → Prop} (hnum : ∀ {n t}, num n → S.number n = .ok t → num' n) (v : Json N)
    (hv : v.Valid num AnyText) {d : ℕ} {p : Text} (hp : serialize S d v = .ok p)
    (hs : p.IsScalar) : v.Valid num' Text.IsScalar := by
  induction v using induct generalizing d p with
  | null => trivial
  | bool b => trivial
  | num n => exact hnum hv hp
  | str t =>
    cases hp
    exact hS hs
  | arr vs ih =>
    rw [serialize_arr] at hp
    obtain ⟨ps, hps, hp⟩ := bind_eq_ok.1 hp
    cases hp
    rw [collect_eq_ok, List.forall₂_map_left_iff] at hps
    refine validItems_iff.2 fun v hmem => ?_
    obtain ⟨i, hi⟩ := List.get_of_mem hmem
    obtain ⟨hlen, hget⟩ := List.forall₂_iff_get.1 hps
    have hser := hget i.1 i.2 (hlen ▸ i.2)
    rw [← hi]
    refine ih _ (List.get_mem ..) (validItems_iff.1 hv _ (List.get_mem ..)) hser fun c hc => ?_
    exact hs c (mem_enclose (List.get_mem ..) c hc)
  | obj ms ih =>
    rw [serialize_obj] at hp
    obtain ⟨ps, hps, hp⟩ := bind_eq_ok.1 hp
    cases hp
    rw [collect_eq_ok, List.forall₂_map_left_iff] at hps
    refine ⟨hv.1, validMembers_iff.2 fun m hmem => ?_⟩
    obtain ⟨i, hi⟩ := List.get_of_mem ((S.arrange_perm ms).mem_iff.2 hmem)
    obtain ⟨hlen, hget⟩ := List.forall₂_iff_get.1 hps
    obtain ⟨t, ht, hpart⟩ := bind_eq_ok.1 (hget i.1 i.2 (hlen ▸ i.2))
    rw [hi] at ht hpart
    have hpart' := Except.ok.inj hpart
    have hscalar : (S.string m.1 ++ 0x3A :: S.keySpace ++ t).IsScalar := fun c hc =>
      hs c (mem_enclose (List.get_mem ps ⟨i.1, hlen ▸ i.2⟩) c (hpart' ▸ hc))
    rw [Text.isScalar_append, Text.isScalar_append] at hscalar
    exact ⟨hS hscalar.1.1, ih m hmem (validMembers_iff.1 hv.2 m hmem).2 ht hscalar.2⟩

end Json

end Lakehouse

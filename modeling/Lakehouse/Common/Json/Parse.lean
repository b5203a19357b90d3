import Lakehouse.Common.Json.Value
import Lakehouse.Common.Json.Strings
import Lakehouse.Common.Numeral
/-!
# Reading JSON

`loads` is `json.loads` of a text: one grammar, with hooks that say what
a number literal and a non-finite constant become. The recursion carries
fuel, twice the length of the text, which no document exhausts: every
second call consumes a character.
-/

namespace Lakehouse

namespace Json

/-- The constants `json.loads` accepts beyond the grammar. -/
inductive Constant where
  | nan | inf | negInf
  deriving DecidableEq, Repr

/-- **The hooks of a parse**: `parse_int` and `parse_float`,
`parse_constant`, and the exception a malformed document raises, from its
`msg`. -/
structure Hooks (N ε : Type) where
  number : Numeral → Except ε N
  constant : Constant → Except ε N
  invalid : Text → ε

/-- The whitespace of the grammar. -/
def isWs (c : ℕ) : Bool := c == 0x20 || c == 0x09 || c == 0x0A || c == 0x0D

def skipWs (t : Text) : Text := t.dropWhile isWs

/-! ## The messages of a malformed document -/

def expectingValue : Text := lit "Expecting value"
def expectingName : Text := lit "Expecting property name enclosed in double quotes"
def expectingColon : Text := lit "Expecting ':' delimiter"
def expectingComma : Text := lit "Expecting ',' delimiter"
def extraData : Text := lit "Extra data"
def byteOrderMark : Text := lit "Unexpected UTF-8 BOM (decode using utf-8-sig)"

section Parser

variable {N ε : Type} (H : Hooks N ε)

/-- A value of one token that is no string. -/
def parseAtom (t : Text) : Except ε (Json N × Text) :=
  if lit "null" <+: t then .ok (null, t.drop 4)
  else if lit "true" <+: t then .ok (bool true, t.drop 4)
  else if lit "false" <+: t then .ok (bool false, t.drop 5)
  else if lit "NaN" <+: t then do return (num (← H.constant .nan), t.drop 3)
  else if lit "Infinity" <+: t then do return (num (← H.constant .inf), t.drop 8)
  else if lit "-Infinity" <+: t then do return (num (← H.constant .negInf), t.drop 9)
  else
    match scanNumeral t with
    | some (l, rest) => do return (num (← H.number l), rest)
    | none => .error (H.invalid expectingValue)

mutual

/-- One value, and what follows it. -/
def parseValue : ℕ → Text → Except ε (Json N × Text)
  | 0, _ => .error (H.invalid expectingValue)
  | _ + 1, [] => .error (H.invalid expectingValue)
  | fuel + 1, c :: t =>
    if c = 0x22 then
      match scanString t with
      | some (s, rest) => .ok (str s, rest)
      | none => .error (H.invalid (stringFault t))
    else if c = 0x7B then
      match skipWs t with
      | [] => .error (H.invalid expectingName)
      | d :: t =>
        if d = 0x7D then .ok (obj [], t)
        else do
          let (ms, rest) ← parseMembers fuel (d :: t)
          return (obj (Members.ofPairs ms), rest)
    else if c = 0x5B then
      match skipWs t with
      | [] => .error (H.invalid expectingValue)
      | d :: t =>
        if d = 0x5D then .ok (arr [], t)
        else do
          let (vs, rest) ← parseItems fuel (d :: t)
          return (arr vs, rest)
    else parseAtom H (c :: t)

/-- The items of an array up to its closing bracket. -/
def parseItems : ℕ → Text → Except ε (List (Json N) × Text)
  | 0, _ => .error (H.invalid expectingValue)
  | fuel + 1, t => do
    let (v, rest) ← parseValue fuel t
    match skipWs rest with
    | [] => .error (H.invalid expectingComma)
    | d :: rest =>
      if d = 0x5D then return ([v], rest)
      else if d = 0x2C then do
        let (vs, rest) ← parseItems fuel (skipWs rest)
        return (v :: vs, rest)
      else .error (H.invalid expectingComma)

/-- The members of an object up to its closing brace. -/
def parseMembers : ℕ → Text → Except ε (List (Text × Json N) × Text)
  | 0, _ => .error (H.invalid expectingName)
  | _ + 1, [] => .error (H.invalid expectingName)
  | fuel + 1, c :: t =>
    if c = 0x22 then
      match scanString t with
      | none => .error (H.invalid (stringFault t))
      | some (k, rest) =>
        match skipWs rest with
        | [] => .error (H.invalid expectingColon)
        | d :: rest =>
          if d = 0x3A then do
            let (v, rest) ← parseValue fuel (skipWs rest)
            match skipWs rest with
            | [] => .error (H.invalid expectingComma)
            | d :: rest =>
              if d = 0x7D then return ([(k, v)], rest)
              else if d = 0x2C then do
                let (ms, rest) ← parseMembers fuel (skipWs rest)
                return ((k, v) :: ms, rest)
              else .error (H.invalid expectingComma)
          else .error (H.invalid expectingColon)
    else .error (H.invalid expectingName)

end

/-- **`json.loads(text)`.** A byte-order mark is refused, and nothing
but whitespace may follow the value. -/
def loads (t : Text) : Except ε (Json N) :=
  if t.head? = some 0xFEFF then .error (H.invalid byteOrderMark)
  else do
    let (v, rest) ← parseValue H (2 * t.length + 2) (skipWs t)
    if skipWs rest = [] then return v else .error (H.invalid extraData)

end Parser

/-! ## What a parse returns -/

section Valid

variable {N ε : Type} {H : Hooks N ε} {num : N → Prop}

/-- Every number the hooks make satisfies `num`. -/
structure Hooks.Makes (H : Hooks N ε) (num : N → Prop) : Prop where
  number : ∀ {l a}, H.number l = .ok a → num a
  constant : ∀ {c a}, H.constant c = .ok a → num a

/-- No condition on the strings of a value. -/
abbrev AnyText : Text → Prop := fun _ => True

/-- An atom parsed is valid. -/
theorem parseAtom_valid (h : H.Makes num) {t r : Text} {v : Json N}
    (hv : parseAtom H t = .ok (v, r)) : v.Valid num AnyText := by
  have hconst : ∀ {c : Constant} {u : Text}, (do return (Json.num (← H.constant c), u)) =
      (.ok (v, r) : Except ε _) → v.Valid num AnyText := by
    intro c u hv
    obtain ⟨a, ha, hv⟩ := bind_eq_ok.1 hv
    cases hv
    exact h.constant ha
  unfold parseAtom at hv
  split_ifs at hv
  · cases hv; trivial
  · cases hv; trivial
  · cases hv; trivial
  · exact hconst hv
  · exact hconst hv
  · exact hconst hv
  · cases hs : scanNumeral t with
    | none => rw [hs] at hv; cases hv
    | some p =>
      rw [hs] at hv
      obtain ⟨a, ha, hv⟩ := bind_eq_ok.1 hv
      cases hv
      exact h.number ha

/-- What the three parsers return at one amount of fuel. -/
structure ValidAt (H : Hooks N ε) (num : N → Prop) (fuel : ℕ) : Prop where
  value : ∀ {t v r}, parseValue H fuel t = .ok (v, r) → v.Valid num AnyText
  items : ∀ {t vs r}, parseItems H fuel t = .ok (vs, r) → ∀ v ∈ vs, v.Valid num AnyText
  members : ∀ {t ms r}, parseMembers H fuel t = .ok (ms, r) → ∀ m ∈ ms, m.2.Valid num AnyText

/-- The step of a value. -/
theorem ValidAt.value_succ (h : H.Makes num) {fuel : ℕ} (ih : ValidAt H num fuel) {t r : Text}
    {v : Json N} (hv : parseValue H (fuel + 1) t = .ok (v, r)) : v.Valid num AnyText := by
  cases t with
  | nil => cases hv
  | cons c t =>
    rw [parseValue] at hv
    split_ifs at hv
    · cases hs : scanString t with
      | none => rw [hs] at hv; cases hv
      | some p => rw [hs] at hv; cases hv; trivial
    · cases hs : skipWs t with
      | nil => rw [hs] at hv; cases hv
      | cons d t' =>
        rw [hs] at hv
        dsimp only at hv
        split_ifs at hv
        · cases hv; exact ⟨Members.distinct_nil, trivial⟩
        · obtain ⟨⟨ms, rest⟩, hms, hv⟩ := bind_eq_ok.1 hv
          cases hv
          exact ⟨Members.distinct_ofPairs ms, validMembers_iff.2 fun m hm =>
            ⟨trivial, ih.members hms m (Members.mem_ofPairs hm)⟩⟩
    · cases hs : skipWs t with
      | nil => rw [hs] at hv; cases hv
      | cons d t' =>
        rw [hs] at hv
        dsimp only at hv
        split_ifs at hv
        · cases hv; trivial
        · obtain ⟨⟨vs, rest⟩, hvs, hv⟩ := bind_eq_ok.1 hv
          cases hv
          exact validItems_iff.2 (ih.items hvs)
    · exact parseAtom_valid h hv

/-- The step of the items of an array. -/
theorem ValidAt.items_succ {fuel : ℕ} (ih : ValidAt H num fuel) {t r : Text} {vs : List (Json N)}
    (hv : parseItems H (fuel + 1) t = .ok (vs, r)) : ∀ v ∈ vs, v.Valid num AnyText := by
  rw [parseItems] at hv
  obtain ⟨⟨v, rest⟩, hv₁, hv⟩ := bind_eq_ok.1 hv
  cases hs : skipWs rest with
  | nil => simp only [hs] at hv; cases hv
  | cons d rest =>
    simp only [hs] at hv
    split_ifs at hv
    · cases hv
      simpa using ih.value hv₁
    · obtain ⟨⟨vs, rest₁⟩, hvs, hv⟩ := bind_eq_ok.1 hv
      cases hv
      exact List.forall_mem_cons.2 ⟨ih.value hv₁, ih.items hvs⟩

/-- The step of the members of an object. -/
theorem ValidAt.members_succ {fuel : ℕ} (ih : ValidAt H num fuel) {t r : Text}
    {ms : List (Text × Json N)} (hv : parseMembers H (fuel + 1) t = .ok (ms, r)) :
    ∀ m ∈ ms, m.2.Valid num AnyText := by
  cases t with
  | nil => cases hv
  | cons c t =>
    rw [parseMembers] at hv
    split_ifs at hv
    cases hk : scanString t with
    | none => rw [hk] at hv; cases hv
    | some p =>
      obtain ⟨k, rest⟩ := p
      rw [hk] at hv
      cases hs : skipWs rest with
      | nil => simp only [hs] at hv; cases hv
      | cons d rest =>
        simp only [hs] at hv
        split_ifs at hv
        obtain ⟨⟨v, rest₁⟩, hv₁, hv⟩ := bind_eq_ok.1 hv
        cases hs' : skipWs rest₁ with
        | nil => simp only [hs'] at hv; cases hv
        | cons d rest =>
          simp only [hs'] at hv
          split_ifs at hv
          · cases hv
            simpa using ih.value hv₁
          · obtain ⟨⟨ms, rest₃⟩, hms, hv⟩ := bind_eq_ok.1 hv
            cases hv
            exact List.forall_mem_cons.2 ⟨ih.value hv₁, ih.members hms⟩

/-- **Whatever is parsed is valid**, as far as the hooks make valid numbers. -/
theorem validAt (h : H.Makes num) (fuel : ℕ) : ValidAt H num fuel := by
  induction fuel with
  | zero => exact ⟨nofun, nofun, nofun⟩
  | succ fuel ih => exact ⟨ih.value_succ h, ih.items_succ, ih.members_succ⟩

/-- **A parsed document is a proper value**: its objects are dicts. -/
theorem loads_valid (h : H.Makes num) {t : Text} {v : Json N} (hv : loads H t = .ok v) :
    v.Valid num AnyText := by
  unfold loads at hv
  split_ifs at hv
  obtain ⟨⟨v', rest⟩, hv₁, hv⟩ := bind_eq_ok.1 hv
  dsimp only at hv
  split_ifs at hv
  cases hv
  exact (validAt h _).value hv₁

end Valid

/-! ## What a parse raises -/

section Raises

variable {N ε : Type} {H : Hooks N ε} {E : ε → Prop}

/-- Every exception of the hooks satisfies `E`. -/
structure Hooks.Raise (H : Hooks N ε) (E : ε → Prop) : Prop where
  number : ∀ l, OnlyRaises E (H.number l)
  constant : ∀ c, OnlyRaises E (H.constant c)
  invalid : ∀ message, E (H.invalid message)

/-- The parse of an atom raises what the hooks do. -/
theorem parseAtom_raises (h : H.Raise E) (t : Text) : OnlyRaises E (parseAtom H t) := by
  unfold parseAtom
  split_ifs
  · exact .ok _
  · exact .ok _
  · exact .ok _
  · exact .bind (h.constant _) fun _ _ => .ok _
  · exact .bind (h.constant _) fun _ _ => .ok _
  · exact .bind (h.constant _) fun _ _ => .ok _
  · cases scanNumeral t with
    | none => exact .error (h.invalid _)
    | some p => exact .bind (h.number _) fun _ _ => .ok _

/-- What the three parsers raise at one amount of fuel. -/
structure RaisesAt (H : Hooks N ε) (E : ε → Prop) (fuel : ℕ) : Prop where
  value : ∀ t, OnlyRaises E (parseValue H fuel t)
  items : ∀ t, OnlyRaises E (parseItems H fuel t)
  members : ∀ t, OnlyRaises E (parseMembers H fuel t)

variable {fuel : ℕ}

/-- The step of a value. -/
theorem RaisesAt.value_succ (h : H.Raise E) (ih : RaisesAt H E fuel) (t : Text) :
    OnlyRaises E (parseValue H (fuel + 1) t) := by
  cases t with
  | nil => exact .error (h.invalid _)
  | cons c t =>
    rw [parseValue]
    split_ifs
    · cases scanString t with
      | none => exact .error (h.invalid _)
      | some p => exact .ok _
    · cases skipWs t with
      | nil => exact .error (h.invalid _)
      | cons d t =>
        dsimp only
        split_ifs
        · exact .ok _
        · exact .bind (ih.members _) fun _ _ => .ok _
    · cases skipWs t with
      | nil => exact .error (h.invalid _)
      | cons d t =>
        dsimp only
        split_ifs
        · exact .ok _
        · exact .bind (ih.items _) fun _ _ => .ok _
    · exact parseAtom_raises h _

/-- The step of the items of an array. -/
theorem RaisesAt.items_succ (h : H.Raise E) (ih : RaisesAt H E fuel) (t : Text) :
    OnlyRaises E (parseItems H (fuel + 1) t) := by
  rw [parseItems]
  refine .bind (ih.value t) fun p _ => ?_
  dsimp only
  cases skipWs p.2 with
  | nil => exact .error (h.invalid _)
  | cons d rest =>
    dsimp only
    split_ifs
    · exact .ok _
    · exact .bind (ih.items _) fun _ _ => .ok _
    · exact .error (h.invalid _)

/-- The step of the members of an object. -/
theorem RaisesAt.members_succ (h : H.Raise E) (ih : RaisesAt H E fuel) (t : Text) :
    OnlyRaises E (parseMembers H (fuel + 1) t) := by
  cases t with
  | nil => exact .error (h.invalid _)
  | cons c t =>
    rw [parseMembers]
    split_ifs
    swap
    · exact .error (h.invalid _)
    cases scanString t with
    | none => exact .error (h.invalid _)
    | some p =>
      dsimp only
      cases skipWs p.2 with
      | nil => exact .error (h.invalid _)
      | cons d rest =>
        dsimp only
        split_ifs
        swap
        · exact .error (h.invalid _)
        refine .bind (ih.value _) fun q _ => ?_
        cases skipWs q.2 with
        | nil => exact .error (h.invalid _)
        | cons d rest =>
          dsimp only
          split_ifs
          · exact .ok _
          · exact .bind (ih.members _) fun _ _ => .ok _
          · exact .error (h.invalid _)

/-- **The parse raises what the hooks do**, besides its own errors. -/
theorem raisesAt (h : H.Raise E) (fuel : ℕ) : RaisesAt H E fuel := by
  induction fuel with
  | zero =>
    exact ⟨fun _ => .error (h.invalid _), fun _ => .error (h.invalid _),
      fun _ => .error (h.invalid _)⟩
  | succ fuel ih => exact ⟨ih.value_succ h, ih.items_succ h, ih.members_succ h⟩

/-- **A parse raises what its hooks raise.** -/
theorem loads_raises (h : H.Raise E) (t : Text) : OnlyRaises E (loads H t) := by
  unfold loads
  split_ifs
  · exact .error (h.invalid _)
  · refine .bind ((raisesAt h _).value _) fun p _ => ?_
    dsimp only
    split_ifs
    · exact .ok _
    · exact .error (h.invalid _)

end Raises

end Json

end Lakehouse

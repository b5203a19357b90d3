import Lakehouse.Common.Numeral
/-!
# The libraries the program calls

The functions of the standard and third-party libraries the models call
but do not define. A result about the program takes a `Library` as a
parameter and names what it needs of it.
-/

namespace Lakehouse

/-- What `datetime.fromisoformat(text)` makes of a text, moved to UTC. -/
inductive IsoParse where
  /-- `ValueError`. -/
  | invalid
  /-- A date-time without an offset. -/
  | naive
  /-- An instant, in microseconds. -/
  | aware (us : ℤ)
  /-- An instant UTC cannot represent. -/
  | overflow
  deriving DecidableEq, Repr

/-- **The libraries.** -/
structure Library where
  /-- `unicodedata.category(c).startswith("C")`. -/
  isControl : ℕ → Bool
  /-- `unicodedata.normalize("NFKC", text)`. -/
  nfkc : Text → Text
  /-- Whether a bracketed authority holds an IP literal. -/
  validBracketedNetloc : Text → Bool
  /-- `repr(text)`. -/
  reprText : Text → Text
  /-- `hashlib.sha256(data).hexdigest()`. -/
  sha256 : Bytes → Text
  /-- `str(uuid.uuid5(namespace, text))`, in the namespace of run ids. -/
  uuid5 : Text → Text
  /-- `datetime.fromisoformat(text)`. -/
  fromIsoformat : Text → IsoParse
  /-- `isoformat()` of an instant in UTC. -/
  isoformat : ℤ → Text

/-- The ASCII control characters are those below the space. -/
def Library.AsciiControls (L : Library) : Prop := ∀ c < 0x7F, L.isControl c = decide (c < 0x20)

/-! ## A library for printable ASCII -/

namespace IsoTime

/-- Days from the epoch to a date of the proleptic Gregorian calendar. -/
def daysFromCivil (y m d : ℕ) : ℤ :=
  let y := if m ≤ 2 then y - 1 else y
  let yearOfEra := y % 400
  let dayOfYear := (153 * ((m + 9) % 12) + 2) / 5 + d - 1
  let dayOfEra := yearOfEra * 365 + yearOfEra / 4 - yearOfEra / 100 + dayOfYear
  (y / 400 * 146097 + dayOfEra : ℕ) - 719468

/-- The date a number of days after the epoch. -/
def civilFromDays (days : ℤ) : ℕ × ℕ × ℕ :=
  let z := (days + 719468).toNat
  let dayOfEra := z % 146097
  let yearOfEra := (dayOfEra - dayOfEra / 1460 + dayOfEra / 36524 - dayOfEra / 146096) / 365
  let dayOfYear := dayOfEra - (365 * yearOfEra + yearOfEra / 4 - yearOfEra / 100)
  let month := (5 * dayOfYear + 2) / 153
  let m := if month < 10 then month + 3 else month - 9
  (yearOfEra + z / 146097 * 400 + (if m ≤ 2 then 1 else 0), m, dayOfYear - (153 * month + 2) / 5 + 1)

def daysInMonth (y m : ℕ) : ℕ :=
  if m = 2 then if y % 4 = 0 ∧ (y % 100 ≠ 0 ∨ y % 400 = 0) then 29 else 28
  else if m = 4 ∨ m = 6 ∨ m = 9 ∨ m = 11 then 30
  else 31

/-- The number at some places of a text, if all are digits. -/
def number (t : Text) (start length : ℕ) : Option ℕ :=
  let part := (t.drop start).take length
  if part.length = length ∧ part.all isDigit then some (digitsValue part) else none

/-- An offset `+HH:MM`, in minutes; none at all makes a naive time. -/
def offset (t : Text) : Option (Option ℤ) :=
  match t with
  | [] => some none
  | sign :: rest => do
    let hours ← number rest 0 2
    let minutes ← number rest 3 2
    if (sign ≠ 0x2B ∧ sign ≠ 0x2D) ∨ rest.length ≠ 5 ∨ rest[2]? ≠ some 0x3A ∨ 23 < hours ∨
        59 < minutes then none
    else some (some ((if sign = 0x2D then -1 else 1) * (60 * hours + minutes : ℕ)))

/-- The first and the last microsecond of the calendar. -/
def bounds : ℤ × ℤ :=
  (daysFromCivil 1 1 1 * 86400000000, (daysFromCivil 9999 12 31 + 1) * 86400000000 - 1)

/-- A date-time `YYYY-MM-DDTHH:MM:SS` with or without an offset. -/
def parse (t : Text) : IsoParse :=
  let parts := do
    let y ← number t 0 4
    let m ← number t 5 2
    let d ← number t 8 2
    let hours ← number t 11 2
    let minutes ← number t 14 2
    let seconds ← number t 17 2
    let offset ← offset (t.drop 19)
    if y = 0 ∨ m = 0 ∨ 12 < m ∨ d = 0 ∨ daysInMonth y m < d ∨ 23 < hours ∨ 59 < minutes ∨
        59 < seconds ∨ t[4]? ≠ some 0x2D ∨ t[7]? ≠ some 0x2D ∨ t[10]? ≠ some 0x54 ∨
        t[13]? ≠ some 0x3A ∨ t[16]? ≠ some 0x3A then none
    else some (daysFromCivil y m d * 86400 + (hours * 3600 + minutes * 60 + seconds : ℕ), offset)
  match parts with
  | none => .invalid
  | some (_, none) => .naive
  | some (seconds, some offset) =>
    let us := (seconds - offset * 60) * 1000000
    if us < bounds.1 ∨ bounds.2 < us then .overflow else .aware us

/-- A number with leading zeros. -/
def padded (width n : ℕ) : Text :=
  List.replicate (width - (Text.ofNat n).length) 0x30 ++ Text.ofNat n

/-- `isoformat()` of an instant in UTC. -/
def format (us : ℤ) : Text :=
  let (y, m, d) := civilFromDays (us / 86400000000)
  let time := (us % 86400000000).toNat
  let seconds := time / 1000000
  padded 4 y ++ 0x2D :: padded 2 m ++ 0x2D :: padded 2 d ++ 0x54 :: padded 2 (seconds / 3600) ++
    0x3A :: padded 2 (seconds / 60 % 60) ++ 0x3A :: padded 2 (seconds % 60) ++
    (if time % 1000000 = 0 then [] else 0x2E :: padded 6 (time % 1000000)) ++ lit "+00:00"

end IsoTime

/-- A library that agrees with the real one on printable ASCII texts, but
for its two digests. -/
def Library.ascii : Library where
  isControl c := decide (c < 0x20) || (0x7F ≤ c && c < 0xA0)
  nfkc := id
  validBracketedNetloc _ := false
  reprText t := 0x27 :: t ++ [0x27]
  sha256 b := b.map UInt8.toNat
  uuid5 := id
  fromIsoformat := IsoTime.parse
  isoformat := IsoTime.format

theorem Library.ascii_sha256_injective : Function.Injective Library.ascii.sha256 :=
  List.map_injective_iff.2 fun _ _ h => UInt8.toNat.inj h

theorem Library.ascii_sha256_isScalar (b : Bytes) : (Library.ascii.sha256 b).IsScalar := by
  intro c hc
  obtain ⟨x, -, rfl⟩ := List.mem_map.1 hc
  have hx := x.toNat_lt
  exact Or.inl (by omega)

theorem Library.ascii_controls : Library.ascii.AsciiControls := by
  intro c hc
  simp [Library.ascii]
  omega

end Lakehouse

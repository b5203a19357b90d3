import Lakehouse.Common.FloatMath
import Lakehouse.Ingest.Decode
/-!
# AIS position reports

The decoding of raw NMEA sentences. The library that reads the AIS
payload is a parameter: it returns a dict of fields of whatever values,
or raises. What `decodeAivdm` admits of them is a position in range, a
speed that is finite and not negative and a heading in `[0, 360)`.
-/

namespace Lakehouse

namespace Vessel

variable {F : Type} [PyFloat F] [PyMath F]

/-- What the program asks of an object of a class it does not know. -/
structure OtherObject (F : Type) where
  /-- `float(o)`. -/
  float : Except PyError F
  /-- `o in POSITION_MESSAGE_TYPES`. -/
  isPositionType : Except PyError Bool
  /-- `int(o)`. -/
  int : Except PyError ℤ
  /-- `repr(o)`. -/
  repr : Text

/-- A Python value, as far as the checks of a field tell values apart. -/
inductive PyObject (F : Type) where
  | none
  | bool (b : Bool)
  | int (n : ℤ)
  | float (x : F)
  | str (t : Text)
  | datetime (us : ℤ)
  | other (o : OtherObject F)

namespace PyObject

/-- A list or a dict: `float` refuses it, and it is unhashable. -/
def container : PyObject F :=
  .other ⟨.error .typeError, .error .typeError, .error .typeError, []⟩

/-- A value of a parsed document. -/
def ofDoc : Doc F → PyObject F
  | .null => none
  | .bool b => bool b
  | .num (.int n) => int n
  | .num (.float x) => float x
  | .str t => str t
  | .arr _ | .obj _ => container

/-- `float(n)` of an `int`. -/
def floatOfInt (n : ℤ) : Except PyError F :=
  if PyFloat.isFinite (PyFloat.ofInt n : F) then .ok (PyFloat.ofInt n) else .error .overflowError

/-- `float(value)`. -/
def toFloat : PyObject F → Except PyError F
  | none | datetime _ => .error .typeError
  | bool b => .ok (PyFloat.ofInt (if b then 1 else 0))
  | int n => floatOfInt n
  | float x => .ok x
  | str t =>
    match PyMath.ofText t with
    | some x => .ok x
    | Option.none => .error (.valueError (lit "could not convert string to float"))
  | other o => o.float

/-- `repr(value)`. -/
def repr (L : Library) : PyObject F → Text
  | none => lit "None"
  | bool b => if b then lit "True" else lit "False"
  | int n => Text.ofInt n
  | float x => PyFloat.repr x
  | str t => L.reprText t
  | datetime us => L.isoformat us
  | other o => o.repr

end PyObject

/-! ## The identity of a vessel -/

/-- `[0-9]{9}`, in full. -/
def IsMmsi (t : Text) : Prop := t.length = 9 ∧ ∀ c ∈ t, isDigit c = true

instance : DecidablePred IsMmsi := fun t => by unfold IsMmsi; infer_instance

/-- `MMSI_PATTERN.fullmatch(text)`. -/
def matchMmsi (t : Text) : Except PyError Text :=
  if IsMmsi t then .ok t
  else .error (.valueError (lit "mmsi must be exactly 9 decimal digits"))

/-- **`normalize_mmsi`.** -/
def normalizeMmsi : PyObject F → Except PyError Text
  | .bool _ => .error (.valueError (lit "mmsi must be a 9-digit identifier, not a boolean"))
  | .int n => do matchMmsi (← strInt n)
  | .str t => matchMmsi t
  | _ => .error (.valueError (lit "mmsi must be a 9-digit identifier"))

/-! ## The sentences -/

def maxNmeaSentences : ℕ := 9
def maxNmeaSentenceBytes : ℕ := 1024

/-- `[0-9]+,` at the front of a text: what follows. -/
def dropNumber (t : Text) : Option Text :=
  match t.span isDigit with
  | (_ :: _, 0x2C :: rest) => some rest
  | _ => none

def isAsciiLetter (c : ℕ) : Bool := (0x41 ≤ c && c ≤ 0x5A) || (0x61 ≤ c && c ≤ 0x7A)

/-- `[0-9A-Za-z]?,[AB],` at the front of a text. -/
def channelFollows : Text → Bool
  | 0x2C :: 0x41 :: 0x2C :: _ | 0x2C :: 0x42 :: 0x2C :: _ => true
  | c :: 0x2C :: 0x41 :: 0x2C :: _ | c :: 0x2C :: 0x42 :: 0x2C :: _ => isDigit c || isAsciiLetter c
  | _ => false

/-- `NMEA_SENTENCE_PATTERN.match(sentence)`. -/
def matchesNmea (t : Text) : Bool :=
  if (lit "!AIVDM,").isPrefixOf t || (lit "!AIVDO,").isPrefixOf t then
    match dropNumber (t.drop 7) >>= dropNumber with
    | some rest => channelFollows rest
    | none => false
  else false

/-- The value of a hexadecimal digit. -/
def hexDigit (c : ℕ) : Option ℕ :=
  if 0x30 ≤ c ∧ c ≤ 0x39 then some (c - 0x30)
  else if 0x41 ≤ c ∧ c ≤ 0x46 then some (c - 0x37)
  else if 0x61 ≤ c ∧ c ≤ 0x66 then some (c - 0x57)
  else none

/-- `int(trailer, 16)` of two characters: they may be a digit after a sign
or beside a space. -/
def hexTrailer (t : Text) : Option ℤ :=
  match t.strip with
  | [0x2B, d] => (hexDigit d).map fun n => (n : ℤ)
  | [0x2D, d] => (hexDigit d).map fun n => -(n : ℤ)
  | [d] => (hexDigit d).map fun n => (n : ℤ)
  | [c, d] => do return ((16 * (← hexDigit c) + (← hexDigit d) : ℕ) : ℤ)
  | _ => none

/-- **`nmea_checksum_valid`.** -/
def nmeaChecksumValid (sentence : Text) : Bool :=
  match Text.rpartition 0x2A sentence with
  | (body, true, trailer) =>
    trailer.length = 2 &&
      hexTrailer trailer == some (((body.drop 1).foldl (fun x c => x ^^^ c) 0 : ℕ) : ℤ)
  | _ => false

/-- The checks of one sentence. -/
def validateSentence : Doc F → Except PyError Text
  | .str sentence =>
    if (∃ c ∈ sentence, 0x80 ≤ c) ∨ sentence = [] ∨ maxNmeaSentenceBytes < sentence.length then
      .error (.valueError (lit "NMEA sentences must be ASCII of at most 1024 bytes"))
    else if matchesNmea sentence = false then
      .error (.valueError (lit "only !AIVDM/!AIVDO AIS sentences are accepted"))
    else if 0x2A ∉ sentence then
      .error (.valueError (lit "NMEA sentence is missing its checksum delimiter"))
    else if nmeaChecksumValid sentence = false then
      .error (.valueError (lit "NMEA sentence checksum mismatch"))
    else .ok sentence
  | _ => .error (.valueError (lit "each NMEA sentence must be text"))

/-- **`validate_aivdm_sentences`.** -/
def validateAivdmSentences (sentences : Doc F) : Except PyError (List Text) :=
  match sentences with
  | .arr items =>
    if items = [] ∨ maxNmeaSentences < items.length then
      .error (.valueError (lit "nmeaSentences must contain 1 to 9 sentences"))
    else collect (items.map validateSentence)
  | _ => .error (.valueError (lit "nmeaSentences must be an array of NMEA 0183 sentences"))

/-! ## The fields of a report -/

/-- What the AIS library raises. -/
inductive PyaisError where
  /-- `InvalidNMEAMessageException`, `UnknownMessageException` or a
  `ValueError`. -/
  | refused (message : Text)
  | escapes (e : PyError)

/-- `pyais.decode(*sentences).asdict()`. -/
abbrev Pyais (F : Type) : Type := List Text → Except PyaisError (Members (PyObject F))

/-- `fields.get(key)`. -/
def fieldOrNone (fields : Members (PyObject F)) (key : Text) : PyObject F :=
  (fields.get key).getD .none

/-- `POSITION_MESSAGE_TYPES`. -/
def positionMessageTypes : List ℤ := [1, 2, 3, 18, 19]

/-- `message_type in POSITION_MESSAGE_TYPES`, numbers compared by value. -/
def isPositionType : PyObject F → Except PyError Bool
  | .bool b => .ok b
  | .int n => .ok (decide (n ∈ positionMessageTypes))
  | .float x => .ok (positionMessageTypes.any fun n => PyMath.eqInt n x)
  | .other o => o.isPositionType
  | .none | .str _ | .datetime _ => .ok false

/-- `int(message_type)` of a position type. -/
def intOfType : PyObject F → Except PyError ℤ
  | .bool b => .ok (if b then 1 else 0)
  | .int n => .ok n
  | .float x => .ok (PyFloat.trunc x)
  | .other o => o.int
  | .none | .str _ | .datetime _ => .error .typeError

/-- `isinstance(value, (int, float))` and no boolean. -/
def isNumber : PyObject F → Bool
  | .int _ | .float _ => true
  | _ => false

/-- `0.0 <= x < 360.0`. -/
def isHeading (x : F) : Bool :=
  PyFloat.le (PyFloat.ofInt 0) x && PyFloat.lt x (PyFloat.ofInt 360)

/-- `AIS_SPEED_UNAVAILABLE`. -/
def aisSpeedUnavailable : F := PyFloat.ofNumeral ⟨false, lit "102", some (lit "3"), none⟩

/-- A number below its marker, checked; `None` at or above it. -/
def optionalField (unavailable : F) (admits : F → Bool) (notNumeric outOfRange : Text)
    (value : PyObject F) : Except PyError (Option F) :=
  match value with
  | .none => .ok none
  | value =>
    if isNumber value = false then .error (.valueError notNumeric)
    else do
      let x ← value.toFloat
      if PyFloat.le unavailable x then .ok none
      else if PyFloat.isFinite x && admits x then .ok (some x)
      else .error (.valueError outOfRange)

/-- **`_optional_speed`.** -/
def optionalSpeed (value : PyObject F) : Except PyError (Option F) :=
  optionalField aisSpeedUnavailable (fun x => !PyFloat.lt x (PyFloat.ofInt 0))
    (lit "AIS speed over ground must be numeric")
    (lit "AIS speed over ground must be a finite non-negative value") value

/-- **`_optional_degrees`.** -/
def optionalDegrees (value : PyObject F) (unavailable : F) (label : Text) :
    Except PyError (Option F) :=
  optionalField unavailable isHeading (lit "AIS " ++ label ++ lit " must be numeric")
    (lit "AIS " ++ label ++ lit " must be finite and within [0, 360)") value

/-- **One validated AIS position report.** -/
structure AisPositionReport (F : Type) where
  mmsi : Text
  latitude : F
  longitude : F
  speedKnots : Option F
  headingDegrees : Option F
  courseDegrees : Option F
  messageType : ℤ

/-- The position of a report. -/
def position (fields : Members (PyObject F)) : Except PyError (F × F) :=
  let unavailable : PyError :=
    .valueError (lit "AIS position report carries no valid latitude/longitude")
  match fieldOrNone fields (lit "lat"), fieldOrNone fields (lit "lon") with
  | .none, _ | _, .none => .error unavailable
  | latitude, longitude => do
    let lat ← latitude.toFloat
    if PyFloat.eq lat (PyFloat.ofInt 91) then .error unavailable
    else do
      let lon ← longitude.toFloat
      if PyFloat.eq lon (PyFloat.ofInt 181) then .error unavailable
      else if (PyFloat.isFinite lat && Ingest.within (-90) 90 lat) = false then
        .error (.valueError (lit "AIS latitude must be finite and within [-90, 90]"))
      else if (PyFloat.isFinite lon && Ingest.within (-180) 180 lon) = false then
        .error (.valueError (lit "AIS longitude must be finite and within [-180, 180]"))
      else .ok (lat, lon)

/-- What the library made of the sentences. -/
def pyaisFields (pyais : Pyais F) (sentences : List Text) :
    Except PyError (Members (PyObject F)) :=
  match pyais sentences with
  | .ok fields => .ok fields
  | .error (.refused message) =>
    .error (.valueError (lit "AIS NMEA payload could not be decoded: " ++ message))
  | .error (.escapes e) => .error e

/-- **`_decode_aivdm`.** -/
def decodeAivdm (L : Library) (pyais : Pyais F) (sentences : Doc F) : Except PyError (AisPositionReport F) := do
  let fields ← pyaisFields pyais (← validateAivdmSentences sentences)
  let messageType := fieldOrNone fields (lit "msg_type")
  if (← isPositionType messageType) = false then
    .error (.valueError (lit "AIS message type " ++ messageType.repr L ++
      lit " is not a class A/B position report ([1, 2, 3, 18, 19])"))
  else do
    let mmsi ← normalizeMmsi (fieldOrNone fields (lit "mmsi"))
    let (latitude, longitude) ← position fields
    let speedKnots ← optionalSpeed (fieldOrNone fields (lit "speed"))
    let headingDegrees ← optionalDegrees (fieldOrNone fields (lit "heading")) (PyFloat.ofInt 511)
      (lit "heading")
    let courseDegrees ← optionalDegrees (fieldOrNone fields (lit "course")) (PyFloat.ofInt 360)
      (lit "course over ground")
    return { mmsi, latitude, longitude, speedKnots, headingDegrees, courseDegrees
             messageType := ← intOfType messageType }

end Vessel

end Lakehouse

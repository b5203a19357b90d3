import Lakehouse.Common.PyFloat
import Lakehouse.Common.Json.Paired
import Lakehouse.Error
/-!
# Python's `json` module

A number of a Python document is an `int` or a `float`. The hooks of the
program's three kinds of parse, and the styles of its calls to
`json.dumps`.
-/

namespace Lakehouse

/-- A number of a parsed document. -/
inductive PyNum (F : Type) where
  | int (n : ℤ)
  | float (x : F)
  deriving DecidableEq

/-- A parsed document. -/
abbrev Doc (F : Type) : Type := Json (PyNum F)

namespace PyNum

variable {F : Type} [PyFloat F]

/-- The number as `parse_int=float` would have read it. -/
def widen : PyNum F → PyNum F
  | int n => float (PyFloat.ofInt n)
  | float x => float x

/-- A finite float, or an integer that is one: up to `2^53`. -/
def IsDouble : PyNum F → Prop
  | int n => n.natAbs ≤ 2 ^ 53
  | float x => PyFloat.isFinite x = true

instance : DecidablePred (IsDouble (F := F)) := fun n => by
  cases n <;> unfold IsDouble <;> infer_instance

/-- The rational a number is. -/
def val [LawfulFloat F] : PyNum F → ℚ
  | int n => n
  | float x => LawfulFloat.val x

end PyNum

/-! ## `json.loads` -/

section Loads

variable {F : Type} [PyFloat F]

/-- The longest digit string `int` and `str` convert. -/
def maxStrDigits : ℕ := 4300

/-- `int(text)` of an integer literal. -/
def parseInt (l : Numeral) : Except PyError (PyNum F) :=
  if maxStrDigits < l.int.length then
    .error (.valueError (lit "Exceeds the limit (4300 digits) for integer string conversion"))
  else .ok (.int l.intValue)

/-- The constants `NaN`, `Infinity` and `-Infinity`. -/
def constantFloat : Json.Constant → F
  | .nan => PyFloat.nan
  | .inf => PyFloat.inf false
  | .negInf => PyFloat.inf true

def constantName : Json.Constant → Text
  | .nan => lit "NaN"
  | .inf => lit "Infinity"
  | .negInf => lit "-Infinity"

/-- `json.loads(text)`. -/
def defaultHooks : Json.Hooks (PyNum F) PyError where
  number l := if l.isInt then parseInt l else .ok (.float (PyFloat.ofNumeral l))
  constant c := .ok (.float (constantFloat c))
  invalid := .jsonDecodeError

/-- `json.loads(text, parse_int=float, parse_float=float)`. -/
def floatHooks : Json.Hooks (PyNum F) PyError where
  number l := .ok (.float (PyFloat.ofNumeral l))
  constant c := .ok (.float (constantFloat c))
  invalid := .jsonDecodeError

/-- `reject_non_finite_constant`. -/
def rejectNonFiniteConstant {α : Type} (c : Json.Constant) : Except PyError α :=
  .error (.valueError
    (lit "non-finite JSON number '" ++ constantName c ++ lit "' is not permitted"))

/-- The same hooks with `parse_constant=reject_non_finite_constant`. -/
def rejecting (H : Json.Hooks (PyNum F) PyError) : Json.Hooks (PyNum F) PyError :=
  { H with constant := rejectNonFiniteConstant }

/-! ### Two parses of one text -/

omit [PyFloat F] in
/-- An integer literal is read as its value. -/
theorem eq_intValue_of_parseInt {l : Numeral} {n : PyNum F} (h : parseInt l = .ok n) :
    n = .int l.intValue := by
  unfold parseInt at h
  split_ifs at h
  cases h
  rfl

/-- **The readings of one number**: of an integer numeral the integer and its
double, of any other number one float. -/
def PyNum.Readings (m n : PyNum F) : Prop :=
  (∃ l : Numeral, l.Wf ∧ l.isInt = true ∧ parseInt l = .ok m ∧ n = .float (PyFloat.ofNumeral l)) ∨
    ∃ x, m = .float x ∧ n = .float x

/-- Reading every number as a float accepts what the default parse does. -/
theorem hooks_covered : (defaultHooks (F := F)).Covered floatHooks PyNum.Readings where
  number := by
    intro l a hl ha
    refine ⟨.float (PyFloat.ofNumeral l), rfl, ?_⟩
    change (if l.isInt then parseInt l else .ok (.float (PyFloat.ofNumeral l))) = .ok a at ha
    split_ifs at ha with hi
    · exact .inl ⟨l, hl, hi, ha, rfl⟩
    · cases ha
      exact .inr ⟨_, rfl, rfl⟩
  constant := by
    intro c a ha
    cases ha
    exact ⟨_, rfl, .inr ⟨_, rfl, rfl⟩⟩

omit [PyFloat F] in
/-- Hooks that reject constants are covered where the hooks are. -/
theorem rejecting_covered {H K : Json.Hooks (PyNum F) PyError} {R : PyNum F → PyNum F → Prop}
    (h : H.Covered K R) : (rejecting H).Covered (rejecting K) R where
  number := h.number
  constant := nofun

/-- `str.encode("utf-8")`. -/
def encodeUtf8 (t : Text) : Except PyError Bytes :=
  match t.utf8 with
  | some b => .ok b
  | none => .error .unicodeError

/-- `bytes.decode("utf-8")`. -/
def decodeUtf8 (b : Bytes) : Except PyError Text :=
  match Text.fromUtf8 b with
  | some t => .ok t
  | none => .error .unicodeError

/-- A `ValueError`. -/
abbrev ValueError (e : PyError) : Prop := e.isValueError = true

/-- The default hooks raise only a `ValueError`. -/
theorem defaultHooks_raise : (defaultHooks (F := F)).Raise ValueError where
  number l := by
    rw [defaultHooks]
    dsimp only
    unfold parseInt
    split_ifs
    · exact .error rfl
    · exact .ok _
    · exact .ok _
  constant _ := .ok _
  invalid _ := rfl

/-- Encoding raises only a `ValueError`. -/
theorem encodeUtf8_raises (t : Text) : OnlyRaises ValueError (encodeUtf8 t) := by
  unfold encodeUtf8
  cases t.utf8 with
  | some b => exact .ok _
  | none => exact .error rfl

/-- A text of scalar values is encoded. -/
theorem exists_encodeUtf8 {t : Text} (h : t.IsScalar) : ∃ b, encodeUtf8 t = .ok b := by
  rw [encodeUtf8, Text.utf8_eq_some.2 ⟨h, rfl⟩]
  exact ⟨_, rfl⟩

/-- The bytes of a text are its UTF-8. -/
theorem encodeUtf8_eq_ok {t : Text} {b : Bytes} : encodeUtf8 t = .ok b ↔ t.utf8 = some b := by
  unfold encodeUtf8
  cases t.utf8 <;> simp

/-- A text is decoded from its bytes. -/
theorem decodeUtf8_encodeUtf8 {t : Text} {b : Bytes} (h : encodeUtf8 t = .ok b) :
    decodeUtf8 b = .ok t := by
  rw [decodeUtf8, Text.fromUtf8_utf8 (encodeUtf8_eq_ok.1 h)]

end Loads

/-! ## `json.dumps` -/

section Dumps

variable {F : Type} [PyFloat F]

/-- `str(n)`, which refuses more than 4300 digits. -/
def strInt (n : ℤ) : Except PyError Text :=
  if maxStrDigits < (Text.ofNat n.natAbs).length then
    .error (.valueError (lit "Exceeds the limit (4300 digits) for integer string conversion"))
  else .ok (Text.ofInt n)

/-- A number in `json.dumps(..., allow_nan=allowNan)`. -/
def dumpsNumber (allowNan : Bool) : PyNum F → Except PyError Text
  | .int n => strInt n
  | .float x =>
    if PyFloat.isFinite x then .ok (PyFloat.repr x)
    else if allowNan then
      .ok (if PyFloat.eq x x then
        if PyFloat.lt x (PyFloat.ofInt 0) then lit "-Infinity" else lit "Infinity"
      else lit "NaN")
    else .error (.valueError (lit "Out of range float values are not JSON compliant"))

/-- The arguments of `json.dumps` the program sets. -/
structure DumpsOptions where
  ensureAscii : Bool := true
  allowNan : Bool := true
  sortKeys : Bool := false
  /-- `separators=(",", ":")`. -/
  compact : Bool := false
  indent : Option ℕ := none

/-- The style of a call to `json.dumps`. With an indent the comma is
followed by the line break alone. -/
def DumpsOptions.style (o : DumpsOptions) : Json.Style (PyNum F) PyError where
  number := dumpsNumber o.allowNan
  string := Json.quote o.ensureAscii
  itemSpace := if o.compact || o.indent.isSome then [] else [0x20]
  keySpace := if o.compact then [] else [0x20]
  newline d := match o.indent with
    | none => []
    | some n => 0x0A :: List.replicate (n * d) 0x20
  sortKey := if o.sortKeys then some id else none

/-- `json.dumps(value, ...)`. -/
def dumps (o : DumpsOptions) (v : Doc F) : Except PyError Text := v.serialize o.style 0

/-- `canonical_json`. -/
def canonicalJson (v : Doc F) : Except PyError Text :=
  dumps { ensureAscii := false, allowNan := false, sortKeys := true, compact := true } v

/-- A list of texts is always written. -/
theorem dumps_texts (o : DumpsOptions) (ts : List Text) :
    dumps o (.arr (ts.map .str) : Doc F) =
      .ok ((o.style (F := F)).enclose 0 0x5B 0x5D (ts.map (Json.quote o.ensureAscii))) := by
  have hparts : collect ((ts.map Json.str : List (Doc F)).map (Json.serialize o.style 1)) =
      .ok (ts.map (Json.quote o.ensureAscii)) := by
    rw [List.map_map]
    exact collect_map_eq_ok fun t _ => by rw [Function.comp_apply, Json.serialize]; rfl
  rw [dumps, Json.serialize_arr, hparts, ok_bind]
  rfl

/-- A number `json.dumps` can write. -/
def PyNum.Writable : PyNum F → Prop
  | .int n => n.natAbs < 10 ^ 20
  | .float x => PyFloat.isFinite x = true ∧ (PyFloat.repr x).IsScalar

/-- Every style writes scalar values only. -/
theorem style_writesScalars (o : DumpsOptions) :
    (o.style (F := F)).WritesScalars PyNum.Writable Text.IsScalar where
  number := by
    intro n t hn ht
    cases n with
    | int n =>
      simp only [DumpsOptions.style, dumpsNumber, strInt, guard_eq_ok] at ht
      cases ht.2
      exact Text.isScalar_ofInt n
    | float x =>
      simp only [DumpsOptions.style, dumpsNumber, if_pos hn.1] at ht
      cases ht
      exact hn.2
  string := Json.isScalar_quote
  itemSpace := by
    unfold DumpsOptions.style
    dsimp only
    split_ifs <;> decide
  keySpace := by
    unfold DumpsOptions.style
    dsimp only
    split_ifs <;> decide
  newline := by
    intro d
    unfold DumpsOptions.style
    cases o.indent with
    | none => exact Text.isScalar_nil
    | some n =>
      intro c hc
      obtain rfl | hc := List.mem_cons.1 hc
      · decide
      · rw [List.eq_of_mem_replicate hc]
        decide

/-- A number `json.dumps` writes, whatever its text. -/
def PyNum.Printable : PyNum F → Prop
  | .int n => n.natAbs < 10 ^ 20
  | .float x => PyFloat.isFinite x = true

/-- A printable number is written. -/
theorem style_number_isOk (o : DumpsOptions) {n : PyNum F} (hn : n.Printable) :
    ∃ t, (o.style (F := F)).number n = .ok t := by
  cases n with
  | int n =>
    have hlen : (Text.ofNat n.natAbs).length ≤ 20 := Text.length_ofNat_le (by decide) hn
    have hshort : ¬maxStrDigits < (Text.ofNat n.natAbs).length := by
      unfold maxStrDigits
      omega
    refine ⟨Text.ofInt n, ?_⟩
    simp only [DumpsOptions.style, dumpsNumber, strInt, if_neg hshort]
  | float x =>
    have hfin : PyFloat.isFinite x = true := hn
    refine ⟨PyFloat.repr x, ?_⟩
    simp only [DumpsOptions.style, dumpsNumber, if_pos hfin]

/-- A value of printable numbers is written. -/
theorem dumps_isOk (o : DumpsOptions) {v : Doc F} (hv : v.Valid PyNum.Printable fun _ => True) :
    ∃ t, dumps o v = .ok t :=
  Json.serialize_isOk (fun _ hn => style_number_isOk o hn) v hv 0

/-- **A value of scalar texts and writable numbers is written**, as a text
of scalar values. -/
theorem exists_dumps (o : DumpsOptions) {v : Doc F}
    (hv : v.Valid PyNum.Writable Text.IsScalar) : ∃ t, dumps o v = .ok t ∧ t.IsScalar := by
  have hnumber : ∀ n : PyNum F, n.Writable → ∃ t, (o.style (F := F)).number n = .ok t := by
    intro n hn
    refine style_number_isOk o ?_
    cases n with
    | int n => exact hn
    | float x => exact hn.1
  obtain ⟨t, ht⟩ := Json.serialize_isOk hnumber v hv 0
  exact ⟨t, ht, Json.serialize_isScalar (style_writesScalars o) v hv ht⟩

end Dumps

/-! ## What `dumps` writes, `loads` reads -/

section RoundTrip

variable {F : Type} [PyFloat F] [LawfulFloat F]

open LawfulFloat (val)

/-- Every float is finite. -/
def PyNum.Finite : PyNum F → Prop
  | .int _ => True
  | .float x => PyFloat.isFinite x = true

/-- `repr` of a finite float is a numeral with a fraction or an exponent
that reads as the float. -/
theorem repr_reads {x : F} (hx : PyFloat.isFinite x = true) :
    ∃ l : Numeral, l.Wf ∧ l.isInt = false ∧ PyFloat.repr x = l.text ∧
      (PyFloat.ofNumeral l : F) = x := by
  have hzero : ∀ b, (⟨b, [0x30], some [0x30], none⟩ : Numeral).Wf := fun b =>
    ⟨Or.inl rfl, fun f hf => by cases hf; exact ⟨by simp, by decide⟩, nofun⟩
  rcases lt_trichotomy (val x) 0 with hneg | h0 | hpos
  · have habs := LawfulFloat.finite_abs hx
    obtain ⟨l, hl, hrepr⟩ := LawfulFloat.repr_shape habs
      (by rw [LawfulFloat.val_abs hx]; exact abs_pos.2 hneg.ne)
    have hx' : PyFloat.repr x = ({ l with neg := true } : Numeral).text := by
      rw [LawfulFloat.repr_neg hx hneg, hrepr]
      simp [Numeral.text, hl.neg]
    have hwf : ({ l with neg := true } : Numeral).Wf := ⟨hl.int, hl.frac, hl.exp⟩
    exact ⟨_, hwf, hl.real, hx', LawfulFloat.ofNumeral_repr hx hwf hx'⟩
  · rcases LawfulFloat.repr_zero hx h0 with h | h
    · exact ⟨_, hzero false, rfl, h, LawfulFloat.ofNumeral_repr hx (hzero false) h⟩
    · exact ⟨_, hzero true, rfl, h, LawfulFloat.ofNumeral_repr hx (hzero true) h⟩
  · obtain ⟨l, hl, hrepr⟩ := LawfulFloat.repr_shape hx hpos
    exact ⟨l, hl.toWf, hl.real, hrepr, LawfulFloat.ofNumeral_repr hx hl.toWf hrepr⟩

/-- The `repr` of a finite float is ASCII. -/
theorem isScalar_repr {x : F} (hx : PyFloat.isFinite x = true) : (PyFloat.repr x).IsScalar := by
  obtain ⟨l, hl, -, htext, -⟩ := repr_reads hx
  rw [htext]
  exact hl.isScalar_text

/-- The number `parse_int=parse_float=float` reads. -/
def floatView : PyNum F → PyNum F
  | .int n => .float (PyFloat.ofNumeral (Numeral.ofInt n))
  | .float x => .float x

/-- Any hooks that read the numerals of `dumps` read its texts. -/
theorem dumps_readBy (o : DumpsOptions) {H : Json.Hooks (PyNum F) PyError} {g : PyNum F → PyNum F}
    (hint : ∀ n : ℤ, (Text.ofNat n.natAbs).length ≤ maxStrDigits →
      H.number (Numeral.ofInt n) = .ok (g (.int n)))
    (hfloat : ∀ (l : Numeral), l.isInt = false → PyFloat.isFinite (PyFloat.ofNumeral l : F) = true →
      H.number l = .ok (g (.float (PyFloat.ofNumeral l)))) :
    (o.style (F := F)).ReadBy H PyNum.Finite Text.IsScalar g where
  number := by
    intro n t hn ht
    cases n with
    | int n =>
      simp only [DumpsOptions.style, dumpsNumber, strInt, guard_eq_ok] at ht
      cases ht.2
      exact ⟨Numeral.ofInt n, Numeral.ofInt_wf n, (Numeral.ofInt_text n).symm,
        hint n (not_lt.1 ht.1)⟩
    | float x =>
      have hx : PyFloat.isFinite x = true := hn
      simp only [DumpsOptions.style, dumpsNumber, if_pos hx] at ht
      cases ht
      obtain ⟨l, hl, hreal, htext, hread⟩ := repr_reads hx
      exact ⟨l, hl, htext, by rw [hfloat l hreal (by rw [hread]; exact hx), hread]⟩
  string := fun ht rest => Json.scanString_quote ht rest
  itemSpace := by
    unfold DumpsOptions.style
    dsimp only
    split_ifs
    · nofun
    · intro c hc; rw [List.mem_singleton.1 hc]; rfl
  keySpace := by
    unfold DumpsOptions.style
    dsimp only
    split_ifs
    · nofun
    · intro c hc; rw [List.mem_singleton.1 hc]; rfl
  newline := by
    intro d
    unfold DumpsOptions.style
    cases o.indent with
    | none => nofun
    | some n =>
      intro c hc
      rcases List.mem_cons.1 hc with rfl | hc
      · rfl
      · rw [List.eq_of_mem_replicate hc]; rfl

/-- A dumped value is read back by the default hooks. -/
theorem dumps_readBy_default (o : DumpsOptions) :
    (o.style (F := F)).ReadBy defaultHooks PyNum.Finite Text.IsScalar id :=
  dumps_readBy o
    (fun n hn => by
      have hlen : ¬maxStrDigits < (Numeral.ofInt n).int.length := not_lt.2 hn
      change parseInt (Numeral.ofInt n) = _
      rw [parseInt, if_neg hlen, Numeral.ofInt_intValue]
      rfl)
    (fun l hl _ => if_neg (by simp [hl]))

/-- A dumped value is read back by the hooks that widen integers. -/
theorem dumps_readBy_float (o : DumpsOptions) :
    (o.style (F := F)).ReadBy floatHooks PyNum.Finite Text.IsScalar floatView :=
  dumps_readBy o (fun _ _ => rfl) (fun _ _ _ => rfl)

/-- **`json.loads(json.dumps(v))` is `v`**, under the default parse and
with every number as a float. -/
theorem loads_dumps {o : DumpsOptions} (ho : o.sortKeys = false) {v : Doc F} {t : Text}
    (hv : v.Valid PyNum.Finite Text.IsScalar) (ht : dumps o v = .ok t) :
    Json.loads defaultHooks t = .ok v ∧ Json.loads floatHooks t = .ok (v.map floatView) := by
  have hsort : (o.style (F := F)).sortKey = none := by simp [DumpsOptions.style, ho]
  refine ⟨?_, ?_⟩
  · rw [Json.loads_serialize (dumps_readBy_default o) hv ht, Json.arranged_of_unsorted hsort,
      Json.map_id]
  · rw [Json.loads_serialize (dumps_readBy_float o) hv ht, Json.arranged_of_unsorted hsort]

end RoundTrip

/-! ## The double a number is read as -/

section SameDouble

variable {F : Type} [PyFloat F] [LawfulFloat F]

namespace PyNum

/-- A finite float that is zero. -/
def IsZero : PyNum F → Prop
  | .int _ => False
  | .float x => PyFloat.isFinite x = true ∧ LawfulFloat.val x = 0

/-- **Two numbers are one double**: widened, they are the same float, the
two zeros apart. -/
def SameDouble (m n : PyNum F) : Prop := m.widen = n.widen ∨ (m.widen.IsZero ∧ n.widen.IsZero)

/-- Being the same double is symmetric. -/
theorem SameDouble.symm {m n : PyNum F} (h : SameDouble m n) : SameDouble n m :=
  h.imp Eq.symm And.symm

/-- Being the same double is transitive. -/
theorem SameDouble.trans {m n p : PyNum F} (h : SameDouble m n) (h' : SameDouble n p) :
    SameDouble m p := by
  rcases h with h | ⟨hm, hn⟩
  · rw [SameDouble, h]
    exact h'
  · rcases h' with h' | ⟨-, hp⟩
    · exact .inr ⟨hm, h' ▸ hn⟩
    · exact .inr ⟨hm, hp⟩

/-- A double and its value. -/
theorem IsDouble.widen {n : PyNum F} (h : n.IsDouble) :
    ∃ x : F, n.widen = .float x ∧ PyFloat.isFinite x = true ∧ LawfulFloat.val x = n.val := by
  cases n with
  | int n => exact ⟨_, rfl, LawfulFloat.finite_ofInt h, LawfulFloat.val_ofInt h⟩
  | float x => exact ⟨x, rfl, h, rfl⟩

/-- Doubles of one value are one double. -/
theorem sameDouble_of_val {m n : PyNum F} (hm : m.IsDouble) (hn : n.IsDouble)
    (h : m.val = n.val) : SameDouble m n := by
  obtain ⟨x, hmx, hx, hvx⟩ := hm.widen
  obtain ⟨y, hny, hy, hvy⟩ := hn.widen
  have hxy : LawfulFloat.val x = LawfulFloat.val y := by rw [hvx, hvy, h]
  unfold SameDouble
  rw [hmx, hny]
  by_cases h0 : LawfulFloat.val x = 0
  · exact .inr ⟨⟨hx, h0⟩, hy, hxy ▸ h0⟩
  · exact .inl (by rw [LawfulFloat.ext hx hy h0 hxy])

/-- An integer numeral reads as the double its integer is. -/
theorem sameDouble_ofNumeral {l : Numeral} (hl : l.Wf) (hi : l.isInt = true) :
    SameDouble (F := F) (.int l.intValue) (.float (PyFloat.ofNumeral l)) := by
  by_cases h0 : l.intValue = 0
  · have hvalue : l.value = 0 := by
      rw [Numeral.value_of_isInt hi, h0, Int.cast_zero]
    have hzero : PyFloat.isFinite (PyFloat.ofInt 0 : F) = true ∧
        LawfulFloat.val (PyFloat.ofInt 0 : F) = 0 :=
      ⟨LawfulFloat.finite_ofInt (by decide), by rw [LawfulFloat.val_ofInt (by decide)]; rfl⟩
    rw [h0]
    exact .inr ⟨hzero, LawfulFloat.ofNumeral_zero hvalue⟩
  · exact .inl (by rw [widen, widen, LawfulFloat.ofNumeral_int hl hi h0])

/-- The two readings of a number are one double. -/
theorem Readings.sameDouble {m n : PyNum F} (h : Readings m n) : SameDouble m n := by
  obtain ⟨l, hl, hi, hm, rfl⟩ | ⟨x, rfl, rfl⟩ := h
  · obtain rfl := eq_intValue_of_parseInt hm
    exact sameDouble_ofNumeral hl hi
  · exact .inl rfl

end PyNum

/-- **The two parses of a message** read one double of every numeral. -/
theorem hooks_relate : (rejecting (defaultHooks (F := F))).Relate (rejecting floatHooks)
    PyNum.SameDouble :=
  (rejecting_covered (hooks_covered.mono fun _ _ => PyNum.Readings.sameDouble)).relate

end SameDouble

end Lakehouse

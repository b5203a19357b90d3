import Lakehouse.Common.Decimal
/-!
# IEEE doubles

The `float` of the language: the core library's model of `binary64`, with
the conversions Python adds. `float(text)` is correctly rounded, and
`repr` writes the shortest decimal that reads back, the nearest one of
that length.
-/

namespace Lakehouse

/-- **A double.** -/
abbrev Binary64 : Type := Float.Model

namespace Binary64

/-- `m · 10 ^ e`, rounded to the nearest double. -/
def ofScaled (neg : Bool) (m : ℕ) (e : ℤ) : Binary64 :=
  let x := Float.Model.ofScientific m e
  if neg then -x else x

/-- The magnitude of a finite double, as a fraction of natural numbers. -/
def magnitude (x : Binary64) : ℕ × ℕ :=
  match x.unpack with
  | .finite _ m e _ => (m * 2 ^ e.toNat, 2 ^ (-e).toNat)
  | _ => (0, 1)

def isNegative (x : Binary64) : Bool :=
  match x.unpack with
  | .infinity .negative | .zero .negative | .finite .negative .. => true
  | _ => false

/-- Where the decimal point of `num / den` stands, from before its first
digit. -/
def pointOf (num den : ℕ) : ℤ :=
  if den ≤ num then (Text.ofNat (num / den)).length
  else
    let n := (Text.ofNat (den / num)).length
    if num * 10 ^ (n - 1) = den then 2 - n else 1 - n

/-- `num / den · 10 ^ k` between two natural numbers, the nearer one
first, of a tie the even one. -/
def bracket (num den : ℕ) (k : ℤ) : List ℕ :=
  let num := num * 10 ^ k.toNat
  let den := den * 10 ^ (-k).toNat
  let q := num / den
  let r := num % den
  if 2 * r < den ∨ (2 * r = den ∧ q % 2 = 0) then [q, q + 1] else [q + 1, q]

/-- The shortest decimal that reads as a positive finite double. -/
def shortest (x : Binary64) : ℕ × ℤ :=
  let (num, den) := magnitude x
  let point := pointOf num den
  let found := (List.range' 1 17).findSome? fun n =>
    (bracket num den (n - point)).findSome? fun d =>
      if (ofScaled false d (point - n)).beq x then some (d, point - n) else none
  found.getD (num, 0)

/-- The layout of `repr`: an exponent below `1e-4` and from `1e16` on. -/
def layout (digits : Text) (point : ℤ) : Text :=
  let n : ℤ := digits.length
  if -4 < point ∧ point ≤ 0 then
    0x30 :: 0x2E :: List.replicate (-point).toNat 0x30 ++ digits
  else if 0 < point ∧ point ≤ 16 then
    if n ≤ point then digits ++ List.replicate (point - n).toNat 0x30 ++ lit ".0"
    else digits.take point.toNat ++ 0x2E :: digits.drop point.toNat
  else
    digits.take 1 ++ (if n = 1 then [] else 0x2E :: digits.drop 1) ++
      0x65 :: (if 1 ≤ point then 0x2B else 0x2D) :: Decimal.padded 2 (point - 1).natAbs

/-- `repr` of a positive finite double. -/
def reprPositive (x : Binary64) : Text :=
  let (m, e) := shortest x
  let digits := Text.ofNat m
  layout (Text.rstripChar 0x30 digits) (digits.length + e)

/-- `round(x, 6)` of a finite double. -/
def roundSix (x : Binary64) : Binary64 :=
  let (num, den) := magnitude x
  ofScaled (isNegative x) ((bracket num den 6).headD 0) (-6)

instance : PyFloat Binary64 where
  ofInt := Float.Model.ofInt
  ofNumeral l := ofScaled l.neg (digitsValue l.digits) l.exponent
  nan := .pack .notANumber
  inf neg := .pack (.infinity (if neg then .negative else .positive))
  eq := Float.Model.beq
  lt := Float.Model.lt
  abs := Float.Model.abs
  add := Float.Model.add
  sub := Float.Model.sub
  mul := Float.Model.mul
  div := Float.Model.div
  trunc x := x.unpack.toInt 0 0
  round6 x := if x.isFinite then roundSix x else x
  isFinite := Float.Model.isFinite
  repr x :=
    let sign : Text := if isNegative x then [0x2D] else []
    match x.unpack with
    | .notANumber => lit "nan"
    | .infinity _ => sign ++ lit "inf"
    | .zero _ => sign ++ lit "0.0"
    | .finite .. => sign ++ reprPositive x.abs

example : PyFloat.repr (PyFloat.ofInt (2 ^ 60) : Binary64) = lit "1.152921504606847e+18" := by
  decide +kernel

end Binary64

end Lakehouse

import Lightpath.Numeric.Power

/-!
# Decimal — writing doubles exactly

A double is `± m · 2 ^ e`, decoded from its bits by `Magnitude.ofFloat`. Its decimal texts are
computed from that fraction in exact arithmetic:

* `fixed n` — `n` places, a tie goes to the even neighbour;
* `scientific n` — one digit, a point, `n` places and an exponent, same rule for ties;
* `shortest` — the fewest digits that read back as the same double, and of those the nearest.
-/

namespace Lightpath.Text

/-- A non-negative double as an exact fraction `num / den`. -/
structure Magnitude where
  num : Nat
  den : Nat

/-- Classification of a double by its bits. -/
inductive FloatShape where
  | notANumber
  | infinite (negative : Bool)
  | finite (negative : Bool) (magnitude : Magnitude)

/-- The shape of a double, read off its sign, exponent and fraction bits. -/
def FloatShape.ofFloat (x : Float) : FloatShape :=
  let bits := x.toBits.toNat
  let negative := bits / twoPow 63 % 2 == 1
  let exponent := bits / twoPow 52 % twoPow 11
  let fraction := bits % twoPow 52
  if exponent == twoPow 11 - 1 then
    if fraction == 0 then .infinite negative else .notANumber
  else
    let m := if exponent == 0 then fraction else twoPow 52 + fraction
    let e := if exponent == 0 then 1 else exponent
    -- the value is m · 2 ^ (e - 1075)
    .finite negative (if e ≥ 1075 then ⟨m * twoPow (e - 1075), 1⟩ else ⟨m, twoPow (1075 - e)⟩)

/-- `num / den` to the nearest integer; a tie goes to the even one. -/
def roundHalfEven (num den : Nat) : Nat :=
  let q := num / den
  let r := num % den
  if 2 * r < den then q
  else if 2 * r > den then q + 1
  else if q % 2 == 0 then q else q + 1

/-- The text of a sign. -/
def signText (negative : Bool) : String := if negative then "-" else ""

/-- A text with zeros put in front up to a length of `n`. -/
def padZeros (n : Nat) (s : String) : String :=
  String.ofList (List.replicate (n - s.length) '0') ++ s

/-- `digits` with a point before its last `places` digits. -/
def withPoint (places : Nat) (digits : Nat) : String :=
  let cs := (padZeros (places + 1) (toString digits)).toList
  let whole := cs.take (cs.length - places)
  if places = 0 then String.ofList whole
  else String.ofList (whole ++ '.' :: cs.drop (cs.length - places))

/-- A double with `places` decimal places, rounded to nearest with ties to even. The sign of a
negative zero is kept. -/
def fixed (places : Nat) (x : Float) : String :=
  match FloatShape.ofFloat x with
  | .notANumber => "NaN"
  | .infinite negative => signText negative ++ "inf"
  | .finite negative m =>
    signText negative ++ withPoint places (roundHalfEven (m.num * tenPow places) m.den)

/-- The exponent `d` with `10 ^ d ≤ num / den < 10 ^ (d + 1)`, for a positive fraction. -/
def decimalExponent (m : Magnitude) : Int :=
  if m.num ≥ m.den then ((toString (m.num / m.den)).length : Int) - 1
  else
    let k := (toString (m.den / m.num)).length - 1
    if m.num * tenPow k ≥ m.den then -(k : Int) else -((k : Int) + 1)

/-- `num / den · 10 ^ shift` as a fraction. -/
def Magnitude.scale (m : Magnitude) (shift : Int) : Magnitude :=
  if shift ≥ 0 then ⟨m.num * tenPow shift.toNat, m.den⟩ else ⟨m.num, m.den * tenPow (-shift).toNat⟩

/-- A double with one digit before the point, `places` after it, and an exponent without padding,
rounded to nearest with ties to even. -/
def scientific (places : Nat) (x : Float) : String :=
  match FloatShape.ofFloat x with
  | .notANumber => "NaN"
  | .infinite negative => signText negative ++ "inf"
  | .finite negative m =>
    if m.num = 0 then signText negative ++ withPoint places 0 ++ "e0"
    else
      let d := decimalExponent m
      let scaled := m.scale (places - d)
      let n := roundHalfEven scaled.num scaled.den
      let (n, d) := if n ≥ tenPow (places + 1) then (n / 10, d + 1) else (n, d)
      signText negative ++ withPoint places n ++ "e" ++ toString d

/-! ## Shortest text -/

/-- Whether `digits · 10 ^ exponent` reads back as the non-negative double `x`. -/
def readsBack (x : Float) (digits : Nat) (exponent : Int) : Bool :=
  (if exponent < 0 then Float.ofScientific digits true exponent.natAbs
    else Float.ofScientific digits false exponent.natAbs) == x

/-- The nearest of the two grid neighbours of the magnitude that read back, on the grid of `size`
significant digits, with its exponent. -/
def neighbour? (x : Float) (m : Magnitude) (d : Int) (size : Nat) : Option (Nat × Int) :=
  let e := d - size + 1
  let scaled := m.scale (-e)
  let low := scaled.num / scaled.den
  let nearest := roundHalfEven scaled.num scaled.den
  let other := if nearest = low then low + 1 else low
  if readsBack x nearest e then some (nearest, e)
  else if readsBack x other e then some (other, e)
  else none

/-- The first grid with at most `sizes` further digits that holds a number reading back as `x`. -/
def shortestFrom (x : Float) (m : Magnitude) (d : Int) (size : Nat) : Nat → Nat × Int
  | 0 => (roundHalfEven (m.scale (16 - d)).num (m.scale (16 - d)).den, d - 16)
  | more + 1 =>
    match neighbour? x m d size with
    | some r => r
    | none => shortestFrom x m d (size + 1) more

/-- The digits without trailing zeros, and the exponent that makes up for them; `fuel` bounds the
number of zeros. -/
def dropZeros (fuel : Nat) (digits : Nat) (exponent : Int) : Nat × Int :=
  match fuel with
  | 0 => (digits, exponent)
  | fuel + 1 =>
    if digits % 10 = 0 ∧ digits ≠ 0 then dropZeros fuel (digits / 10) (exponent + 1)
    else (digits, exponent)

/-- The layout of a shortest number: positional while the point falls within sixteen digits to the
right of the first one or five zeros to its left, else with an exponent, which always has a sign. A
positional number always shows a place after the point. -/
def layout (digits : Nat) (exponent : Int) : String :=
  let ds := toString digits
  let point : Int := ds.length + exponent
  if exponent ≥ 0 ∧ point ≤ 16 then
    ds ++ String.ofList (List.replicate exponent.toNat '0') ++ ".0"
  else if 0 < point ∧ point ≤ 16 then withPoint (-exponent).toNat digits
  else if -5 < point ∧ point ≤ 0 then
    "0." ++ String.ofList (List.replicate (-point).toNat '0') ++ ds
  else
    let mantissa := if ds.length = 1 then ds else withPoint (ds.length - 1) digits
    mantissa ++ "e" ++ (if point < 1 then "" else "+") ++ toString (point - 1)

/-- The shortest decimal text that reads back as the double `x`, which is finite. -/
def shortest (x : Float) : String :=
  match FloatShape.ofFloat x with
  | .notANumber => "NaN"
  | .infinite negative => signText negative ++ "inf"
  | .finite negative m =>
    if m.num = 0 then signText negative ++ "0.0"
    else
      let (n, e) := shortestFrom x.abs m (decimalExponent m) 1 17
      let (n, e) := dropZeros 20 n e
      signText negative ++ layout n e

end Lightpath.Text

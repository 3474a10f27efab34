import Lightpath.Numeric.Power

/-!
# Doubles in order

`totalOrder` is a total order of all doubles: it agrees with the usual comparison on numbers, puts
minus zero before zero and not-a-number behind every number.

`nearestWord` rounds a double to a whole number, read off its bits.

`SignedDouble` tells two not-a-numbers apart by a sign: the negative one stands before every number
and the positive one behind. Sums keep the sign.
-/

namespace Lightpath

/-- A key that ascends with a double. -/
def totalKey (x : Float) : Int :=
  let bits := x.toBits.toNat
  if bits < twoPow 63 then bits else (twoPow 63 : Int) - 1 - (bits : Int)

/-- The total order of doubles. -/
def totalOrder (x y : Float) : Ordering := compare (totalKey x) (totalKey y)

/-! ## Whole numbers -/

/-- The whole number nearest to `significand * 2 ^ exponent`, a half rounded up. -/
def nearestNat (significand : Nat) : Int → Nat
  | .ofNat n => significand * twoPow n
  | .negSucc n => (significand + twoPow n) / twoPow (n + 1)

/-- The whole number nearest to a double, a half rounded away from zero, or the bound of the signed
words of `width` bits that it lies beyond. Not-a-number counts as zero. -/
def nearestWord (width : Nat) (x : Float) : Int :=
  let bits := x.toBits.toNat
  let exponent := bits / twoPow 52 % twoPow 11
  let fraction := bits % twoPow 52
  if exponent = 2047 ∧ fraction ≠ 0 then 0
  else
    let significand := if exponent = 0 then fraction else twoPow 52 + fraction
    let size := nearestNat significand ((max exponent 1 : Nat) - 1075)
    if bits < twoPow 63 then min size ((twoPow (width - 1) : Int) - 1)
    else -(min size (twoPow (width - 1)) : Int)

/-! ## Signed doubles -/

/-- A double whose not-a-number has a sign. -/
inductive SignedDouble where
  | number (x : Float)
  | notANumber (negative : Bool)
deriving Repr, Inhabited

namespace SignedDouble

/-- The result of an operation; one without value is the negative not-a-number. -/
def ofFloat (x : Float) : SignedDouble := if x.isNaN then .notANumber true else .number x

/-- The double without the sign of a not-a-number. -/
def toFloat : SignedDouble → Float
  | .number x => x
  | .notANumber _ => 0.0 / 0.0

/-- The opposite sign. -/
def neg : SignedDouble → SignedDouble
  | .number x => .number (-x)
  | .notANumber negative => .notANumber !negative

/-- The sum; the first operand that is not a number is the sum. -/
def add : SignedDouble → SignedDouble → SignedDouble
  | .number x, .number y => ofFloat (x + y)
  | .number _, .notANumber negative => .notANumber negative
  | .notANumber negative, _ => .notANumber negative

/-- Whether both are numbers and the first one is less. -/
def less : SignedDouble → SignedDouble → Bool
  | .number x, .number y => x < y
  | _, _ => false

/-- A key that ascends with the total order. -/
def key : SignedDouble → Int
  | .number x => totalKey x
  | .notANumber true => -(twoPow 63 : Int) - 1
  | .notANumber false => twoPow 63

/-- The total order, the negative not-a-number first and the positive one last. -/
def order (x y : SignedDouble) : Ordering := compare x.key y.key

end SignedDouble

end Lightpath

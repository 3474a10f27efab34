import Lightpath.Numeric.Double

/-!
# Numerals — reading numbers from text

`natural?` reads an unsigned number and `integer?` a signed one, both in ASCII digits with an
optional sign. `float?` reads a decimal number to the nearest double, with the words for infinity
and not-a-number.
-/

namespace Lightpath.Text

/-- The value of an ASCII digit. -/
def digit? (c : Char) : Option Nat :=
  if '0' ≤ c ∧ c ≤ '9' then some (c.toNat - '0'.toNat) else none

/-- The value of a digit list that continues the number `acc`; `none` at any other character. -/
def digitsFrom (acc : Nat) : List Char → Option Nat
  | [] => some acc
  | c :: rest =>
    match digit? c with
    | some d => digitsFrom (acc * 10 + d) rest
    | none => none

/-- The value of a non-empty list of ASCII digits. -/
def digits? : List Char → Option Nat
  | [] => none
  | cs => digitsFrom 0 cs

/-- One or more ASCII digits after an optional plus sign, with a value below `bound`. -/
def naturalBelow? (bound : Nat) (cs : List Char) : Option Nat :=
  let body := match cs with
    | '+' :: rest => rest
    | cs => cs
  (digits? body).filter (· < bound)

/-- The bound of unsigned numbers of 64 bits. -/
def wordBound : Nat := twoPow 64

/-- An unsigned number of 64 bits. -/
def natural? (s : String) : Option Nat := naturalBelow? wordBound s.toList

/-- A signed number of `bits` bits: ASCII digits after an optional sign. -/
def integer? (bits : Nat) (s : String) : Option Int :=
  match s.toList with
  | '-' :: rest => ((digits? rest).filter (· ≤ twoPow (bits - 1))).map (fun n => -(n : Int))
  | cs => (naturalBelow? (twoPow (bits - 1)) cs).map (fun n => (n : Int))

/-! ## Decimal numbers -/

/-- The double nearest to `digits · 10 ^ exponent`; exponents far outside the range are cut short. -/
def nearestFloat (digits : Nat) (exponent : Int) : Float :=
  if digits = 0 then 0.0
  else
    let size : Int := (toString digits).length
    if exponent + size > 400 then 1.0 / 0.0
    else if exponent + size < -400 then 0.0
    else if exponent < 0 then Float.ofScientific digits true exponent.natAbs
    else Float.ofScientific digits false exponent.natAbs

/-- The exponent part of a decimal number: nothing, or an `e` and a signed digit list. -/
def exponentPart? : List Char → Option Int
  | [] => some 0
  | c :: rest =>
    if c = 'e' ∨ c = 'E' then
      match rest with
      | '-' :: ds => (digits? ds).map (fun n => -(n : Int))
      | '+' :: ds => (digits? ds).map (fun n => (n : Int))
      | ds => (digits? ds).map (fun n => (n : Int))
    else none

/-- An unsigned decimal number: digits with at most one point among or beside them and an optional
exponent. -/
def decimal? (cs : List Char) : Option Float :=
  let whole := cs.takeWhile (fun c => (digit? c).isSome)
  let rest := cs.dropWhile (fun c => (digit? c).isSome)
  let (fraction, rest) := match rest with
    | '.' :: r => (r.takeWhile (fun c => (digit? c).isSome), r.dropWhile (fun c => (digit? c).isSome))
    | r => ([], r)
  match digits? (whole ++ fraction), exponentPart? rest with
  | some n, some e => some (nearestFloat n (e - fraction.length))
  | _, _ => none

/-- A decimal number after an optional sign, or a word for infinity or not-a-number in any case. The
sign also counts for not-a-number. No blanks are allowed around it. -/
def float? (s : String) : Option SignedDouble :=
  let unsigned (cs : List Char) : Option SignedDouble :=
    let word := String.ofList (cs.map Char.toLower)
    if word = "inf" ∨ word = "infinity" then some (.number (1.0 / 0.0))
    else if word = "nan" then some (.notANumber false)
    else (decimal? cs).map .number
  match s.toList with
  | '-' :: rest => (unsigned rest).map SignedDouble.neg
  | '+' :: rest => unsigned rest
  | cs => unsigned cs

end Lightpath.Text

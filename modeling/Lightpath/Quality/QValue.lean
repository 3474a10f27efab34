import Lightpath.Text.Decimal

/-!
# Q-values — signal quality against a threshold

The Q of a signal is a polynomial in its OSNR, given by its coefficients from the highest degree
down.
-/

namespace Lightpath

/-- A Q with the threshold it has to reach, both in dB. -/
structure QValue where
  q : Float
  threshold : Float
deriving Repr, Inhabited, BEq

namespace QValue

/-- How far the Q lies above its threshold. -/
def margin (v : QValue) : Float := v.q - v.threshold

/-- Whether the Q reaches its threshold. -/
def meetsThreshold (v : QValue) : Bool := v.q ≥ v.threshold

/-- The worse of two values; the first one unless the second is lower. -/
def lower (v w : QValue) : QValue := if w.q < v.q then w else v

/-- The written form: Q and margin with three places. -/
def display (v : QValue) : String :=
  "Qvalue=" ++ Text.fixed 3 v.q ++ " Qmargin=" ++ Text.fixed 3 v.margin

/-- The polynomial with the given coefficients, highest degree first, at `osnr`. -/
def polynomial (constants : List Float) (osnr : Float) : Float :=
  constants.foldl (fun acc c => acc * osnr + c) 0.0

end QValue

end Lightpath

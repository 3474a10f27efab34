import Lightpath.Numeric.Double

/-!
# Costs — what a route adds up

The searches work over any type of costs: a zero, an addition, a strict comparison that decides
whether a cost is an improvement, and a total order that decides which cost comes first. Lengths are
doubles, costs written by hand are doubles that may be no number of either sign, and whole numbers
are the exact costs.
-/

namespace Lightpath

/-- The operations on the costs of routes. -/
class Cost (W : Type) where
  zero : W
  add : W → W → W
  /-- Whether the first cost is an improvement on the second. -/
  less : W → W → Bool
  /-- Which of two costs comes first. -/
  order : W → W → Ordering

instance : Cost Float where
  zero := 0.0
  add x y := x + y
  less x y := x < y
  order := totalOrder

instance : Cost SignedDouble where
  zero := .number 0.0
  add := SignedDouble.add
  less := SignedDouble.less
  order := SignedDouble.order

instance : Cost Nat where
  zero := 0
  add x y := x + y
  less x y := x < y
  order := compare

end Lightpath

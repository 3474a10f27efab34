/-!
# Powers of two and of ten

Powers as plain natural numbers, whatever other power operations are in scope.
-/

namespace Lightpath

/-- A power of two. -/
def twoPow (n : Nat) : Nat := Nat.pow 2 n

/-- A power of ten. -/
def tenPow (n : Nat) : Nat := Nat.pow 10 n

theorem twoPow_pos (n : Nat) : 0 < twoPow n := Nat.pow_pos (by decide)

end Lightpath

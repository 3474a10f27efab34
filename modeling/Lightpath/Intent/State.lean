/-!
# Intent states — the life of a request to the network

An intent is asked to be installed, installed, asked to be withdrawn and withdrawn; it may fail.
-/

namespace Lightpath

/-- Where an intent is in its life. -/
inductive IntentState where
  | installRequested
  | installed
  | withdrawRequested
  | withdrawn
  | failed
deriving DecidableEq, Repr, Inhabited

namespace IntentState

/-- The written name of a state. -/
def name : IntentState → String
  | .installRequested => "INSTALL_REQ"
  | .installed => "INSTALLED"
  | .withdrawRequested => "WITHDRAW_REQ"
  | .withdrawn => "WITHDRAWN"
  | .failed => "FAILED"

end IntentState

/-- The key of an intent, which is also the name under which it holds resources. -/
abbrev IntentKey := String

/-- The key of the intent of a group of wavelength paths. -/
def intentKey (group : Nat) : IntentKey := "wavelength-path-" ++ toString group

/-- Different groups have different keys: the number can be read off the key. -/
theorem intentKey_injective {g g' : Nat} (h : intentKey g = intentKey g') : g = g' := by
  have hrepr : Nat.repr g = Nat.repr g' := (String.append_right_inj _).1 h
  have hdigits : Nat.toDigits 10 g = Nat.toDigits 10 g' := by
    rw [← Nat.toList_repr, ← Nat.toList_repr, hrepr]
  rw [← Nat.ofDigitChars_ten_toDigits (n := g), hdigits, Nat.ofDigitChars_ten_toDigits]

end Lightpath

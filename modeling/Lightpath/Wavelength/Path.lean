import Lightpath.Signal.Grid
import Lightpath.Wavelength.Leg

/-!
# Wavelength paths — legs that are reserved at a frequency

A group of wavelength paths is reserved, submitted and removed together.
-/

namespace Lightpath

/-- A reserved leg of a group. -/
structure WavelengthPath where
  id : Nat
  group : Nat
  frequencyId : Int
  /-- The 50 GHz channel of the frequency id. -/
  signal : Signal
  leg : Leg
  label : String
  submitted : Bool
deriving Inhabited

namespace WavelengthPath

/-- Whether a transponder port is one of the two that the path joins. -/
def terminatesAt (p : WavelengthPath) (cp : ConnectPoint) : Bool :=
  p.leg.src == cp || p.leg.dst == cp

/-- The path once it is submitted. -/
def markSubmitted (p : WavelengthPath) : WavelengthPath := { p with submitted := true }

/-- The written form of a path. -/
def display (p : WavelengthPath) : String :=
  "WavelengthPath[id=" ++ toString p.id ++ " group=" ++ toString p.group ++ " " ++
    p.leg.src.display ++ " -> " ++ p.leg.dst.display ++ " freq=" ++ toString p.frequencyId ++ " " ++
    p.leg.mode.display ++ " " ++ p.leg.quality.display ++ " submitted=" ++ toString p.submitted ++ "]"

end WavelengthPath

end Lightpath

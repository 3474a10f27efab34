import Lightpath.Network.Route
import Lightpath.Quality.NoiseModel

/-!
# WDM paths — routes between add/drop ports with their quality
-/

namespace Lightpath

/-- A route between two add/drop ports with the OSNR that it reaches in each mode. The OSNR is derived
data and does not count for the identity of the path. -/
structure WdmPath where
  /-- The add port and the drop port. -/
  ends : Ends
  route : Route
  osnr : OsnrMap
deriving Inhabited

namespace WdmPath

/-- Whether two paths join the same ports over the same route. -/
def same (p q : WdmPath) : Bool := p.ends == q.ends && p.route.same q.route

/-- Whether two paths join the same ports in opposite directions over mirrored routes. -/
def isReverseOf (p q : WdmPath) : Bool :=
  p.ends == q.ends.reversed && p.route.isReverseOf q.route

/-- The written form: the ports and the route. -/
def display (p : WdmPath) : String := "WdmPath " ++ p.ends.display ++ " " ++ p.route.display

end WdmPath

end Lightpath

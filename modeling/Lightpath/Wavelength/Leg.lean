import Lightpath.Network.Route
import Lightpath.Quality.QValue

/-!
# Legs — a way from one transponder to another

A `Leg` enters the network over its ingress edge, follows a route between ROADMs and leaves over its
egress edge. Two legs protect each other (`Leg.isDisjoint`) if no device is passed through by both.
-/

namespace Lightpath

/-- A way from one transponder port to another, with the mode that it carries. -/
structure Leg where
  /-- From the source port to the add port. -/
  ingressEdge : Link
  /-- From the drop port to the destination port. -/
  egressEdge : Link
  route : Route
  mode : Mode
  /-- The lower quality of both directions. -/
  quality : QValue
deriving Inhabited

namespace Leg

/-- The transponder port where the leg starts. -/
def src (l : Leg) : ConnectPoint := l.ingressEdge.src

/-- The ROADM port where the leg enters the route. -/
def addPort (l : Leg) : ConnectPoint := l.ingressEdge.dst

/-- The ROADM port where the leg leaves the route. -/
def dropPort (l : Leg) : ConnectPoint := l.egressEdge.src

/-- The transponder port where the leg ends. -/
def dst (l : Leg) : ConnectPoint := l.egressEdge.dst

/-- The transponder ports that the leg joins. -/
def ends (l : Leg) : Ends := ⟨l.src, l.dst⟩

/-- The four ports at the borders of the leg. -/
def boundary (l : Leg) : List ConnectPoint := [l.src, l.dst, l.addPort, l.dropPort]

/-- Every link from port to port. -/
def links (l : Leg) : List Link := l.ingressEdge :: l.route.links ++ [l.egressEdge]

/-- The devices that the leg passes through between its add and drop devices. -/
def transit (l : Leg) : List DeviceId :=
  (l.route.links.map (fun e => e.dst.device)).filter fun d =>
    d != l.addPort.device && d != l.dropPort.device

/-- Whether no device is passed through by both legs. Two legs without transit devices share their
only link or run beside each other, and do not count as disjoint. -/
def isDisjoint (l m : Leg) : Bool :=
  !(l.transit.isEmpty && m.transit.isEmpty) && l.transit.all (fun d => !m.transit.contains d)

/-- The written form: the ports, the mode and the quality. -/
def display (l : Leg) : String :=
  l.src.display ++ " -> " ++ l.dst.display ++ " " ++ l.mode.display ++ " " ++ l.quality.display

end Leg

end Lightpath

import Lightpath.Network.Topology

/-!
# Staleness — which changes concern the routes of the catalog

The catalog of WDM paths is out of date after a change of an optical line: a link with an OMS or
fiber port at either end, or a removed device that switches or amplifies wavelengths. New devices
have no links yet and concern no route.
-/

namespace Lightpath

/-- Whether either end of a link is at present a port of an optical line. -/
def Topology.isLineLink (t : Topology) (l : Link) : Bool := t.isLinePort l.src || t.isLinePort l.dst

/-- Whether routes run through devices of this kind. -/
def DeviceKind.carriesRoutes : DeviceKind → Bool
  | .roadm | .roadmOtn | .opticalAmplifier => true
  | .terminalDevice | .other => false

/-- Whether a change concerns optical lines, judged by the topology after it. -/
def TopologyEvent.concernsLines (t : Topology) : TopologyEvent → Bool
  | .linkAdded l | .linkUpdated l | .linkRemoved l | .detailChanged l => t.isLineLink l
  | .deviceRemoved d => d.kind.carriesRoutes
  | .deviceAdded _ => false

/-- Whether a catalog is out of date after further events; once out of date it stays so. -/
def Topology.outdates (t : Topology) (stale : Bool) (events : List TopologyEvent) : Bool :=
  stale || events.any (TopologyEvent.concernsLines t)

end Lightpath

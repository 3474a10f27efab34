import Lightpath.Routing.Ranked
import Lightpath.Wdm.Path

/-!
# Planning — the WDM paths that a catalog should hold

Up to `k` shortest routes are planned between every two devices with add/drop ports. Every route serves
each pair of their ports in both directions, the way back over the mirrored route, as long as no more than
`k` routes serve the pair. The OSNR of all routes is computed at once, by whatever method is handed in.
-/

namespace Lightpath

/-- The add/drop ports by device. -/
abbrev PortMap := SortedMap DeviceId (List ConnectPoint)

/-- A route with the port pairs that it joins. -/
structure PlannedRoute where
  route : Route
  joins : List Ends

/-- How the OSNR of routes is computed: one map per route, in their order. -/
abbrev OsnrMethod := List Route → Except Failure (List OsnrMap)

namespace Planner

/-- The add/drop ports of every device that has any. -/
def portMap (t : Topology) : PortMap :=
  (t.deviceMap.map Device.addDropPorts).filter (fun _ ports => !ports.isEmpty)

/-- The ports from which paths start or where they end: one add/drop port, or all of them. -/
def portsFor (t : Topology) (all : PortMap) : Option ConnectPoint → Except Failure PortMap
  | none => .ok all
  | some cp =>
    if (t.device? cp.device).any (fun d => d.isAddDropPort cp.port) then
      .ok (SortedMap.empty.insert cp.device [cp])
    else .error (.notAddDropPort cp)

/-- The pairs of devices between which routes are planned. Of a pair and its opposite only the one
that comes first is planned. -/
def devicePairs (sources sinks : PortMap) : List (DeviceId × DeviceId) :=
  sources.keys.flatMap fun a =>
    (sinks.keys.filter fun b =>
      a != b && !(sources.contains b && sinks.contains a && compare b a == .lt)).map fun b => (a, b)

/-- Every pair of a port of one list and a port of another. -/
def portPairs (sources sinks : List ConnectPoint) : List Ends :=
  sources.flatMap fun a => sinks.map fun b => ⟨a, b⟩

/-- The routes between the devices of two port maps, shortest first for each device pair. -/
def plan (t : Topology) (weigh : Weigher Float) (k : Nat) (sources sinks : PortMap) :
    List PlannedRoute :=
  (devicePairs sources sinks).flatMap fun pair =>
    let joins := portPairs ((sources.find? pair.1).getD []) ((sinks.find? pair.2).getD [])
    (t.rankedRoutes weigh pair.1 pair.2 k).map fun r => ⟨r, joins⟩

/-- How often port pairs that are served join the ports of a pair, in either direction. -/
def timesServed (served : List Ends) (e : Ends) : Nat :=
  (served.filter fun x => x == e || x == e.reversed).length

/-- Those of some port pairs that are not served `k` times before. -/
def underCap (k : Nat) (served : List Ends) : List Ends → List Ends
  | [] => []
  | e :: rest =>
    if timesServed served e < k then e :: underCap k (served ++ [e]) rest
    else underCap k served rest

/-- Planned routes of which no more than `k` serve the same port pair. -/
def capped (k : Nat) (served : List Ends) : List PlannedRoute → List PlannedRoute
  | [] => []
  | p :: plan =>
    let joins := underCap k served p.joins
    ⟨p.route, joins⟩ :: capped k (served ++ joins) plan

/-- Every planned route followed by its mirror. -/
def bothWays (plan : List PlannedRoute) : List Route :=
  plan.flatMap fun p => [p.route, p.route.reverse]

/-- The WDM paths of the planned routes, given the OSNR of each route and of its mirror. -/
def assemble : List PlannedRoute → List OsnrMap → List WdmPath
  | p :: plan, forth :: back :: osnr =>
    (p.joins.flatMap fun e => [⟨e, p.route, forth⟩, ⟨e.reversed, p.route.reverse, back⟩]) ++
      assemble plan osnr
  | _, _ => []

/-- The WDM paths of the planned routes. The method is not asked when there are none. -/
def evaluate (method : OsnrMethod) (plan : List PlannedRoute) : Except Failure (List WdmPath) :=
  if plan.isEmpty then .ok []
  else
    let routes := bothWays plan
    match method routes with
    | .error f => .error f
    | .ok osnr =>
      if osnr.length = routes.length then .ok (assemble plan osnr)
      else .error (.badOsnrCount routes.length osnr.length)

/-- The routes to plan for a topology, from one add/drop port or all, to one or all. -/
def planned (t : Topology) (weigh : Weigher Float) (k : Nat) (ingress egress : Option ConnectPoint) :
    Except Failure (List PlannedRoute) :=
  if t.devices.isEmpty then .error .noDevices
  else
    let all := portMap t
    if all.isEmpty then .error .noAddDropPorts
    else
      match portsFor t all ingress with
      | .error f => .error f
      | .ok sources =>
        match portsFor t all egress with
        | .error f => .error f
        | .ok sinks => .ok (capped k [] (plan t weigh k sources sinks))

end Planner

end Lightpath

import Lightpath.Network.Route
import Lightpath.Resource.Ledger
import Lightpath.Signal.FrequencyId

/-!
# Spectrum along a route — which channels are free on every hop

Only hops on ports that carry spectrum count. A channel can be offered on a route if all its slots
are free on each of these hops and its frequency id is positive.
-/

namespace Lightpath

/-- The hops of a route on ports that carry spectrum. -/
def Topology.lambdaHops (t : Topology) (r : Route) : List ConnectPoint :=
  r.hops.filter t.carriesLambdas

/-- The slots of a signal on every hop of a route that carries spectrum. -/
def Topology.lambdaResources (t : Topology) (r : Route) (s : Signal) : List Resource :=
  (t.lambdaHops r).flatMap fun cp => s.flexSlots.map fun slot => .lambda cp slot

/-- The slots that are free on each of several ports; none if there is no port. -/
def Ledger.commonLambdas (l : Ledger) : List ConnectPoint → SortedSet Signal
  | [] => ∅
  | cp :: rest =>
    rest.foldl (fun common cp => common.inter (l.availableLambdas cp)) (l.availableLambdas cp)

/-- The channels made of the given slots by their frequency ids; ids below 1 are left out. -/
def FrequencyPlan.offered (plan : FrequencyPlan) (slots : SortedSet Signal) : SortedMap Int Signal :=
  SortedMap.ofList ((Signal.channelsOf slots.toList .ghz50).filterMap fun s =>
    match plan.channelId s with
    | .ok id => if id > 0 then some (id, s) else none
    | .error _ => none)

end Lightpath

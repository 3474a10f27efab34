import Lightpath.Network.Route
import Lightpath.Routing.Shortest

/-!
# Ranked routes — the cheapest loop-free routes in order

`Graph.ranked` finds up to `k` routes between two devices, cheapest first. After each route it looks
for detours: for every position of the route it keeps the links up to there, closes the links that
the found routes with the same beginning take next and the devices already visited, and searches on
to the destination. New detours wait among the candidates; the cheapest candidate, the first among
equals, is the next route.
-/

namespace Lightpath

variable {W : Type} [Cost W]

/-- The cheapest candidate, the first among equals, and the others in their order. -/
def takeCheapest : List (Weighted W) → Option (Weighted W × List (Weighted W))
  | [] => none
  | c :: rest =>
    match takeCheapest rest with
    | none => some (c, [])
    | some (best, others) =>
      if Cost.order best.cost c.cost = .lt then some (best, c :: others) else some (c, rest)

namespace Graph

/-- What a detour at position `i` after the links `root` must not use: the next links of the found
routes that begin with `root`, and the devices visited before. -/
def closedAt (found : List (Weighted W)) (root : List Link) (i : Nat) : Closed :=
  ⟨found.filterMap fun f => if f.links.take i = root then (f.links[i]?).map Link.ends else none,
    root.map (fun l => l.src.device)⟩

/-- The detour that leaves a route at position `i`, if there is one. -/
def detour? (g : Graph W) (dst : DeviceId) (found : List (Weighted W)) (previous : List Link)
    (i : Nat) : Option (Weighted W) :=
  let root := previous.take i
  match previous[i]? with
  | none => none
  | some l =>
    (g.shortest? (closedAt found root i) l.src.device dst).map fun spur =>
      ⟨root ++ spur.links, Cost.add (g.costOfAll root) spur.cost⟩

/-- Whether a list of links is among those found. -/
def isKnown (links : List Link) (l : List (Weighted W)) : Bool := l.any (fun f => f.links == links)

/-- Adds the detour at position `i` to the candidates unless it is known. -/
def addDetour (g : Graph W) (dst : DeviceId) (found : List (Weighted W)) (previous : List Link)
    (candidates : List (Weighted W)) (i : Nat) : List (Weighted W) :=
  match g.detour? dst found previous i with
  | none => candidates
  | some c =>
    if isKnown c.links found || isKnown c.links candidates then candidates else candidates ++ [c]

/-- Finds up to `more` further routes after those found. -/
def rankedFrom (g : Graph W) (dst : DeviceId) :
    Nat → List (Weighted W) → List (Weighted W) → List (Weighted W)
  | 0, found, _ => found
  | more + 1, found, candidates =>
    match found.getLast? with
    | none => found
    | some previous =>
      let candidates := (List.range previous.links.length).foldl
        (g.addDetour dst found previous.links) candidates
      match takeCheapest candidates with
      | none => found
      | some (best, others) => rankedFrom g dst more (found ++ [best]) others

/-- Up to `k` loop-free routes between two devices, cheapest first. A device has no route to
itself. -/
def ranked (g : Graph W) (src dst : DeviceId) (k : Nat) : List (Weighted W) :=
  if k = 0 ∨ src = dst then []
  else
    match g.shortest? ⟨[], []⟩ src dst with
    | none => []
    | some first => g.rankedFrom dst (k - 1) [first] []

end Graph

/-- Up to `k` loop-free routes of a topology between two devices, cheapest first; `weight` is the
weight of a route with a given cost. -/
def Topology.rankedRoutesBy (t : Topology) (weigh : Weigher W) (weight : W → Float)
    (src dst : DeviceId) (k : Nat) : List Route :=
  ((Graph.ofLinks weigh t.links).ranked src dst k).filterMap fun f =>
    (Route.ofLinks f.links (weight f.cost)).toOption

/-- Up to `k` loop-free routes of a topology between two devices, shortest first. -/
def Topology.rankedRoutes (t : Topology) (weigh : Weigher Float) (src dst : DeviceId) (k : Nat) :
    List Route :=
  t.rankedRoutesBy weigh id src dst k

end Lightpath

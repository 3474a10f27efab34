import Lightpath.Network.Detail
import Lightpath.Network.Topology
import Lightpath.Routing.Cost

/-!
# Weighted graphs — the links that a search may use

A `Graph` lists the viable links of a topology with their costs, in the order of the links. A
weigher decides which links are viable; `fiberKm` takes the active line links that have a length.
-/

namespace Lightpath

/-- The cost of a link; `none` for a link that no route may use. -/
abbrev Weigher (W : Type) := Link → Option W

/-- The links of a search with their costs. -/
structure Graph (W : Type) where
  edges : List (Link × W)

namespace Graph

variable {W : Type}

/-- The graph of the links that a weigher accepts. -/
def ofLinks (weigh : Weigher W) (links : List Link) : Graph W :=
  ⟨links.filterMap fun l => (weigh l).map fun w => (l, w)⟩

/-- The edges that leave a device, in the order of the links. -/
def leaving (g : Graph W) (id : DeviceId) : List (Link × W) :=
  g.edges.filter (fun e => e.1.src.device == id)

/-- The cost of a link; zero for a link that is no edge. -/
def costOf [Cost W] (g : Graph W) (l : Link) : W :=
  match g.edges.find? (fun e => e.1.ends == l.ends) with
  | some e => e.2
  | none => Cost.zero

/-- The costs of a list of links, added up from the first one on. -/
def costOfAll [Cost W] (g : Graph W) (links : List Link) : W :=
  links.foldl (fun sum l => Cost.add sum (g.costOf l)) Cost.zero

end Graph

/-- The length in km of an active link between two line ports; links without length are no part of
any route. -/
def fiberKm (t : Topology) (d : LinkDetails) : Weigher Float := fun l =>
  if l.isActive && t.isLinePort l.src && t.isLinePort l.dst then
    let km := d.totalKm l.ends
    if km ≤ 0.0 then none else some km
  else none

/-- The number in an annotation of a link. -/
def annotated (name : String) : Weigher SignedDouble := fun l =>
  (l.annotations.find? name).bind Text.float?

end Lightpath

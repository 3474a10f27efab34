import Lightpath.Json.Value
import Lightpath.Network.Document
import Lightpath.Wavelength.Candidate
import Lightpath.Wavelength.Path
import Lightpath.Wdm.Path

/-!
# Documents for operators — candidates and paths as document trees

Lists of records keep the order of their fields. A summary names its members in the order of their
names, on every level (`Json.ordered`).
-/

namespace Lightpath

namespace Json

mutual

/-- A tree with the members of every object in the order of their names. -/
def ordered : Json → Json
  | .arr items => .arr (orderedItems items)
  | .obj members => .obj (SortedMap.ofList (orderedMembers members)).entries
  | j => j

/-- `ordered` for the items of an array. -/
def orderedItems : List Json → List Json
  | [] => []
  | j :: rest => ordered j :: orderedItems rest

/-- `ordered` for the values of members. -/
def orderedMembers : List (String × Json) → List (String × Json)
  | [] => []
  | (name, j) :: rest => (name, ordered j) :: orderedMembers rest

end

end Json

namespace Record

/-- The ends of a link. -/
def link (l : Link) : Json := .obj [("src", l.src.toJson), ("dst", l.dst.toJson)]

/-- The ends of links. -/
def links (l : List Link) : Json := .arr (l.map link)

/-- A channel with its frequency id. -/
def frequency (e : Int × Signal) : Json :=
  .obj [("id", .int e.1), ("centerFrequency", Json.ofFloat e.2.centerThz)]

/-- An offer. -/
def offer (o : Offer) : Json :=
  .obj [("ingress", o.leg.src.toJson), ("egress", o.leg.dst.toJson),
    ("qValue", Json.ofFloat o.leg.quality.q), ("qMargin", Json.ofFloat o.leg.quality.margin),
    ("rate", .str o.leg.mode.rate.name), ("modulationFormat", .str o.leg.mode.modulation.name),
    ("links", links o.leg.links), ("availableFrequencies", .arr (o.signals.entries.map frequency))]

/-- A candidate with its number, counted from 1. -/
def candidate (i : Nat) (c : Candidate) : Json :=
  .obj [("index", Json.ofNat (i + 1)), ("paths", .arr (c.offers.map offer))]

/-- Candidates, numbered from 1. -/
def candidates (l : List Candidate) : Json := .arr (l.mapIdx candidate)

/-- A stored path. -/
def wavelengthPath (detail : Bool) (p : WavelengthPath) : Json :=
  Json.ofFields [("id", some (Json.ofNat p.id)), ("submitId", some (Json.ofNat p.group)),
    ("name", some (.str p.label)), ("ingress", some p.leg.src.toJson),
    ("egress", some p.leg.dst.toJson), ("frequencyId", some (.int p.frequencyId)),
    ("centerFrequency", some (Json.ofFloat p.signal.centerThz)),
    ("rate", some (.str p.leg.mode.rate.name)),
    ("modulationFormat", some (.str p.leg.mode.modulation.name)),
    ("qValue", some (Json.ofFloat p.leg.quality.q)),
    ("qMargin", some (Json.ofFloat p.leg.quality.margin)), ("submitted", some (.bool p.submitted)),
    ("links", if detail then some (links p.leg.links) else none)]

/-- Stored paths. -/
def wavelengthPaths (detail : Bool) (l : List WavelengthPath) : Json :=
  .arr (l.map (wavelengthPath detail))

/-- A WDM path with its number. -/
def wdmPath (detail : Bool) (p : Nat × WdmPath) : Json :=
  let osnr : SortedMap String Float :=
    SortedMap.ofList (p.2.osnr.entries.map fun e => (e.1.display, e.2))
  Json.ofFields [("index", some (Json.ofNat p.1)), ("ingress", some p.2.ends.src.toJson),
    ("egress", some p.2.ends.dst.toJson), ("weight", some (Json.ofFloat p.2.route.weight)),
    ("osnr", some (.obj (osnr.entries.map fun e => (e.1, Json.ofFloat e.2)))),
    ("links", if detail then some (links p.2.route.links) else none)]

/-- WDM paths with their numbers. -/
def wdmPaths (detail : Bool) (l : List (Nat × WdmPath)) : Json := .arr (l.map (wdmPath detail))

/-- The size of a change of the catalog. -/
def change (added removed : Nat) : Json :=
  .obj [("added", Json.ofNat added), ("removed", Json.ofNat removed)]

/-- A group with its paths. -/
def group (id : Nat) (detail : Bool) (paths : List WavelengthPath) : Json :=
  Json.ordered (.obj [("submitId", Json.ofNat id), ("paths", wavelengthPaths detail paths)])

/-- What was done to the network. -/
def status (message : String) (stale : Bool) : Json :=
  .obj [("message", .str message), ("recomputationNeeded", .bool stale)]

end Record

end Lightpath

import Lightpath.Collection.Repeat
import Lightpath.Collection.SortedSet
import Lightpath.Failure
import Lightpath.Network.Document

/-!
# Devices — the nodes of the network and their ports

A `Device` has ports with pairwise different numbers, which is part of the type. Devices that end
wavelength paths tell which modes they can transmit.
-/

namespace Lightpath

/-- The rates and modulations that a transponder can transmit, in any combination. -/
structure Capability where
  rates : SortedSet Rate
  modulations : SortedSet Modulation
deriving DecidableEq, Repr, Inhabited

/-- Whether a transponder can transmit in a mode. -/
def Capability.supports (c : Capability) (m : Mode) : Bool :=
  c.rates.contains m.rate && c.modulations.contains m.modulation

/-- A node of the network. -/
structure Device where
  id : DeviceId
  kind : DeviceKind
  manufacturer : String
  ports : List PortEntry
  capability : Option Capability
  /-- No port number occurs twice. -/
  ports_nodup : (ports.map PortEntry.number).Nodup
deriving DecidableEq, Repr

namespace Device

instance : Inhabited Device := ⟨⟨"", .other, "", [], none, .nil⟩⟩

/-- The device of a document record. -/
def ofEntry (e : DeviceEntry) : Except Failure Device :=
  if e.id.isEmpty then .error .deviceWithoutId
  else
    match h : firstRepeat? (e.ports.map PortEntry.number) with
    | some number => .error (.repeatedPortNumber number e.id)
    | none =>
      .ok ⟨e.id, e.kind, e.manufacturer, e.ports,
        e.capability.map fun c => ⟨SortedSet.ofList c.rates, SortedSet.ofList c.modulations⟩,
        firstRepeat?_eq_none_iff.1 h⟩

/-- The document record of a device. -/
def toEntry (d : Device) : DeviceEntry :=
  ⟨d.id, d.kind, d.manufacturer, d.ports,
    d.capability.map fun c => ⟨c.rates.toList, c.modulations.toList⟩⟩

/-- The port with a number. -/
def port? (d : Device) (number : Nat) : Option PortEntry :=
  d.ports.find? (fun p => p.number == number)

/-- Whether a port is an OMS add/drop port. -/
def isAddDropEntry (p : PortEntry) : Bool := p.kind == .oms && p.role == .addDrop

/-- The OMS add/drop ports of a ROADM in their listed order; other devices have none. -/
def addDropPorts (d : Device) : List ConnectPoint :=
  if d.kind.isRoadm then (d.ports.filter isAddDropEntry).map (fun p => ⟨d.id, p.number⟩) else []

/-- Whether a port of a ROADM is an OMS add/drop port. -/
def isAddDropPort (d : Device) (number : Nat) : Bool :=
  d.kind.isRoadm && (d.port? number).any isAddDropEntry

/-- Whether a port carries spectrum that can be allocated: an OMS port of a ROADM. -/
def carriesLambdas (d : Device) (number : Nat) : Bool :=
  d.kind.isRoadm && (d.port? number).any (fun p => p.kind == .oms)

end Device

end Lightpath

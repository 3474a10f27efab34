import Lightpath.Network.Device

/-!
# Topology — the devices and links that exist at present

A `Topology` is built from a network document (`Topology.ofDocument`), which has to list every port
that a link ends at, and changes one device or link at a time. A change reports what happened as
`TopologyEvent`s.
-/

namespace Lightpath

/-- What happened to the network. -/
inductive TopologyEvent where
  | deviceAdded (device : Device)
  | deviceRemoved (device : Device)
  | linkAdded (link : Link)
  | linkUpdated (link : Link)
  | linkRemoved (link : Link)
  /-- The physical details of a link changed. -/
  | detailChanged (link : Link)
deriving DecidableEq, Repr

/-- The devices by id and the links by their ends. -/
structure Topology where
  deviceMap : SortedMap DeviceId Device
  linkMap : SortedMap Ends Link
  /-- Every device stands under its own id. -/
  devices_keyed : deviceMap.Keyed Device.id
  /-- Every link stands under its own ends. -/
  links_keyed : linkMap.Keyed Link.ends
deriving DecidableEq, Repr

namespace Topology

/-- The topology without devices. -/
def empty : Topology := ⟨∅, ∅, .empty, .empty⟩

instance : EmptyCollection Topology := ⟨empty⟩

instance : Inhabited Topology := ⟨empty⟩

/-! ## Looking up -/

/-- The devices in the order of their ids. -/
def devices (t : Topology) : List Device := t.deviceMap.values

/-- The device with an id. -/
def device? (t : Topology) (id : DeviceId) : Option Device := t.deviceMap.find? id

/-- The port at a connect point. -/
def port? (t : Topology) (cp : ConnectPoint) : Option PortEntry :=
  (t.device? cp.device).bind (fun d => d.port? cp.port)

/-- The links in the order of their ends. -/
def links (t : Topology) : List Link := t.linkMap.values

/-- The link between two ends. -/
def link? (t : Topology) (ends : Ends) : Option Link := t.linkMap.find? ends

/-- The links that start at a connect point. -/
def egressLinks (t : Topology) (cp : ConnectPoint) : List Link :=
  t.links.filter (fun l => l.src == cp)

/-- The links that end at a connect point. -/
def ingressLinks (t : Topology) (cp : ConnectPoint) : List Link :=
  t.links.filter (fun l => l.dst == cp)

/-- Whether the port at a connect point carries spectrum that can be allocated. -/
def carriesLambdas (t : Topology) (cp : ConnectPoint) : Bool :=
  (t.device? cp.device).any (fun d => d.carriesLambdas cp.port)

/-- Whether the port at a connect point ends an optical line. -/
def isLinePort (t : Topology) (cp : ConnectPoint) : Bool :=
  (t.port? cp).any (fun p => p.kind.isLine)

/-! ## Changing -/

/-- Adds a device, or replaces the one with its id. -/
def addDevice (t : Topology) (d : Device) : Topology :=
  { t with
    deviceMap := t.deviceMap.insert d.id d
    devices_keyed := t.devices_keyed.insert rfl }

/-- Adds a link, or replaces the one with its ends. -/
def addLink (t : Topology) (l : Link) : Topology :=
  { t with linkMap := t.linkMap.insert l.ends l, links_keyed := t.links_keyed.insert rfl }

/-- Sets the state of a link. -/
def setLinkState (t : Topology) (ends : Ends) (state : LinkState) :
    Except Failure (Topology × TopologyEvent) :=
  match t.link? ends with
  | none => .error (.unknownLink ends)
  | some l =>
    let l := { l with state := state }
    .ok (t.addLink l, .linkUpdated l)

/-- Removes a link. -/
def removeLink (t : Topology) (ends : Ends) : Except Failure (Topology × TopologyEvent) :=
  match t.link? ends with
  | none => .error (.unknownLink ends)
  | some l =>
    .ok ({ t with linkMap := t.linkMap.erase ends, links_keyed := t.links_keyed.erase ends },
      .linkRemoved l)

/-- Whether a link starts or ends on a device. -/
def isAttached (id : DeviceId) (ends : Ends) : Bool :=
  ends.src.device == id || ends.dst.device == id

/-- Removes a device with every link attached to it. The links are reported before the device. -/
def removeDevice (t : Topology) (id : DeviceId) :
    Except Failure (Topology × List TopologyEvent) :=
  match t.device? id with
  | none => .error (.unknownDevice id)
  | some d =>
    let attached := (t.linkMap.filter (fun ends _ => isAttached id ends)).values
    .ok (⟨t.deviceMap.erase id, t.linkMap.filter (fun ends _ => !isAttached id ends),
        t.devices_keyed.erase id, t.links_keyed.filter _⟩,
      attached.map .linkRemoved ++ [.deviceRemoved d])

/-! ## Documents -/

/-- The links that a document record stands for: the link and, if bidirectional, its mirror. -/
def linksOfEntry (e : LinkEntry) : List Link :=
  if e.bidirectional then [e.link, e.link.reversed] else [e.link]

/-- Adds the device of a document record. -/
def addDeviceEntry (t : Topology) (e : DeviceEntry) : Except Failure Topology :=
  match Device.ofEntry e with
  | .error f => .error f
  | .ok d => if (t.device? d.id).isSome then .error (.repeatedDevice d.id) else .ok (t.addDevice d)

/-- Adds a link whose ends have to be known ports. -/
def addKnownLink (t : Topology) (l : Link) : Except Failure Topology :=
  match [l.src, l.dst].find? (fun cp => (t.port? cp).isNone) with
  | some cp => .error (.unknownLinkPort l.ends cp)
  | none => .ok (t.addLink l)

/-- The topology of a network document. -/
def ofDocument (n : NetworkDocument) : Except Failure Topology :=
  match n.devices.foldlM addDeviceEntry ∅ with
  | .error f => .error f
  | .ok t => (n.links.flatMap linksOfEntry).foldlM addKnownLink t

/-- The document of a topology, without physical details and spectrum. -/
def toDocument (t : Topology) : NetworkDocument :=
  ⟨t.devices.map Device.toEntry, t.links.map (fun l => ⟨l, false⟩), [], none⟩

end Topology

end Lightpath

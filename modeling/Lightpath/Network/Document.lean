import Lightpath.Json.Decode
import Lightpath.Network.Link
import Lightpath.Signal.Grid
import Lightpath.Signal.Mode

/-!
# Network documents — the form in which a network is described

A `NetworkDocument` lists devices, links, the physical details of links and the spectrum of the
ports. Reading (`NetworkDocument.ofJson?`) fills in the defaults of missing fields; writing
(`NetworkDocument.toJson`) leaves out fields that have no content.
-/

namespace Lightpath

/-- What a device is. -/
inductive DeviceKind where
  | roadm
  | roadmOtn
  | opticalAmplifier
  | terminalDevice
  | other
deriving DecidableEq, Repr, Inhabited

/-- What a port carries. -/
inductive PortKind where
  | oms
  | och
  | fiber
  | other
deriving DecidableEq, Repr, Inhabited

/-- What a port is for. -/
inductive PortRole where
  | line
  | addDrop
  | client
deriving DecidableEq, Repr, Inhabited

namespace DeviceKind

/-- The name of a device kind in documents. -/
def name : DeviceKind → String
  | .roadm => "ROADM"
  | .roadmOtn => "ROADM_OTN"
  | .opticalAmplifier => "OPTICAL_AMPLIFIER"
  | .terminalDevice => "TERMINAL_DEVICE"
  | .other => "OTHER"

/-- The device kind of a name in documents. -/
def named? (s : String) : Option DeviceKind :=
  [roadm, roadmOtn, opticalAmplifier, terminalDevice, other].find? (fun x => x.name == s)

theorem named?_name (x : DeviceKind) : named? x.name = some x := by cases x <;> rfl

/-- Whether a device switches wavelengths. -/
def isRoadm (k : DeviceKind) : Bool := k == .roadm || k == .roadmOtn

end DeviceKind

namespace PortKind

/-- The name of a port kind in documents. -/
def name : PortKind → String
  | .oms => "OMS"
  | .och => "OCH"
  | .fiber => "FIBER"
  | .other => "OTHER"

/-- The port kind of a name in documents. -/
def named? (s : String) : Option PortKind := [oms, och, fiber, other].find? (fun x => x.name == s)

theorem named?_name (x : PortKind) : named? x.name = some x := by cases x <;> rfl

/-- Whether a port of this kind ends an optical line. -/
def isLine (k : PortKind) : Bool := k == .oms || k == .fiber

end PortKind

namespace PortRole

/-- The name of a port role in documents. -/
def name : PortRole → String
  | .line => "LINE"
  | .addDrop => "ADD_DROP"
  | .client => "CLIENT"

/-- The port role of a name in documents. -/
def named? (s : String) : Option PortRole := [line, addDrop, client].find? (fun x => x.name == s)

theorem named?_name (x : PortRole) : named? x.name = some x := by cases x <;> rfl

end PortRole

/-! ## The parts of a document -/

/-- A port as a document lists it. -/
structure PortEntry where
  number : Nat
  name : Option String
  kind : PortKind
  role : PortRole
  enabled : Bool
deriving DecidableEq, Repr, Inhabited

/-- The modes of a transponder as a document lists them. -/
structure CapabilityEntry where
  rates : List Rate
  modulations : List Modulation
deriving DecidableEq, Repr, Inhabited

/-- A device as a document lists it. -/
structure DeviceEntry where
  id : DeviceId
  kind : DeviceKind
  manufacturer : String
  ports : List PortEntry
  capability : Option CapabilityEntry
deriving DecidableEq, Repr, Inhabited

/-- A link as a document lists it; a bidirectional entry also stands for the mirror of the link. -/
structure LinkEntry where
  link : Link
  bidirectional : Bool
deriving DecidableEq, Repr, Inhabited

/-- One physical element between the ends of a link. -/
inductive SectionElement where
  /-- An amplifier with its gain in dB. -/
  | amp (type : String) (gain : Float)
  /-- A fiber with its loss in dB and its length in metres. -/
  | span (type : String) (loss length : Float)
  /-- The fiber behind a closing amplifier, into which it sends the pre-amplifier power. -/
  | preAmpFiber
deriving Repr, Inhabited

/-- The elements of a link as a document lists them; a bidirectional entry also describes the
opposite link, in reverse order. -/
structure DetailEntry where
  ends : Ends
  elements : List SectionElement
  bidirectional : Bool
deriving Repr, Inhabited

/-- The range of centre frequencies, in THz, that ports carry. -/
structure Spectrum where
  lowest : Float
  highest : Float
deriving Repr

instance : Inhabited Spectrum := ⟨⟨191.35, 196.1⟩⟩

/-- A network with its physical details. -/
structure NetworkDocument where
  devices : List DeviceEntry
  links : List LinkEntry
  details : List DetailEntry
  spectrum : Option Spectrum
deriving Repr, Inhabited

/-! ## Reading -/

/-- The connect point of a text value. -/
def ConnectPoint.ofJson? (j : Json) : Option ConnectPoint := j.text?.bind ConnectPoint.read?

/-- The port of a document record. -/
def PortEntry.ofJson? (j : Json) : Option PortEntry :=
  match j.fields? ["number", "name", "type", "role", "enabled"] with
  | some [number, name, kind, role, enabled] => do
    let number ← Json.required? Json.natural? number
    let name ← Json.optional? Json.text? name
    let kind ← Json.required? (Json.oneOf? PortKind.named?) kind
    let role ← Json.defaulted? .line (Json.oneOf? PortRole.named?) role
    let enabled ← Json.defaulted? true Json.bool? enabled
    pure ⟨number, name, kind, role, enabled⟩
  | _ => none

/-- The modes of a document record. -/
def CapabilityEntry.ofJson? (j : Json) : Option CapabilityEntry :=
  match j.fields? ["rates", "modulationFormats"] with
  | some [rates, modulations] => do
    let rates ← Json.defaulted? [] (Json.list? (Json.oneOf? Rate.named?)) rates
    let modulations ← Json.defaulted? [] (Json.list? (Json.oneOf? Modulation.named?)) modulations
    pure ⟨rates, modulations⟩
  | _ => none

/-- The device of a document record. -/
def DeviceEntry.ofJson? (j : Json) : Option DeviceEntry :=
  match j.fields? ["id", "type", "manufacturer", "ports", "capability"] with
  | some [id, kind, manufacturer, ports, capability] => do
    let id ← Json.required? Json.text? id
    let kind ← Json.required? (Json.oneOf? DeviceKind.named?) kind
    let manufacturer ← Json.defaulted? "" Json.text? manufacturer
    let ports ← Json.defaulted? [] (Json.list? PortEntry.ofJson?) ports
    let capability ← Json.optional? CapabilityEntry.ofJson? capability
    pure ⟨id, kind, manufacturer, ports, capability⟩
  | _ => none

/-- Free annotations; the last value of a repeated name counts. -/
def annotationsOfJson? (j : Json) : Option (SortedMap String String) :=
  (j.entries? some Json.text?).map SortedMap.ofList

/-- The link of a document record. -/
def LinkEntry.ofJson? (j : Json) : Option LinkEntry :=
  match j.fields? ["src", "dst", "type", "state", "annotations", "bidirectional"] with
  | some [src, dst, kind, state, annotations, bidirectional] => do
    let src ← Json.required? ConnectPoint.ofJson? src
    let dst ← Json.required? ConnectPoint.ofJson? dst
    let kind ← Json.defaulted? .optical (Json.oneOf? LinkKind.named?) kind
    let state ← Json.defaulted? .active (Json.oneOf? LinkState.named?) state
    let annotations ← Json.defaulted? ∅ annotationsOfJson? annotations
    let bidirectional ← Json.defaulted? false Json.bool? bidirectional
    pure ⟨⟨src, dst, kind, state, annotations⟩, bidirectional⟩
  | _ => none

/-- The element that a tag and the other fields of its record describe. The pre-amplifier fiber has
no fields: an array must stop at its tag, while the members of an object are skipped. -/
def SectionElement.ofTagged? (tag : String) (fields : Json) : Option SectionElement :=
  if tag == "amp" then
    match fields.fields? ["ampType", "gain"] with
    | some [type, gain] => do
      let type ← Json.required? Json.text? type
      let gain ← Json.required? Json.float? gain
      pure (.amp type gain)
    | _ => none
  else if tag == "span" then
    match fields.fields? ["fiberType", "spanLoss", "srlgLength"] with
    | some [type, loss, length] => do
      let type ← Json.required? Json.text? type
      let loss ← Json.required? Json.float? loss
      let length ← Json.required? Json.float? length
      pure (.span type loss length)
    | _ => none
  else if tag == "preAmpFiber" then
    match fields with
    | .arr (_ :: _) => none
    | _ => some .preAmpFiber
  else none

/-- The element of a document record, which is read as a whole tree; `above` is the number of
arrays and objects around it, which count towards the depth of the document. Its field `type` tells
the kind of element; in a record written as an array it comes first. -/
def SectionElement.ofJson? (above : Nat) (j : Json) : Option SectionElement :=
  if !j.fits (Json.depthLimit - above) then none
  else
    match j with
    | .obj members =>
      match Json.soleMember? "type" members with
      | some (some (.str tag)) =>
        SectionElement.ofTagged? tag (.obj (members.filter (fun m => m.1 != "type")))
      | _ => none
    | .arr (.str tag :: rest) => SectionElement.ofTagged? tag (.arr rest)
    | _ => none

/-- The elements of a document that lists nothing else. -/
def SectionElement.listOfJson? : Json → Option (List SectionElement) :=
  Json.list? (SectionElement.ofJson? 1)

/-- The detail of a document record. It stands in the list of details of a network, so that the
network, the two lists and the record itself are around each of its elements. -/
def DetailEntry.ofJson? (j : Json) : Option DetailEntry :=
  match j.fields? ["src", "dst", "elements", "bidirectional"] with
  | some [src, dst, elements, bidirectional] => do
    let src ← Json.required? ConnectPoint.ofJson? src
    let dst ← Json.required? ConnectPoint.ofJson? dst
    let elements ← Json.required? (Json.list? (SectionElement.ofJson? 4)) elements
    let bidirectional ← Json.defaulted? false Json.bool? bidirectional
    pure ⟨⟨src, dst⟩, elements, bidirectional⟩
  | _ => none

/-- The spectrum of a document record. -/
def Spectrum.ofJson? (j : Json) : Option Spectrum :=
  match j.fields? ["lowestFrequencyTHz", "highestFrequencyTHz"] with
  | some [lowest, highest] => do
    let lowest ← Json.required? Json.float? lowest
    let highest ← Json.required? Json.float? highest
    pure ⟨lowest, highest⟩
  | _ => none

/-- The network of a document tree. -/
def NetworkDocument.ofJson? (j : Json) : Option NetworkDocument :=
  match j.fields? ["devices", "links", "linkDetails", "spectrum"] with
  | some [devices, links, details, spectrum] => do
    let devices ← Json.required? (Json.list? DeviceEntry.ofJson?) devices
    let links ← Json.defaulted? [] (Json.list? LinkEntry.ofJson?) links
    let details ← Json.defaulted? [] (Json.list? DetailEntry.ofJson?) details
    let spectrum ← Json.optional? Spectrum.ofJson? spectrum
    pure ⟨devices, links, details, spectrum⟩
  | _ => none

/-- The signal of a document tree. -/
def Signal.ofJson? (j : Json) : Option Signal :=
  match j.fields? ["gridType", "channelSpacing", "spacingMultiplier", "slotGranularity"] with
  | some [grid, spacing, multiplier, granularity] => do
    let grid ← Json.required? (Json.oneOf? GridKind.named?) grid
    let spacing ← Json.required? (Json.oneOf? Spacing.named?) spacing
    let multiplier ← Json.required? Json.integer32? multiplier
    let granularity ← Json.required? Json.integer32? granularity
    pure ⟨grid, spacing, multiplier, granularity⟩
  | _ => none

/-! ## Writing -/

/-- An array without content is left out. -/
def unlessEmpty (items : List Json) : Option Json :=
  if items.isEmpty then none else some (.arr items)

/-- A flag is only written when set. -/
def whenSet (b : Bool) : Option Json := if b then some (.bool true) else none

/-- The written form of a connect point. -/
def ConnectPoint.toJson (cp : ConnectPoint) : Json := .str cp.display

/-- The record of a port. -/
def PortEntry.toJson (p : PortEntry) : Json :=
  Json.ofFields [("number", some (Json.ofNat p.number)), ("name", p.name.map .str),
    ("type", some (.str p.kind.name)), ("role", some (.str p.role.name)),
    ("enabled", some (.bool p.enabled))]

/-- The record of the modes of a transponder. -/
def CapabilityEntry.toJson (c : CapabilityEntry) : Json :=
  .obj [("rates", .arr (c.rates.map (fun r => .str r.name))),
    ("modulationFormats", .arr (c.modulations.map (fun m => .str m.name)))]

/-- The record of a device. -/
def DeviceEntry.toJson (d : DeviceEntry) : Json :=
  Json.ofFields [("id", some (.str d.id)), ("type", some (.str d.kind.name)),
    ("manufacturer", some (.str d.manufacturer)), ("ports", some (.arr (d.ports.map PortEntry.toJson))),
    ("capability", d.capability.map CapabilityEntry.toJson)]

/-- The record of a link. -/
def LinkEntry.toJson (e : LinkEntry) : Json :=
  Json.ofFields [("src", some e.link.src.toJson), ("dst", some e.link.dst.toJson),
    ("type", some (.str e.link.kind.name)), ("state", some (.str e.link.state.name)),
    ("annotations", if e.link.annotations.isEmpty then none
      else some (.obj (e.link.annotations.entries.map (fun a => (a.1, .str a.2))))),
    ("bidirectional", whenSet e.bidirectional)]

/-- The record of a section element. -/
def SectionElement.toJson : SectionElement → Json
  | .amp type gain =>
    .obj [("type", .str "amp"), ("ampType", .str type), ("gain", Json.ofFloat gain)]
  | .span type loss length =>
    .obj [("type", .str "span"), ("fiberType", .str type), ("spanLoss", Json.ofFloat loss),
      ("srlgLength", Json.ofFloat length)]
  | .preAmpFiber => .obj [("type", .str "preAmpFiber")]

/-- The record of the details of a link. -/
def DetailEntry.toJson (d : DetailEntry) : Json :=
  Json.ofFields [("src", some d.ends.src.toJson), ("dst", some d.ends.dst.toJson),
    ("elements", some (.arr (d.elements.map SectionElement.toJson))),
    ("bidirectional", whenSet d.bidirectional)]

/-- The record of a spectrum. -/
def Spectrum.toJson (s : Spectrum) : Json :=
  .obj [("lowestFrequencyTHz", Json.ofFloat s.lowest),
    ("highestFrequencyTHz", Json.ofFloat s.highest)]

/-- The document tree of a network. -/
def NetworkDocument.toJson (n : NetworkDocument) : Json :=
  Json.ofFields [("devices", some (.arr (n.devices.map DeviceEntry.toJson))),
    ("links", some (.arr (n.links.map LinkEntry.toJson))),
    ("linkDetails", unlessEmpty (n.details.map DetailEntry.toJson)),
    ("spectrum", n.spectrum.map Spectrum.toJson)]

/-- The document tree of a signal. -/
def Signal.toJson (s : Signal) : Json :=
  .obj [("gridType", .str s.grid.name), ("channelSpacing", .str s.spacing.name),
    ("spacingMultiplier", .int s.multiplier), ("slotGranularity", .int s.granularity)]

end Lightpath

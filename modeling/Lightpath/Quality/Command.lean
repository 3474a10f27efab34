import Lightpath.Json.Reader
import Lightpath.Machine
import Lightpath.Network.Detail
import Lightpath.Network.Route
import Lightpath.Network.Topology
import Lightpath.Quality.NoiseModel

/-!
# The quality command — OSNR of routes from an external tool

A tool is asked by three documents: the network, the routes as services `path-1`, `path-2`, … and the
parameters (`QualityRequest`). It is started on a machine with the names of the three and prints a
document with the OSNR of every service by mode, which `readAnswer` maps back to the routes.
-/

namespace Lightpath

/-! ## The question -/

/-- What a tool is asked. -/
structure QualityRequest where
  network : NetworkDocument
  routes : List Route
  modes : List Mode
  quality : QualitySettings

/-- The name of the service of the route at a position, counted from 1. -/
def serviceName (i : Nat) : String := "path-" ++ toString (i + 1)

namespace QualityRequest

/-- The names of the three documents, in the order in which a tool gets them. -/
def fileNames : List String := ["network.json", "services.json", "parameters.json"]

/-- The record of a link of a service. -/
def hopRecord (l : Link) : Json :=
  let name := l.src.display ++ "-" ++ l.dst.display
  .obj [("id", .str name), ("hop-type", .str "node-external"), ("physical-link-name", .str name),
    ("resource-type", .str "physical-link")]

/-- The record of a service. -/
def serviceRecord (i : Nat) (r : Route) : Json :=
  .obj [("service-name", .str (serviceName i)), ("connection-type", .str "roadm-line"),
    ("lifecycle-state", .str "planned"), ("service-layer", .str "wdm"),
    ("topology", .obj [("aToZ", .arr (r.links.map hopRecord))])]

/-- The document of the services. -/
def services (q : QualityRequest) : Json :=
  .obj [("services", .arr (q.routes.mapIdx serviceRecord))]

/-- The document of the parameters. -/
def parameters (r : QualityRequest) : Json :=
  let q := r.quality
  .obj [("noiseFigures", q.noiseFigures.toJson), ("Aeff", q.effectiveArea.toJson),
    ("N2", q.nonlinearIndex.toJson), ("CD", q.dispersion.toJson), ("Pout", q.launchPower.toJson),
    ("preAmpPout", Json.ofFloat q.preAmpPower),
    ("planckConstant", Json.ofFloat q.planckConstant), ("SoL", Json.ofFloat q.speedOfLight),
    ("deltaF", Json.ofFloat q.noiseBandwidth), ("userFrequency", Json.ofFloat q.userFrequency),
    ("rateModFormatPattern", .arr (r.modes.map (fun m => .str m.display))),
    ("osnrQConstantsMap", QualitySettings.qConstantsToJson q.qConstants),
    ("qThresholdMap", QualitySettings.qThresholdsToJson q.qThresholds)]

/-- The three documents with their names. -/
def files (q : QualityRequest) : List (String × Json) :=
  fileNames.zip [q.network.toJson, q.services, q.parameters]

end QualityRequest

/-! ## The command -/

/-- What the command of the settings prints on a machine, blanks around it removed. It is started in the
working directory with the names of the documents, which were written there before. -/
def QualityRequest.run (q : QualityRequest) (machine : Machine) : Except Failure String :=
  match Text.words q.quality.command with
  | [] => .error .emptyCommand
  | program :: arguments =>
    match machine.start q.quality.workingDirectory q.files program (arguments ++ fileNames) with
    | .error fault =>
      .error (.commandNotStarted (String.intercalate " " (q.quality.command :: fileNames)) fault)
    | .ok r =>
      if r.exitCode = 0 then .ok (Text.trim r.output)
      else .error (.commandFailed r.exitCode.toNat)

/-! ## The answer -/

/-- The OSNR by mode in the record of a service: numbers under keys that name an asked mode. Of
several keys that name the same mode the last one in the order of texts counts. -/
def serviceOsnr (modes : List Mode) (record : List (String × Json)) : OsnrMap :=
  SortedMap.ofList ((SortedMap.ofList record).entries.filterMap fun e =>
    match Mode.read? e.1, e.2.float? with
    | some m, some osnr => if m ∈ modes then some (m, osnr) else none
    | _, _ => none)

/-- The OSNR of the route at a position according to the services of an answer. -/
def routeAnswer (modes : List Mode) (services : List (String × Json)) (i : Nat) : OsnrMap :=
  match Json.lastMember? (serviceName i) services with
  | some (.obj record) => serviceOsnr modes record
  | _ => SortedMap.empty

/-- The OSNR of `count` routes according to the printed answer of a tool. -/
def readAnswer (output : String) (count : Nat) (modes : List Mode) : Except Failure (List OsnrMap) :=
  match Json.load? output with
  | none => .error .answerMalformed
  | some root =>
    match root.member? "services" with
    | some (.obj services) => .ok ((List.range count).map (routeAnswer modes services))
    | _ => .error .answerWithoutServices

/-! ## Either method -/

/-- The request to a tool for the OSNR of routes; there is none for the internal method, and none
without devices. -/
def qualityRequest? (q : QualitySettings) (t : Topology) (d : LinkDetails) (routes : List Route)
    (modes : List Mode) : Option QualityRequest :=
  match q.qualityMethod with
  | .internal => none
  | .external =>
    if t.devices.isEmpty then none
    else some ⟨{ t.toDocument with details := d.toEntries }, routes, modes, q⟩

/-- The OSNR of routes by the method of the settings, one map per route in their order. -/
def evaluateRoutes (machine : Machine) (q : QualitySettings) (t : Topology) (d : LinkDetails)
    (routes : List Route) (modes : List Mode) : Except Failure (List OsnrMap) :=
  match q.qualityMethod with
  | .internal => .ok (routes.map (NoiseModel.routeOsnr q d modes))
  | .external =>
    if !machine.canHold q.workingDirectory then .error .fileUnreadable
    else
      match qualityRequest? q t d routes modes with
      | none => .error .noNetworkModel
      | some request =>
        match request.run machine with
        | .error f => .error f
        | .ok output => readAnswer output routes.length modes

end Lightpath

import Lightpath.Optimizer.Basic
import Lightpath.Wavelength.Assignment
import Lightpath.Wdm.Planner

/-!
# Planning — computing the catalog and the candidates

The catalog of WDM paths is computed as a whole or for some ports. Candidates are planned from the
catalog, which has to be up to date unless planning is forced.
-/

namespace Lightpath

namespace Optimizer

/-! ## WDM paths -/

/-- The length of a link as it counts for routes at present. -/
def weigher (o : Optimizer) : Weigher Float := fiberKm o.topology o.details

/-- The routes that a computation of the catalog plans. -/
def plannedRoutes (o : Optimizer) (ingress egress : Option ConnectPoint) :
    Except Failure (List PlannedRoute) :=
  Planner.planned o.topology o.weigher o.settings.k ingress egress

/-- The method of the settings. -/
def osnrMethod (o : Optimizer) : OsnrMethod := fun routes =>
  evaluateRoutes o.machine o.settings.quality o.topology o.details routes o.settings.quality.modes

/-- What a computation of the catalog asks the external tool, if it asks at all. -/
def requestFor? (o : Optimizer) (ingress egress : Option ConnectPoint) : Option QualityRequest :=
  match o.plannedRoutes ingress egress with
  | .error _ => none
  | .ok [] => none
  | .ok plan =>
    qualityRequest? o.settings.quality o.topology o.details (Planner.bothWays plan)
      o.settings.quality.modes

/-- Computes the part of the catalog that starts or ends at the given ports, or all of it, by a given
method. -/
def calculateWdmPathsBy (method : OsnrMethod) (o : Optimizer)
    (ingress egress : Option ConnectPoint) : Outcome CatalogChange :=
  match o.plannedRoutes ingress egress with
  | .error f => ⟨o, .error f⟩
  | .ok plan =>
    match Planner.evaluate method plan with
    | .error f => ⟨o, .error f⟩
    | .ok paths =>
      let (catalog, change) := o.catalog.replace ingress egress paths
      ⟨{ o with catalog, stale := false }, .ok change⟩

/-- Computes the part of the catalog that starts or ends at the given ports, or all of it. -/
def calculateWdmPaths (o : Optimizer) (ingress egress : Option ConnectPoint) :
    Outcome CatalogChange :=
  o.calculateWdmPathsBy o.osnrMethod ingress egress

/-! ## Candidates -/

/-- What candidates are computed from at present. -/
def outlook (o : Optimizer) : Outlook :=
  ⟨o.topology, o.ledger, o.catalog, o.settings.quality, o.frequencies⟩

/-- Whether a port is an OCH port of a transponder. -/
def checkOchPort (o : Optimizer) (cp : ConnectPoint) : Except Failure Unit :=
  match o.topology.device? cp.device with
  | none => .error (.portDeviceMissing cp)
  | some d =>
    match d.port? cp.port with
    | none => .error (.portMissing cp)
    | some p => if d.kind.isRoadm || p.kind != .och then .error (.notOchPort cp) else .ok ()

/-- Whether ports are pairwise different OCH ports of transponders, `seen` being those met before. -/
def checkEndPorts (o : Optimizer) (seen : List ConnectPoint) : List ConnectPoint →
    Except Failure Unit
  | [] => .ok ()
  | cp :: rest =>
    match o.checkOchPort cp with
    | .error f => .error f
    | .ok () => if cp ∈ seen then .error .repeatedPort else o.checkEndPorts (cp :: seen) rest

/-- Plans candidates for one or two pairs of transponder ports and keeps them. The catalog has to be
up to date unless `force` is set. A failing computation leaves no candidates. -/
def calculateWavelengthPaths (o : Optimizer) (pairs : List Ends) (force : Bool) :
    Outcome (List Candidate) :=
  match o.checkEndPorts [] (pairs.flatMap fun e => [e.src, e.dst]) with
  | .error f => ⟨o, .error f⟩
  | .ok () =>
    if !force && o.stale then ⟨o, .error .staleCatalog⟩
    else
      match o.outlook.candidates pairs with
      | .error f => ⟨{ o with candidates := [] }, .error f⟩
      | .ok candidates => ⟨{ o with candidates, stale := false }, .ok candidates⟩

end Optimizer

end Lightpath

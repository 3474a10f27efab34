import Lightpath.Proofs.Optimizer.Pairing
import Lightpath.Proofs.Wdm.Recalculation

/-!
# Recalculation — restricted calculations on an unchanged network

After the whole catalog was calculated, and with the network as it was then, a restricted calculation
always succeeds and exchanges the paths of its scope. They are the same paths as before exactly if the
searches that it turns around find the mirrored routes (`restricted_calculation_same_iff`). Over a
one-way line they find nothing, and the restricted calculation loses the paths
(`one_way_restricted_calculation_loses_paths`).
-/

namespace Lightpath

/-- An outcome that is a success has a result. -/
theorem Outcome.exists_eq_of_isOk {α : Type} {x : Outcome α} (h : x.result.isOk = true) :
    ∃ a, x = ⟨x.optimizer, .ok a⟩ := by
  obtain ⟨o, result⟩ := x
  cases result with
  | ok a => exact ⟨a, rfl⟩
  | error f => cases h

/-- The ports to which a turn restricts a calculation of the catalog; `none` for any other turn. -/
def Turn.scope? : Turn → Option (Option ConnectPoint × Option ConnectPoint)
  | .call c => c.scope?
  | .network _ _ => none

namespace Optimizer

variable {o full start : Optimizer} {ingress egress : Option ConnectPoint}

/-- Turns that calculate nothing leave the catalog and the settings as they are. -/
theorem afterTurns_of_scope?_eq_none {turns : List Turn} (h : ∀ x ∈ turns, x.scope? = none)
    (o : Optimizer) :
    (o.afterTurns turns).catalog = o.catalog ∧ (o.afterTurns turns).settings = o.settings := by
  induction turns generalizing o with
  | nil => exact ⟨rfl, rfl⟩
  | cons x rest ih =>
    obtain ⟨hcatalog, hsettings⟩ := ih (fun y hy => h y (List.mem_cons_of_mem _ hy)) (x.run o)
    have hx : (x.run o).catalog = o.catalog ∧ (x.run o).settings = o.settings := by
      cases x with
      | network t d => exact ⟨rfl, rfl⟩
      | call c => exact run_of_scope?_eq_none (h _ List.mem_cons_self) o
    exact ⟨hcatalog.trans hx.1, hsettings.trans hx.2⟩

/-- The internal method always gives an OSNR for every route. -/
theorem evaluate_internal (hmethod : o.settings.quality.qualityMethod = .internal)
    (plan : List PlannedRoute) :
    ∃ osnr, osnr.length = (Planner.bothWays plan).length ∧
      Planner.evaluate o.osnrMethod plan = .ok (Planner.assemble plan osnr) := by
  cases plan with
  | nil => exact ⟨[], rfl, rfl⟩
  | cons q rest =>
    generalize hosnr : (Planner.bothWays (q :: rest)).map
      (NoiseModel.routeOsnr o.settings.quality o.details o.settings.quality.modes) = osnr
    have hlength : osnr.length = (Planner.bothWays (q :: rest)).length := by
      rw [← hosnr, List.length_map]
    have hevaluated : o.osnrMethod (Planner.bothWays (q :: rest)) = .ok osnr := by
      rw [← hosnr, osnrMethod, evaluateRoutes, hmethod]
    refine ⟨osnr, hlength, ?_⟩
    simp [Planner.evaluate, hevaluated, hlength]

/-- With the internal method a calculation of a plan puts its paths in the place of those within the
scope. -/
theorem calculateWdmPaths_internal (hmethod : o.settings.quality.qualityMethod = .internal)
    {plan : List PlannedRoute} (hplan : o.plannedRoutes ingress egress = .ok plan) :
    ∃ paths, (∀ p : WdmPath, p.isAmong paths = true ↔
        Planner.Gives o.topology o.weigher o.settings.k ingress egress p) ∧
      (∀ p ∈ paths, p.inScope ingress egress = true) ∧
      o.calculateWdmPaths ingress egress =
        ⟨{ o with catalog := (o.catalog.replace ingress egress paths).1, stale := false },
          .ok (o.catalog.replace ingress egress paths).2⟩ := by
  obtain ⟨osnr, hlength, hevaluate⟩ := evaluate_internal hmethod plan
  refine ⟨Planner.assemble plan osnr, fun p => Planner.isAmong_assemble_iff hplan hlength,
    fun p hp => Planner.inScope_of_mem_assemble hplan hp, ?_⟩
  simp only [calculateWdmPaths, calculateWdmPathsBy, hplan, hevaluate]

/-- Where a calculation of everything succeeds, one restricted to add/drop ports has a plan. -/
theorem exists_plannedRoutes {plan : List PlannedRoute} (hall : o.plannedRoutes none none = .ok plan)
    (hingress : ingress.all o.topology.isAddDropPort = true)
    (hegress : egress.all o.topology.isAddDropPort = true) :
    ∃ plan, o.plannedRoutes ingress egress = .ok plan := by
  obtain ⟨hdevices, hports, -⟩ := Planner.planned_eq_ok_iff.1 hall
  have hportsFor {given : Option ConnectPoint} (hgiven : given.all o.topology.isAddDropPort = true) :
      ∃ ports, Planner.portsFor o.topology (Planner.portMap o.topology) given = .ok ports := by
    cases given with
    | none => exact ⟨_, rfl⟩
    | some cp => exact ⟨_, Planner.portsFor_some_eq_ok.2 ⟨hgiven, rfl⟩⟩
  obtain ⟨sources, hsources⟩ := hportsFor hingress
  obtain ⟨sinks, hsinks⟩ := hportsFor hegress
  exact ⟨_, Planner.planned_eq_ok_iff.2 ⟨hdevices, hports, sources, sinks, hsources, hsinks, rfl⟩⟩

/-- The catalog holds what a calculation of everything would give at present. -/
structure HoldsEverything (o : Optimizer) : Prop where
  coherent : o.catalog.Coherent
  plan : ∃ plan, o.plannedRoutes none none = .ok plan
  paths : ∀ p : WdmPath, p.isAmong o.catalog.toList = true ↔
    Planner.Gives o.topology o.weigher o.settings.k none none p

/-- A successful calculation of everything leaves a catalog that holds everything. -/
theorem holdsEverything_of_calculateWdmPaths (hcoherent : o.catalog.Coherent)
    (hmethod : o.settings.quality.qualityMethod = .internal) {change : CatalogChange}
    (h : o.calculateWdmPaths none none = ⟨full, .ok change⟩) :
    full.HoldsEverything ∧ full.settings = o.settings := by
  cases hplan : o.plannedRoutes none none with
  | error f =>
    simp only [calculateWdmPaths, calculateWdmPathsBy, hplan] at h
    cases h
  | ok plan =>
    obtain ⟨paths, hpaths, -, hrun⟩ := calculateWdmPaths_internal hmethod hplan
    cases hrun.symm.trans h
    obtain ⟨hcoherent', hlist⟩ := hcoherent.replace_all paths
    refine ⟨⟨hcoherent', ⟨plan, hplan⟩, fun p => ?_⟩, rfl⟩
    rw [hlist]
    exact hpaths p

/-- What the catalog holds is a matter of the catalog, the settings and the network. -/
theorem HoldsEverything.congr (h : full.HoldsEverything) (hcatalog : o.catalog = full.catalog)
    (hsettings : o.settings = full.settings) (htopology : o.topology = full.topology)
    (hdetails : o.details = full.details) : o.HoldsEverything := by
  have hweigher : o.weigher = full.weigher := by rw [weigher, weigher, htopology, hdetails]
  constructor
  case coherent => exact hcatalog ▸ h.coherent
  case plan =>
    rw [plannedRoutes, htopology, hweigher, hsettings]
    exact h.plan
  case paths =>
    rw [hcatalog, htopology, hweigher, hsettings]
    exact h.paths

/-- A restricted calculation of an optimizer that holds everything succeeds, exchanges the paths within
its scope, and leaves the same paths exactly if the searches that it turns around mirror. -/
theorem HoldsEverything.restricted (h : o.HoldsEverything)
    (hmethod : o.settings.quality.qualityMethod = .internal)
    (hgiven : ingress ≠ none ∨ egress ≠ none)
    (hingress : ingress.all o.topology.isAddDropPort = true)
    (hegress : egress.all o.topology.isAddDropPort = true) :
    ∃ o' change, o.calculateWdmPaths ingress egress = ⟨o', .ok change⟩ ∧
      o'.catalog.toList =
        (o.catalog.toList.filter fun p => !p.inScope ingress egress) ++ change.added ∧
      change.removed.Perm (o.catalog.toList.filter fun p => p.inScope ingress egress) ∧
      (SamePaths o'.catalog.toList o.catalog.toList ↔
        Planner.TurnedSearchesMirror o.topology o.weigher o.settings.k ingress egress) ∧
      (SamePaths change.added change.removed ↔
        Planner.TurnedSearchesMirror o.topology o.weigher o.settings.k ingress egress) := by
  obtain ⟨all, hall⟩ := h.plan
  obtain ⟨plan, hplan⟩ := exists_plannedRoutes hall hingress hegress
  obtain ⟨paths, hpaths, hinside, hrun⟩ := calculateWdmPaths_internal hmethod hplan
  have hlist := (h.coherent.replace ingress egress paths).2
  have hremoved := h.coherent.removed_perm ingress egress paths
  have hagain : (∀ p : WdmPath, p.isAmong paths = true ↔
      p.isAmong o.catalog.toList = true ∧ p.inScope ingress egress = true) ↔
      Planner.TurnedSearchesMirror o.topology o.weigher o.settings.k ingress egress := by
    simp only [hpaths, h.paths]
    exact Planner.gives_again_iff hgiven
  refine ⟨_, _, hrun, hlist, hremoved, ?_, ?_⟩
  · rw [← hagain]
    exact hlist ▸ samePaths_exchanged_iff hinside
  · rw [← hagain]
    exact samePaths_removed_iff hremoved

/-- After the whole catalog was calculated, and with the network as it was then, a calculation
restricted to add/drop ports succeeds and exchanges the paths within its scope. The catalog holds the
same paths as before, and the same paths are added and removed, exactly if every search that starts
from the other device than before finds the mirrored routes. -/
theorem restricted_calculation_same_iff (hempty : start.catalog = {})
    (hmethod : start.settings.quality.qualityMethod = .internal) (turns between : List Turn)
    {change : CatalogChange}
    (hfull : (start.afterTurns turns).calculateWdmPaths none none = ⟨full, .ok change⟩)
    (hbetween : ∀ x ∈ between, x.scope? = none) (ho : full.afterTurns between = o)
    (htopology : o.topology = full.topology) (hdetails : o.details = full.details)
    (hgiven : ingress ≠ none ∨ egress ≠ none)
    (hingress : ingress.all o.topology.isAddDropPort = true)
    (hegress : egress.all o.topology.isAddDropPort = true) :
    ∃ o' change', o.calculateWdmPaths ingress egress = ⟨o', .ok change'⟩ ∧
      o'.catalog.toList =
        (o.catalog.toList.filter fun p => !p.inScope ingress egress) ++ change'.added ∧
      change'.removed.Perm (o.catalog.toList.filter fun p => p.inScope ingress egress) ∧
      (SamePaths o'.catalog.toList o.catalog.toList ↔
        Planner.TurnedSearchesMirror o.topology o.weigher o.settings.k ingress egress) ∧
      (SamePaths change'.added change'.removed ↔
        Planner.TurnedSearchesMirror o.topology o.weigher o.settings.k ingress egress) := by
  have hprovides : Provides start turns := provides hempty turns
  rw [← hprovides.settings] at hmethod
  obtain ⟨hholds, hsettings⟩ :=
    holdsEverything_of_calculateWdmPaths hprovides.paired.coherent hmethod hfull
  obtain ⟨hcatalog, hkept⟩ := afterTurns_of_scope?_eq_none hbetween full
  rw [ho] at hcatalog hkept
  have hsame : o.settings = (start.afterTurns turns).settings := hkept.trans hsettings
  exact (hholds.congr hcatalog hkept htopology hdetails).restricted (hsame ▸ hmethod) hgiven
    hingress hegress

/-- An optimizer with the internal method and one route for each device pair. -/
def sampleInternal (n : NetworkDocument) : Optimizer :=
  match ofNetwork n
      { sampleSettings with
        k := 1, quality := { sampleSettings.quality with method := QualitySettings.internalName } }
      default true with
  | .ok o => o
  | .error _ => default

/-- The calculation of its whole catalog. -/
def sampleFull (n : NetworkDocument) : Outcome CatalogChange :=
  (sampleInternal n).calculateWdmPaths none none

/-- The network goes away, a call fails, and the network comes back. -/
def sampleInterruption (o : Optimizer) : List Turn :=
  [.network ∅ {}, .call (.removeDevice "A"), .network o.topology o.details]

/-- Over a two-way line the search from the second switch finds the mirrored route, and the eight paths
of the catalog stay the same. -/
theorem restricted_calculation_same_iff_sample :
    ∃ full change o' change', sampleFull sampleNetwork = ⟨full, .ok change⟩ ∧
      (full.afterTurns (sampleInterruption full)).calculateWdmPaths (some ⟨"B", 2⟩) none =
        ⟨o', .ok change'⟩ ∧
      SamePaths o'.catalog.toList full.catalog.toList ∧ full.catalog.toList.length = 8 ∧
      Planner.TurnedSearchesMirror full.topology full.weigher full.settings.k (some ⟨"B", 2⟩) none := by
  obtain ⟨change, hfull⟩ : ∃ change,
      sampleFull sampleNetwork = ⟨(sampleFull sampleNetwork).optimizer, .ok change⟩ :=
    Outcome.exists_eq_of_isOk (by decide +kernel)
  have hempty : (sampleInternal sampleNetwork).catalog = {} := rfl
  have hbetween : ∀ x ∈ sampleInterruption (sampleFull sampleNetwork).optimizer, x.scope? = none := by
    simp [sampleInterruption, Turn.scope?, Call.scope?]
  have hgiven : some (⟨"B", 2⟩ : ConnectPoint) ≠ none ∨ (none : Option ConnectPoint) ≠ none :=
    .inl (Option.some_ne_none _)
  have hport : (some ⟨"B", 2⟩).all
      (sampleFull sampleNetwork).optimizer.topology.isAddDropPort = true := by decide +kernel
  obtain ⟨o', change', hrun, -, -, hsame, -⟩ := restricted_calculation_same_iff hempty
    (by decide +kernel) [] _ hfull hbetween rfl rfl rfl hgiven hport rfl
  have hpaths : SamePaths o'.catalog.toList (sampleFull sampleNetwork).optimizer.catalog.toList := by
    rw [← show _ = o' from congrArg Outcome.optimizer hrun]
    decide +kernel
  exact ⟨_, change, o', change', hfull, hrun, hpaths, by decide +kernel, hsame.1 hpaths⟩

/-- Two switches with one add/drop port each, and a line that leads one way. -/
def sampleOneWayNetwork : NetworkDocument where
  devices :=
    [⟨"A", .roadm, "R", [⟨1, none, .oms, .line, true⟩, ⟨2, none, .oms, .addDrop, true⟩], none⟩,
      ⟨"B", .roadm, "R", [⟨1, none, .oms, .line, true⟩, ⟨2, none, .oms, .addDrop, true⟩], none⟩]
  links := [⟨.between ⟨"A", 1⟩ ⟨"B", 1⟩, false⟩]
  details := [⟨⟨⟨"A", 1⟩, ⟨"B", 1⟩⟩,
    [.amp "HighGainAmp" 20.0, .span "smf" 16.0 80000.0, .amp "HighGainAmp" 16.0], false⟩]
  spectrum := none

/-- The calculation of what starts at the port of the second switch, right after that of everything. -/
def sampleRestricted (n : NetworkDocument) : Outcome CatalogChange :=
  (sampleFull n).optimizer.calculateWdmPaths (some ⟨"B", 2⟩) none

/-- Over a line that leads one way the calculation of everything gives a path in each direction, and
the restricted one takes both away although nothing has changed. -/
theorem one_way_restricted_calculation_loses_paths :
    (sampleInternal sampleOneWayNetwork).settings.quality.qualityMethod = .internal ∧
      (sampleFull sampleOneWayNetwork).result.toOption.map
        (fun change => (change.added.length, change.removed.length)) = some (2, 0) ∧
      (sampleFull sampleOneWayNetwork).optimizer.topology.isAddDropPort ⟨"B", 2⟩ = true ∧
      (sampleRestricted sampleOneWayNetwork).result.toOption.map
        (fun change => (change.added.length, change.removed.length)) = some (0, 2) ∧
      ¬ SamePaths (sampleRestricted sampleOneWayNetwork).optimizer.catalog.toList
        (sampleFull sampleOneWayNetwork).optimizer.catalog.toList := by
  decide +kernel

end Optimizer

end Lightpath

import Lightpath.Proofs.Optimizer.Recalculation
import Lightpath.Proofs.Wdm.Layout

/-!
# The whole catalog — what a calculation of everything leaves

A calculation of everything asks for the OSNR of all its routes at once (`Optimizer.askedRoutes`) and
succeeds exactly if there is one answer for each of them. The catalog then lists, for each pair of
add/drop ports on two devices, the ranked routes in their order and, the other way, their mirrors, each
with the OSNR that was given for that very route (`whole_catalog_calculated`).
-/

namespace Lightpath

namespace Catalog

/-- The catalog lists for every two add/drop ports the ranked routes between their devices, and the
mirrors of these for the opposite direction, each with its own OSNR. It lists nothing else. The routes
are searched from the device that comes first. -/
structure ListsRanked (t : Topology) (weigh : Weigher Float) (k : Nat) (osnr : Route → OsnrMap)
    (c : Catalog) : Prop where
  forth : ∀ p q, t.isAddDropPort p = true → t.isAddDropPort q = true →
    compare p.device q.device = .lt →
    c.getPaths (some p) (some q) =
      (t.rankedRoutes weigh p.device q.device k).map fun r => ⟨⟨p, q⟩, r, osnr r⟩
  back : ∀ p q, t.isAddDropPort p = true → t.isAddDropPort q = true →
    compare p.device q.device = .lt →
    c.getPaths (some q) (some p) =
      (t.rankedRoutes weigh p.device q.device k).map fun r => ⟨⟨q, p⟩, r.reverse, osnr r.reverse⟩
  nothingElse : ∀ x ∈ c.toList, ∃ p q, t.isAddDropPort p = true ∧ t.isAddDropPort q = true ∧
    compare p.device q.device = .lt ∧ (x.ends = ⟨p, q⟩ ∨ x.ends = ⟨q, p⟩)
  /-- What is listed for two ports are the entries between them, each as often as it is there. -/
  lookup : ∀ p q, c.getPaths (some p) (some q) = c.toList.filter fun x => x.ends == ⟨p, q⟩

end Catalog

namespace Planner

variable {t : Topology} {weigh : Weigher Float} {k : Nat} {plan : List PlannedRoute}

/-- Without given ports the routes between two devices are searched from the one that comes first. -/
theorem searches_all_iff {e : Ends} : Searches t none none e ↔
    t.isAddDropPort e.src = true ∧ t.isAddDropPort e.dst = true ∧
      compare e.src.device e.dst.device = .lt := by
  constructor
  · intro h
    refine ⟨h.add, h.drop, ?_⟩
    cases hcompare : compare e.src.device e.dst.device with
    | lt => rfl
    | eq => exact absurd (Std.LawfulEqOrd.eq_of_compare hcompare) h.apart
    | gt => exact absurd (Std.OrientedCmp.lt_of_gt hcompare) (h.first rfl rfl)
  · rintro ⟨hadd, hdrop, hlt⟩
    refine ⟨hadd, hdrop, rfl, rfl, ?_, ?_⟩
    · intro heq
      have hself : compare e.dst.device e.dst.device = .eq := Std.ReflCmp.compare_self
      rw [heq, hself] at hlt
      cases hlt
    · intro _ _ hback
      rw [Std.OrientedCmp.gt_of_lt hback] at hlt
      cases hlt

/-- Where there is an add/drop port, everything can be planned. -/
theorem exists_planned_all {cp : ConnectPoint} (hcp : t.isAddDropPort cp = true) :
    ∃ plan, planned t weigh k none none = .ok plan := by
  obtain ⟨d, hd, hport⟩ := (Option.any_eq_true ..).1 hcp
  have hdevice : d ∈ t.devices := SortedMap.mem_values_iff.2 ⟨cp.device, hd⟩
  have hlisted : cp ∈ d.addDropPorts :=
    mem_addDropPorts.2 ⟨(t.devices_keyed.of_find? hd).symm, hport⟩
  have hports : (cp.device, d.addDropPorts) ∈ (portMap t).entries :=
    SortedMap.mem_entries_of_find? (find?_portMap.2 ⟨d, hd, rfl, List.ne_nil_of_mem hlisted⟩)
  refine ⟨_, planned_eq_ok_iff.2 ⟨?_, ?_, portMap t, portMap t, rfl, rfl, rfl⟩⟩
  · exact List.isEmpty_eq_false_iff.2 (List.ne_nil_of_mem hdevice)
  · exact List.isEmpty_eq_false_iff.2 (List.ne_nil_of_mem hports)

/-- A catalog that holds just the paths of such a plan lists the ranked routes. -/
theorem listsRanked_of_toList_eq (h : planned t weigh k none none = .ok plan) {c : Catalog}
    (hcoherent : c.Coherent) {osnr : Route → OsnrMap}
    (hlist : c.toList = assemble plan ((bothWays plan).map osnr)) :
    c.ListsRanked t weigh k osnr := by
  have hlookup (p q : ConnectPoint) :
      c.getPaths (some p) (some q) = c.toList.filter fun x => x.ends == ⟨p, q⟩ := by
    rw [hcoherent.getPaths_eq]
    refine List.filter_congr fun x _ => ?_
    show (x.ends.src == p && x.ends.dst == q) = (x.ends == ⟨p, q⟩)
    rw [Bool.eq_iff_iff, Bool.and_eq_true, beq_iff_eq, beq_iff_eq, beq_iff_eq, ← Ends.mk.injEq]
  constructor
  case forth =>
    intro p q hp hq hlt
    rw [hlookup, hlist]
    exact filter_forth_assemble (e := ⟨p, q⟩) h (searches_all_iff.2 ⟨hp, hq, hlt⟩)
  case back =>
    intro p q hp hq hlt
    rw [hlookup, hlist]
    exact filter_back_assemble (e := ⟨p, q⟩) h (searches_all_iff.2 ⟨hp, hq, hlt⟩)
  case nothingElse =>
    intro x hx
    rw [hlist] at hx
    obtain ⟨-, hs | hs⟩ := of_mem_assemble_searched h hx
    · obtain ⟨hadd, hdrop, hlt⟩ := searches_all_iff.1 hs
      exact ⟨x.ends.src, x.ends.dst, hadd, hdrop, hlt, .inl rfl⟩
    · obtain ⟨hadd, hdrop, hlt⟩ := searches_all_iff.1 hs
      exact ⟨x.ends.dst, x.ends.src, hadd, hdrop, hlt, .inr rfl⟩
  case lookup => exact hlookup

end Planner

namespace Optimizer

variable {o start : Optimizer}

/-- The routes whose OSNR a calculation of everything asks for. -/
def askedRoutes (o : Optimizer) : List Route :=
  match o.plannedRoutes none none with
  | .ok plan => Planner.bothWays plan
  | .error _ => []

/-- With a plan a calculation of everything succeeds exactly if all routes are answered. -/
theorem calculateWdmPathsBy_all_isOk_iff {method : OsnrMethod} {plan : List PlannedRoute}
    (hplan : o.plannedRoutes none none = .ok plan) :
    (o.calculateWdmPathsBy method none none).result.isOk = true ↔
      ∃ osnr, Planner.Answers method (Planner.bothWays plan) osnr := by
  simp only [calculateWdmPathsBy, hplan]
  cases hevaluate : Planner.evaluate method plan with
  | error f =>
    refine iff_of_false (fun h => by cases h) ?_
    rintro ⟨osnr, hosnr⟩
    rw [Planner.evaluate_eq_ok_iff.2 ⟨osnr, hosnr, rfl⟩] at hevaluate
    cases hevaluate
  | ok paths =>
    obtain ⟨osnr, hosnr, -⟩ := Planner.evaluate_eq_ok_iff.1 hevaluate
    exact iff_of_true rfl ⟨osnr, hosnr⟩

/-- A successful calculation of everything leaves just the paths of its plan. -/
theorem toList_of_calculateWdmPathsBy_all (hcoherent : o.catalog.Coherent) {method : OsnrMethod}
    {plan : List PlannedRoute} (hplan : o.plannedRoutes none none = .ok plan) {full : Optimizer}
    {change : CatalogChange} (h : o.calculateWdmPathsBy method none none = ⟨full, .ok change⟩) :
    full.catalog.Coherent ∧ ∃ osnr, Planner.Answers method (Planner.bothWays plan) osnr ∧
      full.catalog.toList = Planner.assemble plan osnr := by
  simp only [calculateWdmPathsBy, hplan] at h
  cases hevaluate : Planner.evaluate method plan with
  | error f =>
    rw [hevaluate] at h
    cases h
  | ok paths =>
    rw [hevaluate] at h
    cases h
    obtain ⟨osnr, hosnr, rfl⟩ := Planner.evaluate_eq_ok_iff.1 hevaluate
    obtain ⟨hcoherent', hlist⟩ := hcoherent.replace_all (Planner.assemble plan osnr)
    exact ⟨hcoherent', osnr, hosnr, hlist⟩

/-- On a network with an add/drop port, a calculation of everything by any method succeeds exactly if
the method answers for all routes that it is asked about. No route is asked about twice, and there is
one OSNR for each route such that the method gave these in order and the catalog lists the ranked
routes with them, and nothing else. -/
theorem whole_catalog_calculated (hempty : start.catalog = {}) (turns : List Turn)
    (ho : start.afterTurns turns = o) {cp : ConnectPoint} (hport : o.topology.isAddDropPort cp = true)
    (method : OsnrMethod) :
    ((o.calculateWdmPathsBy method none none).result.isOk = true ↔
      ∃ osnr, Planner.Answers method o.askedRoutes osnr) ∧
    (o.askedRoutes.map Route.links).Nodup ∧
    ∀ full change, o.calculateWdmPathsBy method none none = ⟨full, .ok change⟩ →
      ∃ osnr : Route → OsnrMap, Planner.Answers method o.askedRoutes (o.askedRoutes.map osnr) ∧
        full.catalog.ListsRanked o.topology o.weigher o.settings.k osnr ∧
        ∀ x ∈ full.catalog.toList, x.route ∈ o.askedRoutes := by
  obtain ⟨plan, hplan⟩ :
      ∃ plan, Planner.planned o.topology o.weigher o.settings.k none none = .ok plan :=
    Planner.exists_planned_all hport
  have hasked : o.askedRoutes = Planner.bothWays plan := by
    rw [askedRoutes, plannedRoutes, hplan]
  rw [hasked]
  refine ⟨calculateWdmPathsBy_all_isOk_iff hplan, Planner.nodup_bothWays hplan, ?_⟩
  intro full change hfull
  have hcoherent : o.catalog.Coherent := ho ▸ (provides hempty turns).paired.coherent
  obtain ⟨hcoherent', osnr, hosnr, hlist⟩ :=
    toList_of_calculateWdmPathsBy_all hcoherent hplan hfull
  obtain ⟨osnr, rfl⟩ := exists_eq_map_of_nodup (Planner.nodup_bothWays hplan).of_map hosnr.1
  refine ⟨osnr, hosnr, Planner.listsRanked_of_toList_eq hplan hcoherent' hlist, ?_⟩
  intro x hx
  rw [hlist] at hx
  exact (Planner.of_mem_assemble_searched hplan hx).1

/-- A method that gives each route the OSNR of its position in the list. -/
def numberingMethod : OsnrMethod := fun routes =>
  .ok (routes.mapIdx fun i _ => SortedMap.empty.insert sampleMode (Float.ofNat i))

/-- Over the line between the two switches a calculation of everything gives eight paths. -/
theorem whole_catalog_calculated_sample : sampleStart.catalog = {} ∧
    sampleStart.topology.isAddDropPort ⟨"A", 2⟩ = true ∧
    (((sampleStart.calculateWdmPathsBy numberingMethod none none).result.isOk = true ↔
      ∃ osnr, Planner.Answers numberingMethod sampleStart.askedRoutes osnr) ∧
    (sampleStart.askedRoutes.map Route.links).Nodup ∧
    ∀ full change, sampleStart.calculateWdmPathsBy numberingMethod none none = ⟨full, .ok change⟩ →
      ∃ osnr : Route → OsnrMap,
        Planner.Answers numberingMethod sampleStart.askedRoutes (sampleStart.askedRoutes.map osnr) ∧
        full.catalog.ListsRanked sampleStart.topology sampleStart.weigher sampleStart.settings.k osnr ∧
        ∀ x ∈ full.catalog.toList, x.route ∈ sampleStart.askedRoutes) ∧
    (sampleStart.calculateWdmPathsBy numberingMethod none none).result.isOk = true ∧
    (sampleStart.calculateWdmPathsBy numberingMethod none none).optimizer.catalog.toList.length = 8 := by
  have hport : sampleStart.topology.isAddDropPort ⟨"A", 2⟩ = true := by decide +kernel
  exact ⟨rfl, hport, whole_catalog_calculated rfl [] rfl hport numberingMethod, by decide +kernel,
    by decide +kernel⟩

end Optimizer

end Lightpath

import Lightpath.Proofs.Optimizer.Reservable

/-!
# Ranking — which candidates planning gives, and in which order

Planning between one pair of ports gives the offers of the catalog's paths between the add and the drop
port of the edges; between two pairs it gives the combinations of such offers that are apart. Both are
listed once, by descending quality, and equals in the order in which they were found
(`planned_candidates`). Nothing is listed twice because the paths of a catalog are different trips.
-/

namespace Lightpath

namespace Outlook

variable {o : Outlook} {e : Ends} {k : Nat} {ingressEdge egressEdge : Link}

/-- The entries of a pair of ports are the offers that the paths between the add and the drop port of its
edges give, in the order of the catalog. None occurs twice. -/
structure ListsEntries (o : Outlook) (e : Ends) (entries : List Offer) : Prop where
  eq : ∃ ingressEdge egressEdge d, o.HasEdges e ingressEdge egressEdge ∧
    o.topology.device? egressEdge.dst.device = some d ∧
    entries = (o.catalog.toList.filter fun p => p.ends = ⟨ingressEdge.dst, egressEdge.src⟩).filterMap
      (o.offer? ingressEdge egressEdge d)
  nodup : entries.Nodup

/-- The candidates of one pair of ports are its entries, ranked by quality. Those of two pairs are the
combinations of entries that are apart, ranked by the quality of the main entry, then by that of the
tributary. -/
inductive Ranks (o : Outlook) : List Ends → List Candidate → Prop where
  | single {e : Ends} {entries ranked : List Offer} : o.ListsEntries e entries →
      RankedBy Offer.qKey entries ranked → Ranks o [e] (ranked.map .single)
  | pair {main tributary : Ends} {mains tributaries : List Offer} {ranked : List (Offer × Offer)} :
      o.ListsEntries main mains → o.ListsEntries tributary tributaries →
      RankedBy Offer.pairKey
        ((mains.product tributaries).filter fun x => x.1.leg.Apart x.2.leg) ranked →
      Ranks o [main, tributary] (ranked.map fun x => .pair x.1 x.2)

/-! ## Entries -/

/-- Paths with different trips give different offers. -/
theorem nodup_filterMap_offer? (h : o.catalog.Paired k) (ends : Ends) (d : Device) :
    ((o.catalog.toList.filter fun p => p.ends = ends).filterMap
      (o.offer? ingressEdge egressEdge d)).Nodup := by
  have htrips : (o.catalog.toList.filter fun p => p.ends = ends).Pairwise
      fun p q => p.trip ≠ q.trip :=
    (List.pairwise_map.1 h.distinct).filter _
  rw [List.Nodup, List.pairwise_filterMap]
  refine htrips.imp_of_mem ?_
  intro p q hp hq hne x hx y hy hxy
  obtain ⟨_, -, -, _, _, -, rfl⟩ := offer?_eq_some_iff.1 hx
  obtain ⟨_, -, -, _, _, -, rfl⟩ := offer?_eq_some_iff.1 hy
  -- equal offers have equal routes, and the ends of both paths are the given ones
  have hroute : p.route = q.route := congrArg (fun x : Offer => x.leg.route) hxy
  have hends : p.ends = q.ends :=
    (of_decide_eq_true (List.mem_filter.1 hp).2).trans (of_decide_eq_true (List.mem_filter.1 hq).2).symm
  exact hne (by rw [WdmPath.trip, WdmPath.trip, hroute, hends])

/-- Offers between two ports are listed as entries. -/
theorem listsEntries_of_offers (h : o.catalog.Paired k) {found : List Offer}
    (hfound : o.offers e = .ok found) : o.ListsEntries e found := by
  obtain ⟨ingressEdge, egressEdge, d, hedges, hreceiver, rfl⟩ := offers_eq_ok hfound
  have hruns : o.catalog.getPaths (some ingressEdge.dst) (some egressEdge.src) =
      o.catalog.toList.filter fun p => p.ends = ⟨ingressEdge.dst, egressEdge.src⟩ := by
    rw [h.coherent.getPaths_eq]
    refine List.filter_congr fun p _ => ?_
    rw [Bool.eq_iff_iff, WdmPath.runs_pair_iff, decide_eq_true_iff]
  rw [hruns]
  exact ⟨⟨ingressEdge, egressEdge, d, edges_eq_ok hedges, (receiver_eq_ok hreceiver).2, rfl⟩,
    nodup_filterMap_offer? h _ d⟩

/-! ## Candidates -/

/-- Candidates are ranked entries if the paths of the catalog are paired and start at their add
devices. -/
theorem ranks_of_candidates (h : o.catalog.Paired k)
    (hstarts : ∀ p ∈ o.catalog.toList, p.route.src.device = p.ends.src.device) {pairs : List Ends}
    {candidates : List Candidate} (hok : o.candidates pairs = .ok candidates) :
    o.Ranks pairs candidates := by
  have hstart {e : Ends} {found : List Offer} (hfound : o.offers e = .ok found) :
      ∀ x ∈ found, x.leg.route.src.device = x.leg.addPort.device := by
    intro x hx
    obtain ⟨p, hp, hends, hroute⟩ := (checked_of_mem_offers hfound hx).exists_path h.coherent
    rw [hroute, hstarts p hp, hends]
  rcases candidates_cases hok with ⟨e, found, rfl, hfound, rfl⟩ |
    ⟨main, tributary, mains, tributaries, rfl, hmains, htributaries, rfl⟩
  · obtain ⟨ranked, hranked, heq⟩ := Offer.singles_ranked found
    rw [heq]
    exact .single (listsEntries_of_offers h hfound) hranked
  · obtain ⟨ranked, hranked, heq⟩ := Offer.pairs_ranked mains tributaries
    have hapart : ((mains.product tributaries).filter fun x => x.1.leg.isDisjoint x.2.leg) =
        (mains.product tributaries).filter fun x => x.1.leg.Apart x.2.leg := by
      refine List.filter_congr fun x hx => ?_
      obtain ⟨hm, ht⟩ := List.mem_product.1 hx
      rw [Bool.eq_iff_iff, decide_eq_true_iff,
        Leg.isDisjoint_iff (hstart hmains x.1 hm) (hstart htributaries x.2 ht)]
    rw [hapart] at hranked
    rw [heq]
    exact .pair (listsEntries_of_offers h hmains) (listsEntries_of_offers h htributaries) hranked

/-- No candidate is listed twice. -/
theorem Ranks.nodup {pairs : List Ends} {candidates : List Candidate} (h : o.Ranks pairs candidates) :
    candidates.Nodup := by
  cases h with
  | single hentries hranked =>
    exact (hranked.perm.nodup_iff.2 hentries.nodup).map fun _ _ heq => Candidate.single.inj heq
  | pair hmains htributaries hranked =>
    have hcombinations := (hmains.nodup.product htributaries.nodup).filter
      fun x => x.1.leg.Apart x.2.leg
    refine (hranked.perm.nodup_iff.2 hcombinations).map fun x y heq => ?_
    obtain ⟨hmain, htributary⟩ := Candidate.pair.inj heq
    exact Prod.ext hmain htributary

end Outlook

namespace Optimizer

/-- In every state that a run reaches, a planning that succeeds ranks the entries of its port pairs, or
their combinations that are apart, and lists nothing twice. Disjointness is symmetric, and no leg is
disjoint from itself. -/
theorem planned_candidates {n : NetworkDocument} {settings : Settings} {machine : Machine}
    {autoInstall : Bool} {start : Optimizer}
    (h : ofNetwork n settings machine autoInstall = .ok start) (turns : List Turn) {pairs : List Ends}
    {force : Bool} {candidates : List Candidate}
    (hplan : ((start.afterTurns turns).calculateWavelengthPaths pairs force).result = .ok candidates) :
    (start.afterTurns turns).outlook.Ranks pairs candidates ∧ candidates.Nodup ∧
      ∀ l m : Leg, l.isDisjoint m = m.isDisjoint l ∧ l.isDisjoint l = false := by
  have hprovides := provides (catalog_ofNetwork h).1 turns
  have hranks : (start.afterTurns turns).outlook.Ranks pairs candidates := by
    refine Outlook.ranks_of_candidates hprovides.paired ?_ (calculateWavelengthPaths_eq_ok hplan).2.1
    intro p hp
    obtain ⟨before, c, more, -, -, -, -, -, -, hjoins⟩ := hprovides.added p hp
    exact hjoins.starts
  exact ⟨hranks, hranks.nodup, fun l m => ⟨l.isDisjoint_comm m, l.isDisjoint_self⟩⟩

/-! ## Two ways around a triangle -/

/-- A switch with two line ports and two add/drop ports. -/
def sampleJunction (id : DeviceId) : DeviceEntry :=
  ⟨id, .roadm, "", [⟨1, none, .oms, .line, true⟩, ⟨2, none, .oms, .addDrop, true⟩,
    ⟨3, none, .oms, .addDrop, true⟩, ⟨4, none, .oms, .line, true⟩], none⟩

/-- Three switches joined pairwise by lines, and terminals on two of them. -/
def sampleTriangle : NetworkDocument where
  devices := [sampleJunction "A", sampleJunction "B", sampleJunction "C", sampleTerminal "X",
    sampleTerminal "Y"]
  links :=
    [⟨.between ⟨"A", 1⟩ ⟨"B", 1⟩, true⟩, ⟨.between ⟨"A", 4⟩ ⟨"C", 1⟩, true⟩,
      ⟨.between ⟨"C", 4⟩ ⟨"B", 4⟩, true⟩, ⟨.between ⟨"X", 1⟩ ⟨"A", 2⟩, false⟩,
      ⟨.between ⟨"X", 2⟩ ⟨"A", 3⟩, false⟩, ⟨.between ⟨"B", 2⟩ ⟨"Y", 1⟩, false⟩,
      ⟨.between ⟨"B", 3⟩ ⟨"Y", 2⟩, false⟩]
  details := [⟨⟨⟨"A", 1⟩, ⟨"B", 1⟩⟩, [.span "smf" 16.0 80000.0], true⟩,
    ⟨⟨⟨"A", 4⟩, ⟨"C", 1⟩⟩, [.span "smf" 16.0 80000.0], true⟩,
    ⟨⟨⟨"C", 4⟩, ⟨"B", 4⟩⟩, [.span "smf" 16.0 80000.0], true⟩]
  spectrum := some ⟨193.1, 193.15⟩

/-- Settings under which the Q of the mode is its OSNR. -/
def triangleSettings : Settings :=
  { sampleSettings with
    quality := { sampleSettings.quality with
      qConstants := SortedMap.empty.insert "V" (SortedMap.empty.insert sampleMode.display [1.0, 0.0]) } }

/-- The optimizer of the triangle. -/
def triangleStart : Optimizer :=
  match ofNetwork sampleTriangle triangleSettings default true with
  | .ok o => o
  | .error _ => default

theorem ofNetwork_triangle :
    ofNetwork sampleTriangle triangleSettings default true = .ok triangleStart := by
  rfl

/-- The catalog is calculated with a lower OSNR for longer routes. -/
def triangleTurns : List Turn :=
  [.call (.calculateWdmPathsBy (fun routes => .ok (routes.map fun r =>
    SortedMap.empty.insert sampleMode (if r.links.length = 1 then 30.0 else 20.0))) none none)]

/-- The offers between two ports of the triangle; none if there is a failure. -/
def triangleOffers (e : Ends) : List Offer :=
  ((triangleStart.afterTurns triangleTurns).outlook.offers e).toOption.getD []

/-- Planning two pairs of the terminals of the triangle. -/
def trianglePlanning : Outcome (List Candidate) :=
  (triangleStart.afterTurns triangleTurns).calculateWavelengthPaths
    [⟨⟨"X", 1⟩, ⟨"Y", 1⟩⟩, ⟨⟨"X", 2⟩, ⟨"Y", 2⟩⟩] false

/-- Each pair of ports has a direct route and one around the triangle, and only different ones protect
each other. -/
theorem planned_candidates_triangle :
    (Offer.disjointPairs (triangleOffers ⟨⟨"X", 1⟩, ⟨"Y", 1⟩⟩)
        (triangleOffers ⟨⟨"X", 2⟩, ⟨"Y", 2⟩⟩)).map
      (fun x => (x.1.leg.route.links.length, x.2.leg.route.links.length)) = [(1, 2), (2, 1)] ∧
      (triangleStart.afterTurns triangleTurns).outlook.Ranks
        [⟨⟨"X", 1⟩, ⟨"Y", 1⟩⟩, ⟨⟨"X", 2⟩, ⟨"Y", 2⟩⟩] (planned trianglePlanning) ∧
      (planned trianglePlanning).Nodup ∧
      ∀ l m : Leg, l.isDisjoint m = m.isDisjoint l ∧ l.isDisjoint l = false := by
  have hok : trianglePlanning.result.isOk = true := by decide +kernel
  have hplan := congrArg Outcome.result (eq_planned_of_isOk hok)
  exact ⟨by decide +kernel, planned_candidates ofNetwork_triangle triangleTurns hplan⟩

end Optimizer

end Lightpath

import Lightpath.Proofs.Optimizer.Channels
import Lightpath.Proofs.Optimizer.Reservable
import Lightpath.Proofs.Quality.ModeChoice

/-!
# Modes — what planned and reserved paths are sent in

Planning gives an offer of a path the best mode that the receiving device can use on the path and on its
reverse, and gives no offer for want of a mode only if there is none. A reservation takes the legs of its
candidate over as they are. All this holds in every state that a run reaches (`choosesModes_afterTurns`).
-/

namespace Lightpath

namespace Outlook

variable {o : Outlook} {e : Ends} {x : Offer} {ingressEdge egressEdge : Link} {d : Device}
  {p : WdmPath}

/-- An offer carries the best mode of a path between its add and drop ports and of its reverse. -/
theorem best_of_mem_offers {found : List Offer} (h : o.offers e = .ok found) (hx : x ∈ found) :
    ∃ p ∈ o.catalog.getPaths (some x.leg.addPort) (some x.leg.dropPort),
      ∃ back, o.catalog.getReverse? p = some back ∧ x.leg.route = p.route ∧
        ∃ d, o.topology.device? x.leg.dst.device = some d ∧
          o.quality.IsBest d p.osnr back.osnr x.leg.mode x.leg.quality := by
  obtain ⟨ingressEdge, egressEdge, d, -, hreceiver, rfl⟩ := offers_eq_ok h
  obtain ⟨p, hp, hoffer⟩ := List.mem_filterMap.1 hx
  obtain ⟨back, hback, -, mode, v, hchoice, rfl⟩ := offer?_eq_some_iff.1 hoffer
  exact ⟨p, hp, back, hback, rfl, d, (receiver_eq_ok hreceiver).2,
    QualitySettings.chooseMode?_eq_some hchoice⟩

/-- A path with a way back and a free slot gives no offer exactly if no mode is usable both ways. -/
theorem offer?_eq_none_iff {back : WdmPath} (hback : o.catalog.getReverse? p = some back)
    (hslots : (o.freeSlots p.route).isEmpty = false) :
    o.offer? ingressEdge egressEdge d p = none ↔
      ∀ m v, ¬ o.quality.IsUsableBothWays d p.osnr back.osnr m v := by
  rw [← QualitySettings.chooseMode?_eq_none_iff]
  constructor
  · intro hnone
    cases hchoice : o.quality.chooseMode? d p.osnr back.osnr with
    | none => rfl
    | some choice =>
      have hsome : o.offer? ingressEdge egressEdge d p = some _ :=
        offer?_eq_some_iff.2 ⟨back, hback, hslots, choice.1, choice.2, hchoice, rfl⟩
      rw [hnone] at hsome
      cases hsome
  · intro hnone
    cases hoffer : o.offer? ingressEdge egressEdge d p with
    | none => rfl
    | some x =>
      obtain ⟨back', hback', -, mode, v, hchoice, -⟩ := offer?_eq_some_iff.1 hoffer
      obtain rfl := Option.some.inj (hback.symm.trans hback')
      rw [hnone] at hchoice
      cases hchoice

end Outlook

namespace Optimizer

/-- What holds of the modes of planned and reserved paths in a state. -/
structure ChoosesModes (o : Optimizer) : Prop where
  /-- Every offer of a planned candidate comes from a path between its add and its drop port. It carries
  the best mode of the path and its reverse on the receiving device, and the smaller Q of both. -/
  best : ∀ pairs force candidates, (o.calculateWavelengthPaths pairs force).result = .ok candidates →
    ∀ c ∈ candidates, ∀ x ∈ c.offers, ∃ p ∈ o.catalog.toList, ∃ back ∈ o.catalog.toList,
      p.ends = ⟨x.leg.addPort, x.leg.dropPort⟩ ∧ x.leg.route = p.route ∧
        back.trip = p.trip.reversed ∧ ∃ d, o.topology.device? x.leg.dst.device = some d ∧
          o.settings.quality.IsBest d p.osnr back.osnr x.leg.mode x.leg.quality ∧
          ∃ there again, o.settings.quality.IsUsable d p.osnr x.leg.mode there ∧
            o.settings.quality.IsUsable d back.osnr x.leg.mode again ∧
            (x.leg.quality = there ∨ x.leg.quality = again) ∧
            x.leg.quality.q ≤ there.q ∧ x.leg.quality.q ≤ again.q
  /-- A path that has a reverse and a free slot gives no offer exactly if no mode is usable both ways. -/
  rejects : ∀ p ∈ o.catalog.toList, ∀ back ∈ o.catalog.toList, back.trip = p.trip.reversed →
    (o.outlook.freeSlots p.route).isEmpty = false → ∀ ingressEdge egressEdge d,
      (o.outlook.offer? ingressEdge egressEdge d p = none ↔
        ∀ m v, ¬ o.settings.quality.IsUsableBothWays d p.osnr back.osnr m v)
  /-- A reservation stores the legs of the candidate with its number. -/
  reserves : ∀ index ids names stored, (o.reserve index ids names).result = .ok stored →
    ∃ c, o.candidates[index - 1]? = some c ∧
      stored.map WavelengthPath.leg = c.offers.map Offer.leg ∧
      (o.reserve index ids names).optimizer.paths.toList = o.paths.toList ++ stored

theorem reserve_stores (o : Optimizer) (hpaths : o.paths.Coherent) {index : Nat} {ids : List Int}
    {names : List String} {stored : List WavelengthPath}
    (h : (o.reserve index ids names).result = .ok stored) :
    ∃ c, o.candidates[index - 1]? = some c ∧
      stored.map WavelengthPath.leg = c.offers.map Offer.leg ∧
      (o.reserve index ids names).optimizer.paths.toList = o.paths.toList ++ stored := by
  obtain ⟨c, d, hc, hd, hput⟩ := reserve_eq_ok h
  have hissue : o.paths.issueGroup.2.Coherent := ⟨hpaths.keyed, hpaths.bounded, hpaths.grouped⟩
  obtain ⟨s, hstored, -, hlist, -⟩ :=
    hissue.putAll (c.paths (o.paths.lastGroupId + 1) ids names d.signals)
  rw [hput] at hstored
  obtain ⟨hs, rfl⟩ := Prod.mk.inj hstored
  refine ⟨c, (Candidate.getElem?_of_choose hc).2, ?_, ?_⟩
  · rw [PathStore.map_numbered (fun _ _ => rfl)]
    exact Candidate.map_leg_paths hd (Candidate.offers_of_choose hc).2 _ names
  · rw [hs]
    exact hlist

/-- In every state that a run reaches, planning gives every offer its best mode and misses no usable one,
and a reservation keeps what planning gave. -/
theorem choosesModes_afterTurns {n : NetworkDocument} {settings : Settings}
    {machine : Machine} {autoInstall : Bool} {start : Optimizer}
    (h : ofNetwork n settings machine autoInstall = .ok start) (turns : List Turn) :
    (start.afterTurns turns).ChoosesModes := by
  have hpaired := (provides (catalog_ofNetwork h).1 turns).paired
  constructor
  case best =>
    intro pairs force candidates hplan c hc x hx
    obtain ⟨-, hplanned, -⟩ := calculateWavelengthPaths_eq_ok hplan
    obtain ⟨e, found, -, hfound, hmem⟩ := Outlook.mem_offers_of_candidates hplanned hc hx
    obtain ⟨p, hp, back, hback, hroute, d, hd, hbest⟩ := Outlook.best_of_mem_offers hfound hmem
    change p ∈ (start.afterTurns turns).catalog.getPaths _ _ at hp
    rw [hpaired.coherent.getPaths_eq, List.mem_filter] at hp
    obtain ⟨hpath, hruns⟩ := hp
    -- the catalog pairs the path, and the pair is what the look-up finds
    obtain ⟨q, hq, hqp⟩ := hpaired.mirrored p hpath
    obtain rfl := Option.some.inj (hback.symm.trans (hpaired.getReverse?_eq hq hqp))
    exact ⟨p, hpath, back, hq, WdmPath.runs_pair_iff.1 hruns, hroute, hqp, d, hd, hbest,
      hbest.usable.smaller⟩
  case rejects =>
    intro p hp back hback hreverse hslots ingressEdge egressEdge d
    exact Outlook.offer?_eq_none_iff (hpaired.getReverse?_eq hback hreverse) hslots
  case reserves =>
    intro index ids names stored hreserve
    have hconsistent := consistent_afterTurns (idle_ofNetwork h) turns
    exact reserve_stores _ hconsistent.coherent hreserve

/-- In the sample network, the only mode of the transponders is chosen, with its quality both ways. -/
theorem choosesModes_sample : (sampleStart.afterTurns (sampleTurns.take 1)).ChoosesModes ∧
    (planned samplePlanning).map (fun c => c.offers.map fun x => (x.leg.mode, x.leg.quality.q.toBits)) =
      [[(sampleMode, (10.0 : Float).toBits)]] :=
  ⟨choosesModes_afterTurns ofNetwork_sample (sampleTurns.take 1), by decide +kernel⟩

end Optimizer

end Lightpath

import Lightpath.Proofs.Optimizer.Assignable
import Lightpath.Proofs.Optimizer.Channels

/-!
# Selectable offers — which planned candidates have a frequency

An offer is planned only over a route that can carry a channel: free slots come in whole channels, so a
route with a free slot has a free channel (`Outlook.exists_canCarry`). The frequencies of the offer are
the positive ids of these channels. It has none exactly if no channel that the route can carry has a
positive id (`selectsChannels_afterTurns`), as below the origin of the ids, and such an offer is planned all
the same (`planned_without_frequency`).
-/

namespace Lightpath

namespace Outlook

variable {o : Outlook} {e : Ends} {x : Offer} {r : Route} {m : Int}

/-! ## Routes that can carry a channel -/

/-- A route can carry the 50 GHz channel `m` of the grid: it meets an OMS port of a ROADM, and the channel is
free on each one that it meets. -/
structure CanCarry (o : Outlook) (r : Route) (m : Int) : Prop where
  onGrid : Signal.OnGrid .ghz50 m
  meets : ∃ cp ∈ r.hops, o.topology.IsOmsPort cp
  free : ∀ cp ∈ r.hops, o.topology.IsOmsPort cp → o.ledger.HasFreeChannel cp m

theorem lambdaHops_ne_nil_iff {t : Topology} :
    t.lambdaHops r ≠ [] ↔ ∃ cp ∈ r.hops, t.IsOmsPort cp := by
  constructor
  · intro h
    obtain ⟨cp, hcp⟩ := List.exists_mem_of_ne_nil _ h
    obtain ⟨hhop, hcarries⟩ := List.mem_filter.1 hcp
    exact ⟨cp, hhop, Topology.carriesLambdas_iff.1 hcarries⟩
  · rintro ⟨cp, hhop, hport⟩
    exact List.ne_nil_of_mem (List.mem_filter.2 ⟨hhop, Topology.carriesLambdas_iff.2 hport⟩)

/-- A route can carry a channel of the grid exactly if all slots of the channel are free along it. -/
theorem canCarry_iff : o.CanCarry r m ↔ Signal.OnGrid .ghz50 m ∧
    ∀ slot ∈ Signal.channelSlots m, slot ∈ (o.freeSlots r).toList := by
  constructor
  · intro h
    exact ⟨h.onGrid, (channel_free_iff (lambdaHops_ne_nil_iff.2 h.meets)).2 h.free⟩
  · rintro ⟨hgrid, hall⟩
    obtain ⟨slot, hslot⟩ := List.exists_mem_of_ne_nil (Signal.channelSlots m) (List.cons_ne_nil _ _)
    have hhops : o.topology.lambdaHops r ≠ [] :=
      (Ledger.mem_commonLambdas.1 (SortedSet.mem_def.2 (hall slot hslot))).1
    exact ⟨hgrid, lambdaHops_ne_nil_iff.1 hhops, (channel_free_iff hhops).1 hall⟩

/-- If free slots come in whole channels, a route with a free slot can carry a channel. -/
theorem exists_canCarry (hwhole : Signal.InWholeChannels (· ∈ o.freeSlots r))
    (h : (o.freeSlots r).isEmpty = false) : ∃ m, o.CanCarry r m := by
  have hne : (o.freeSlots r).toList ≠ [] := List.isEmpty_eq_false_iff.1 h
  obtain ⟨slot, hslot⟩ := List.exists_mem_of_ne_nil _ hne
  obtain ⟨m, -, hall⟩ := hwhole slot hslot
  obtain ⟨m', hgrid, heq⟩ := Signal.exists_onGrid_channelSlots m
  exact ⟨m', canCarry_iff.2 ⟨hgrid, heq ▸ hall⟩⟩

/-! ## Offers -/

/-- Planning gives no offer over a route without a free slot. -/
theorem freeSlots_of_mem_offers {found : List Offer} (h : o.offers e = .ok found) (hx : x ∈ found) :
    (o.freeSlots x.leg.route).isEmpty = false := by
  obtain ⟨ingressEdge, egressEdge, d, -, -, rfl⟩ := offers_eq_ok h
  obtain ⟨p, -, hoffer⟩ := List.mem_filterMap.1 hx
  obtain ⟨back, -, hslots, mode, v, -, rfl⟩ := offer?_eq_some_iff.1 hoffer
  exact hslots

/-- An offer has a frequency exactly if its route can carry a channel with a positive id. -/
theorem Checked.exists_frequency_iff (h : o.Checked e x) (hgrid : o.ledger.OnFlexGrid) :
    (∃ id s, x.signals.find? id = some s) ↔
      ∃ m, o.CanCarry x.leg.route m ∧ 0 < o.frequencies.idOf m := by
  have hflex : ∀ slot ∈ (o.freeSlots x.leg.route).toList, slot.IsFlexSlot := hgrid.commonLambdas _
  have hsignals : x.signals = o.frequencies.offered (o.freeSlots x.leg.route) := h.signals
  simp only [hsignals, FrequencyPlan.find?_offered, Signal.mem_channelsOf_iff hflex, canCarry_iff]
  constructor
  · rintro ⟨id, _, ⟨m, hm, rfl, hall⟩, hid, hpos⟩
    rw [Signal.flexSlots_ghz50] at hall
    have heq : o.frequencies.idOf m = id := Except.ok.inj hid
    exact ⟨m, ⟨hm, hall⟩, heq ▸ hpos⟩
  · rintro ⟨m, ⟨hm, hall⟩, hpos⟩
    refine ⟨o.frequencies.idOf m, .dwdm .ghz50 m, ⟨m, hm, rfl, ?_⟩, rfl, hpos⟩
    rw [Signal.flexSlots_ghz50]
    exact hall

end Outlook

namespace Optimizer

/-- What holds of the frequencies of planned candidates in a state. -/
structure SelectsChannels (o : Optimizer) : Prop where
  /-- Every offer of a planned candidate has a route that can carry a channel. It has a frequency exactly
  if the route can carry a channel with a positive id. -/
  carries : ∀ pairs force candidates,
    (o.calculateWavelengthPaths pairs force).result = .ok candidates →
    ∀ c ∈ candidates, ∀ x ∈ c.offers, (∃ m, o.outlook.CanCarry x.leg.route m) ∧
      ((∃ id s, x.signals.find? id = some s) ↔
        ∃ m, o.outlook.CanCarry x.leg.route m ∧ 0 < o.frequencies.idOf m)
  /-- If every channel of the grid that is registered has a positive id, every offer has a frequency. -/
  complete : (∀ cp m, Signal.OnGrid .ghz50 m →
      (∀ slot ∈ Signal.channelSlots m, slot ∈ o.ledger.registered cp) → 0 < o.frequencies.idOf m) →
    ∀ pairs force candidates, (o.calculateWavelengthPaths pairs force).result = .ok candidates →
    ∀ c ∈ candidates, ∀ x ∈ c.offers, ∃ id s, x.signals.find? id = some s
  /-- A path whose route can carry no channel gives no offer. -/
  rejects : ∀ p : WdmPath, (∀ m, ¬ o.outlook.CanCarry p.route m) →
    ∀ ingressEdge egressEdge d, o.outlook.offer? ingressEdge egressEdge d p = none

section Reached

variable {n : NetworkDocument} {settings : Settings} {machine : Machine} {autoInstall : Bool}
  {start : Optimizer}

/-- In every state that a run on a network reaches, what is free along a route comes in whole channels. -/
theorem inWholeChannels_freeSlots (h : ofNetwork n settings machine autoInstall = .ok start)
    (turns : List Turn) (r : Route) :
    Signal.InWholeChannels (· ∈ (start.afterTurns turns).outlook.freeSlots r) := by
  have hidle : start.Idle := idle_ofNetwork h
  obtain ⟨hregistered, hcandidates⟩ := registersChannels_ofNetwork h
  have htakes : (start.afterTurns turns).TakesChannels :=
    (takesChannels_of_idle hidle hcandidates).afterTurns hidle turns
  exact Ledger.inWholeChannels_common (hregistered.of_slots_eq (start.slots_afterTurns turns))
    htakes.holds (sound_afterTurns hidle turns).toExact _

/-- In every state that a run reaches, an offer of a planned candidate has a route that can carry a channel,
and a frequency exactly if one of these channels has a positive id. -/
theorem canCarry_of_planned (h : ofNetwork n settings machine autoInstall = .ok start)
    (turns : List Turn) {pairs : List Ends} {force : Bool} {candidates : List Candidate}
    (hplan : ((start.afterTurns turns).calculateWavelengthPaths pairs force).result = .ok candidates)
    {c : Candidate} (hc : c ∈ candidates) {x : Offer} (hx : x ∈ c.offers) :
    (∃ m, (start.afterTurns turns).outlook.CanCarry x.leg.route m) ∧
      ((∃ id s, x.signals.find? id = some s) ↔
        ∃ m, (start.afterTurns turns).outlook.CanCarry x.leg.route m ∧
          0 < (start.afterTurns turns).frequencies.idOf m) := by
  have hgrid := onFlexGrid_afterTurns (catalog_ofNetwork h).2 turns
  obtain ⟨-, hplanned, -⟩ := calculateWavelengthPaths_eq_ok hplan
  obtain ⟨e, found, -, hfound, hmem⟩ := Outlook.mem_offers_of_candidates hplanned hc hx
  refine ⟨Outlook.exists_canCarry (inWholeChannels_freeSlots h turns _) ?_, ?_⟩
  · exact Outlook.freeSlots_of_mem_offers hfound hmem
  · exact (Outlook.checked_of_mem_offers hfound hmem).exists_frequency_iff hgrid

/-- In every state that a run reaches, planning offers the routes that can carry a channel, with the
positive ids of their channels; an offer lacks a frequency exactly if no channel that it can carry has a
positive id. -/
theorem selectsChannels_afterTurns (h : ofNetwork n settings machine autoInstall = .ok start)
    (turns : List Turn) : (start.afterTurns turns).SelectsChannels := by
  constructor
  case carries => exact fun _ _ _ hplan _ hc _ hx => canCarry_of_planned h turns hplan hc hx
  case complete =>
    intro hpositive pairs force candidates hplan c hc x hx
    obtain ⟨⟨m, hm⟩, hiff⟩ := canCarry_of_planned h turns hplan hc hx
    obtain ⟨cp, hcp, hport⟩ := hm.meets
    refine hiff.2 ⟨m, hm, hpositive cp m hm.onGrid fun slot hslot => ?_⟩
    exact (hm.free cp hcp hport slot hslot).1
  case rejects =>
    intro p hnone ingressEdge egressEdge d
    cases hoffer : (start.afterTurns turns).outlook.offer? ingressEdge egressEdge d p with
    | none => rfl
    | some x =>
      obtain ⟨back, -, hslots, -⟩ := Outlook.offer?_eq_some_iff.1 hoffer
      obtain ⟨m, hm⟩ := Outlook.exists_canCarry (inWholeChannels_freeSlots h turns _) hslots
      exact absurd hm (hnone m)

end Reached

/-- In the sample network both channels of the line are offered. -/
theorem selectsChannels_sample : (sampleStart.afterTurns (sampleTurns.take 1)).SelectsChannels ∧
    (planned samplePlanning).map (fun c => c.offers.map fun x => x.signals.keys) = [[[36, 37]]] :=
  ⟨selectsChannels_afterTurns ofNetwork_sample (sampleTurns.take 1), by decide +kernel⟩

/-- Settings whose ids start above the spectrum of the sample network. -/
def highSettings : Settings := { sampleSettings with lowestFrequency := 200.0 }

/-- The optimizer of the sample network with these settings. -/
def highStart : Optimizer :=
  match ofNetwork sampleNetwork highSettings default true with
  | .ok o => o
  | .error _ => default

/-- Planning with these settings, once the catalog is calculated. -/
def highPlanning : Outcome (List Candidate) :=
  (highStart.after [.calculateWdmPathsBy sampleMethod none none]).calculateWavelengthPaths
    [⟨⟨"X", 1⟩, ⟨"Y", 1⟩⟩] false

/-- With an origin of the ids that the settings accept, the route over the free line is planned as a
candidate without any frequency. -/
theorem planned_without_frequency :
    ofNetwork sampleNetwork highSettings default true = .ok highStart ∧
      highStart.settings.lowestFrequency.toBits = (200.0 : Float).toBits ∧
      highPlanning.result.isOk = true ∧
      (planned highPlanning).map (fun c => c.offers.map fun x => x.signals.keys) = [[[]]] := by
  refine ⟨rfl, ?_⟩
  decide +kernel

end Optimizer

end Lightpath

import Lightpath.Proofs.Optimizer.Reservable

/-!
# Assignable channels — what planning offers is what is free

An offer of a path names the 50 GHz channels that are free on every hop of its route that lies on an OMS
port of a ROADM, by their positive frequency ids, and no others (`offered_exactly`). Hop filtering,
intersection and collapsing lose nothing because the registered slots lie on the flex grid, and a path
without such a hop gives no offer at all.

A channel of 50 GHz is one whose centre is a word of 32 bits of steps from the anchor. Other numbers stand
for no channel of their own: where a spectrum goes beyond the words, its slots wrap around and are those of
channels on the grid, and these are the ones that are offered.
-/

namespace Lightpath

/-- An OMS port of a ROADM that is in the inventory. -/
def Topology.IsOmsPort (t : Topology) (cp : ConnectPoint) : Prop :=
  ∃ d, t.device? cp.device = some d ∧ d.kind.isRoadm = true ∧
    ∃ p, d.port? cp.port = some p ∧ p.kind = .oms

theorem Topology.carriesLambdas_iff {t : Topology} {cp : ConnectPoint} :
    t.carriesLambdas cp = true ↔ t.IsOmsPort cp := by
  simp [carriesLambdas, Device.carriesLambdas, IsOmsPort, Option.any_eq_true]

/-- The slots of the 50 GHz channel `m` are registered on a port and owned by nobody. -/
def Ledger.HasFreeChannel (l : Ledger) (cp : ConnectPoint) (m : Int) : Prop :=
  ∀ slot ∈ Signal.channelSlots m, slot ∈ l.registered cp ∧ l.owner? (.lambda cp slot) = none

namespace Outlook

variable {o : Outlook} {r : Route} {m : Int}

/-- A route with a free slot meets a port that carries spectrum. -/
theorem lambdaHops_ne_nil (h : (o.freeSlots r).isEmpty = false) :
    o.topology.lambdaHops r ≠ [] := by
  intro hnil
  rw [freeSlots, hnil] at h
  cases h

/-- All slots of a channel are free along a route exactly if the channel is free on each of its OMS
ports. -/
theorem channel_free_iff (h : o.topology.lambdaHops r ≠ []) :
    (∀ slot ∈ Signal.channelSlots m, slot ∈ (o.freeSlots r).toList) ↔
      ∀ cp ∈ r.hops, o.topology.IsOmsPort cp → o.ledger.HasFreeChannel cp m := by
  constructor
  · intro hfree cp hcp hport slot hslot
    have hcommon := (Ledger.mem_commonLambdas.1 (SortedSet.mem_def.2 (hfree slot hslot))).2
    have hhop := List.mem_filter.2 ⟨hcp, Topology.carriesLambdas_iff.2 hport⟩
    exact Ledger.isAvailable_lambda_iff.1 (hcommon cp hhop)
  · intro hfree slot hslot
    refine SortedSet.mem_def.1 (Ledger.mem_commonLambdas.2 ⟨h, fun cp hhop => ?_⟩)
    obtain ⟨hcp, hcarries⟩ := List.mem_filter.1 hhop
    have hport := Topology.carriesLambdas_iff.1 hcarries
    exact Ledger.isAvailable_lambda_iff.2 (hfree cp hcp hport slot hslot)

/-- On a ledger of flex-grid slots, an offer names the channels that are free on every OMS port of the
route. -/
theorem find?_signals_iff (hgrid : o.ledger.OnFlexGrid) {ingressEdge egressEdge : Link} {d : Device}
    {p : WdmPath} {x : Offer} (hx : o.offer? ingressEdge egressEdge d p = some x) {id : Int}
    {s : Signal} :
    x.signals.find? id = some s ↔
      ∃ m, Signal.OnGrid .ghz50 m ∧ s = .dwdm .ghz50 m ∧ o.frequencies.channelId s = .ok id ∧
        0 < id ∧ ∀ cp ∈ p.route.hops, o.topology.IsOmsPort cp → o.ledger.HasFreeChannel cp m := by
  obtain ⟨back, -, hslots, mode, v, -, rfl⟩ := offer?_eq_some_iff.1 hx
  have hhops := lambdaHops_ne_nil hslots
  have hflex : ∀ slot ∈ (o.freeSlots p.route).toList, slot.IsFlexSlot := hgrid.commonLambdas _
  show (o.frequencies.offered (o.freeSlots p.route)).find? id = some s ↔ _
  rw [FrequencyPlan.find?_offered, Signal.mem_channelsOf_iff hflex]
  constructor
  · rintro ⟨⟨m, hm, rfl, hall⟩, hid, hpos⟩
    rw [Signal.flexSlots_ghz50] at hall
    exact ⟨m, hm, rfl, hid, hpos, (channel_free_iff hhops).1 hall⟩
  · rintro ⟨m, hm, rfl, hid, hpos, hfree⟩
    refine ⟨⟨m, hm, rfl, ?_⟩, hid, hpos⟩
    rw [Signal.flexSlots_ghz50]
    exact (channel_free_iff hhops).2 hfree

end Outlook

namespace Optimizer

/-- After every run, the offer of a path maps an id to a signal exactly if the signal is a 50 GHz channel of
the grid with this id, the id is positive and the channel is free on every hop of the route on an OMS port
of a ROADM. No two channels share an id, on the grid or off it. -/
theorem offered_exactly {n : NetworkDocument} {settings : Settings} {machine : Machine}
    {autoInstall : Bool} {start : Optimizer}
    (h : ofNetwork n settings machine autoInstall = .ok start) (turns : List Turn) {o : Optimizer}
    (ho : start.afterTurns turns = o) {ingressEdge egressEdge : Link} {d : Device} {p : WdmPath}
    {x : Offer} (hx : o.outlook.offer? ingressEdge egressEdge d p = some x) :
    (∀ id s, x.signals.find? id = some s ↔
      ∃ m, Signal.OnGrid .ghz50 m ∧ s = .dwdm .ghz50 m ∧
        o.frequencies.channelId (.dwdm .ghz50 m) = .ok id ∧ 0 < id ∧
        ∀ cp ∈ p.route.hops, o.topology.IsOmsPort cp → o.ledger.HasFreeChannel cp m) ∧
      ∀ id m m', IsWord m → IsWord m' → o.frequencies.channelId (.dwdm .ghz50 m) = .ok id →
        o.frequencies.channelId (.dwdm .ghz50 m') = .ok id → m = m' := by
  subst ho
  have hgrid := onFlexGrid_afterTurns (catalog_ofNetwork h).2 turns
  refine ⟨fun id s => ?_, fun id m m' => FrequencyPlan.channelId_injective⟩
  rw [Outlook.find?_signals_iff hgrid hx]
  constructor
  · rintro ⟨m, hm, rfl, hrest⟩
    exact ⟨m, hm, rfl, hrest⟩
  · rintro ⟨m, hm, rfl, hrest⟩
    exact ⟨m, hm, rfl, hrest⟩

/-- The sample network while the anchor channel is reserved on its only line. -/
def sampleReserved : Optimizer := sampleStart.after (sampleRun.take 4)

/-- Of the two channels of the line only the one that is not reserved is offered. -/
theorem offered_exactly_sample :
    ∃ ingressEdge ∈ sampleReserved.topology.link? ⟨⟨"X", 2⟩, ⟨"A", 3⟩⟩,
    ∃ egressEdge ∈ sampleReserved.topology.link? ⟨⟨"B", 3⟩, ⟨"Y", 2⟩⟩,
    ∃ d ∈ sampleReserved.topology.device? "Y", ∃ p ∈ sampleReserved.catalog.toList,
    ∃ x ∈ sampleReserved.outlook.offer? ingressEdge egressEdge d p,
      x.signals.entries = [(37, .dwdm .ghz50 1)] ∧
      ((∀ id s, x.signals.find? id = some s ↔
        ∃ m, Signal.OnGrid .ghz50 m ∧ s = .dwdm .ghz50 m ∧
          sampleReserved.frequencies.channelId (.dwdm .ghz50 m) = .ok id ∧
          0 < id ∧ ∀ cp ∈ p.route.hops, sampleReserved.topology.IsOmsPort cp →
            sampleReserved.ledger.HasFreeChannel cp m) ∧
        ∀ id m m', IsWord m → IsWord m' →
          sampleReserved.frequencies.channelId (.dwdm .ghz50 m) = .ok id →
          sampleReserved.frequencies.channelId (.dwdm .ghz50 m') = .ok id → m = m') := by
  obtain ⟨ingressEdge, hingress, egressEdge, hegress, d, hd, p, hp, x, hx, hkeys⟩ :
      ∃ ingressEdge ∈ sampleReserved.topology.link? ⟨⟨"X", 2⟩, ⟨"A", 3⟩⟩,
      ∃ egressEdge ∈ sampleReserved.topology.link? ⟨⟨"B", 3⟩, ⟨"Y", 2⟩⟩,
      ∃ d ∈ sampleReserved.topology.device? "Y", ∃ p ∈ sampleReserved.catalog.toList,
      ∃ x ∈ sampleReserved.outlook.offer? ingressEdge egressEdge d p,
        x.signals.entries = [(37, .dwdm .ghz50 1)] := by
    decide +kernel
  have hrun : sampleStart.afterTurns ((sampleRun.take 4).map .call) = sampleReserved :=
    afterTurns_map_call sampleStart _
  exact ⟨ingressEdge, hingress, egressEdge, hegress, d, hd, p, hp, x, hx, hkeys,
    offered_exactly ofNetwork_sample ((sampleRun.take 4).map .call) hrun (Option.mem_def.1 hx)⟩

end Optimizer

end Lightpath

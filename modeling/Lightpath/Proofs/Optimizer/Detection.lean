import Lightpath.Proofs.Optimizer.Freshness
import Lightpath.Proofs.Wdm.Usable

/-!
# Detection — the flag misses no change that matters for routes

A call that changes the network judges its events by the topology after it. As long as the flag of an
optimizer stays down, a calculation would search the same links between the same ports as at the start
(`unchanged_while_fresh`): each call changes neither (`Topology.QuietStep`), and the details of the
links are not changed by any call.
-/

namespace Lightpath

variable {t t' : Topology}

theorem Topology.QuietStep.usableLinks (h : t.QuietStep t') (d : LinkDetails) :
    t'.usableLinks d = t.usableLinks d := by
  cases h with
  | unchanged hsame => rw [hsame]
  | linkState hset hquiet => exact usableLinks_setLinkState hset hquiet d
  | linkGone hremove hquiet => exact usableLinks_removeLink hremove hquiet d
  | deviceGone hremove hquiet => exact usableLinks_removeDevice hremove hquiet d

theorem Topology.QuietStep.portMap (h : t.QuietStep t') : Planner.portMap t' = Planner.portMap t := by
  cases h with
  | unchanged hsame => rw [hsame]
  | linkState hset => exact Planner.portMap_congr (deviceMap_setLinkState hset)
  | linkGone hremove => exact Planner.portMap_congr (deviceMap_removeLink hremove)
  | deviceGone hremove hquiet => exact Planner.portMap_removeDevice hremove hquiet

namespace Optimizer

/-- While the flag is down, calls that neither calculate the catalog nor force planning leave the usable
links with their lengths and the add/drop ports of every device as they were at the start. -/
theorem unchanged_while_fresh (start : Optimizer) (calls : List Call)
    (hcalls : ∀ c ∈ calls, c.scope? = none ∧ c.isForced = false)
    (hfresh : (start.after calls).stale = false) :
    (start.after calls).topology.usableLinks (start.after calls).details =
        start.topology.usableLinks start.details ∧
      Planner.portMap (start.after calls).topology = Planner.portMap start.topology := by
  suffices hall : (start.after calls).details = start.details ∧
      (start.after calls).topology.usableLinks start.details =
        start.topology.usableLinks start.details ∧
      Planner.portMap (start.after calls).topology = Planner.portMap start.topology by
    rw [hall.1]
    exact hall.2
  induction calls using List.reverseRecOn with
  | nil => exact ⟨rfl, rfl, rfl⟩
  | append_singleton calls c ih =>
    obtain ⟨hscope, hforced⟩ := hcalls c (List.mem_append_right _ (List.mem_singleton_self c))
    rw [after_append_singleton] at hfresh ⊢
    obtain ⟨hbefore, hdetails, hstep⟩ := fresh_before hscope hforced hfresh
    obtain ⟨hdetails', hlinks, hports⟩ :=
      ih (fun c' hc' => hcalls c' (List.mem_append_left _ hc')) hbefore
    exact ⟨hdetails.trans hdetails', (hstep.usableLinks _).trans hlinks, hstep.portMap.trans hports⟩

/-- The sample network with two more terminals joined to each other, and one whose line ends on itself. -/
def sampleSideNetwork : NetworkDocument :=
  { sampleNetwork with
    devices := sampleNetwork.devices ++
      [sampleTerminal "P", sampleTerminal "Q",
        ⟨"Z", .terminalDevice, "V", [⟨1, none, .oms, .line, true⟩, ⟨2, none, .oms, .line, true⟩], none⟩]
    links := sampleNetwork.links ++
      [⟨.between ⟨"P", 1⟩ ⟨"Q", 1⟩, true⟩, ⟨.between ⟨"Z", 1⟩ ⟨"Z", 2⟩, false⟩]
    details := sampleNetwork.details ++ [⟨⟨⟨"Z", 1⟩, ⟨"Z", 2⟩⟩, [.span "smf" 16.0 80000.0], false⟩] }

/-- The optimizer of that network. -/
def sampleSide : Optimizer :=
  match ofNetwork sampleSideNetwork sampleSettings default true with
  | .ok o => o
  | .error _ => default

/-- Everything that was added to the sample network goes again, and one call fails. -/
def sampleSideCalls : List Call :=
  [.setLinkState ⟨⟨"P", 1⟩, ⟨"Q", 1⟩⟩ .inactive, .removeLink ⟨⟨"Q", 1⟩, ⟨"P", 1⟩⟩, .removeDevice "Q",
    .removeDevice "Q", .removeDevice "Z"]

/-- The link from `Z` to itself goes without notice; the line of the sample network is still there. -/
theorem unchanged_while_fresh_sample : (∀ c ∈ sampleSideCalls, c.scope? = none ∧ c.isForced = false) ∧
    (sampleSide.after sampleSideCalls).stale = false ∧
    ((sampleSide.after sampleSideCalls).topology.usableLinks
          (sampleSide.after sampleSideCalls).details =
        sampleSide.topology.usableLinks sampleSide.details ∧
      Planner.portMap (sampleSide.after sampleSideCalls).topology =
        Planner.portMap sampleSide.topology) ∧
    (sampleSide.topology.usableLinks sampleSide.details).length = 2 ∧
      sampleSide.topology.links.length = 9 ∧
      (sampleSide.after sampleSideCalls).topology.links.length = 6 := by
  have hcalls : ∀ c ∈ sampleSideCalls, c.scope? = none ∧ c.isForced = false := by decide
  have hfresh : (sampleSide.after sampleSideCalls).stale = false := by decide +kernel
  exact ⟨hcalls, hfresh, unchanged_while_fresh sampleSide sampleSideCalls hcalls hfresh,
    by decide +kernel, by decide +kernel, by decide +kernel⟩

end Optimizer

end Lightpath

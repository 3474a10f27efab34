import Lightpath.Proofs.Optimizer.Lifecycle
import Lightpath.Proofs.Optimizer.Pairing
import Lightpath.Proofs.Optimizer.Stores

/-!
# Turns — what stays through a whole run

No turn of a run changes which slots exist on a port (`slots_afterTurns`), the ledger stays sound
(`sound_afterTurns`), and the stores stay consistent when the network changes from outside as well
(`consistent_afterTurns`). A run of calls alone adds no device and changes none
(`devicesWithin_after`).
-/

namespace Lightpath

namespace Optimizer

/-! ## The ledger -/

/-- Every turn works on the ledger by the ledger's own calls, and registers no slot. -/
theorem worked_turn (x : Turn) (o : Optimizer) : o.ledger.Worked (x.run o).ledger := by
  cases x with
  | call c => exact (storeSteps_run c o).ledger
  | network t d => exact .refl o.ledger

theorem worked_afterTurns (o : Optimizer) (turns : List Turn) :
    o.ledger.Worked (o.afterTurns turns).ledger := by
  induction turns using List.reverseRecOn with
  | nil => exact .refl o.ledger
  | append_singleton turns x ih =>
    rw [afterTurns_append_singleton]
    exact ih.trans (worked_turn x _)

/-- No turn changes which slots exist on a port. -/
theorem slots_afterTurns (o : Optimizer) (turns : List Turn) :
    (o.afterTurns turns).ledger.slots = o.ledger.slots :=
  (o.worked_afterTurns turns).slots

/-- In every state that a run reaches the ledger is sound. -/
theorem sound_afterTurns {start : Optimizer} (h : start.Idle) (turns : List Turn) :
    (start.afterTurns turns).ledger.Sound :=
  (Ledger.sound_of_unheld h.owners h.held).worked (start.worked_afterTurns turns)

/-! ## Consistency -/

/-- The stores stay consistent whatever turn is taken, if nothing is said about the topologies in which
groups were reserved. -/
theorem Consistent.turn {o : Optimizer} (h : o.Consistent fun _ _ => True) (x : Turn) :
    (x.run o).Consistent fun _ _ => True := by
  cases x with
  | network t d => exact ⟨h.coherent, h.exact, h.named, h.fresh, h.stage⟩
  | call c => exact h.run_keeps c (fun _ _ _ => trivial) fun _ _ _ _ _ _ _ _ _ => trivial

theorem Consistent.afterTurns {o : Optimizer} (h : o.Consistent fun _ _ => True)
    (turns : List Turn) : (o.afterTurns turns).Consistent fun _ _ => True := by
  induction turns using List.reverseRecOn with
  | nil => exact h
  | append_singleton turns x ih =>
    rw [afterTurns_append_singleton]
    exact ih.turn x

/-- Every state that a run reaches is consistent. -/
theorem consistent_afterTurns {start : Optimizer} (h : start.Idle) (turns : List Turn) :
    (start.afterTurns turns).Consistent fun _ _ => True :=
  (consistent_of_idle h _).afterTurns turns

/-! ## Devices -/

theorem devicesWithin_setLinkState (o : Optimizer) (ends : Ends) (state : LinkState) :
    DevicesWithin (o.setLinkState ends state).optimizer.topology o.topology := by
  unfold setLinkState Topology.setLinkState
  cases o.topology.link? ends with
  | none => exact .refl _
  | some l => exact fun _ _ h => h

theorem devicesWithin_removeLink (o : Optimizer) (ends : Ends) :
    DevicesWithin (o.removeLink ends).optimizer.topology o.topology := by
  unfold removeLink Topology.removeLink
  cases o.topology.link? ends with
  | none => exact .refl _
  | some l => exact fun _ _ h => h

theorem topology_calculateWdmPathsBy (o : Optimizer) (method : OsnrMethod)
    (ingress egress : Option ConnectPoint) :
    (o.calculateWdmPathsBy method ingress egress).optimizer.topology = o.topology := by
  unfold calculateWdmPathsBy
  split
  next => rfl
  next => split <;> rfl

/-- No call adds a device or changes one. -/
theorem devicesWithin_run (c : Call) (o : Optimizer) :
    DevicesWithin (c.run o).optimizer.topology o.topology := by
  have hsame {o' : Optimizer} (h : o'.topology = o.topology) :
      DevicesWithin o'.topology o.topology := by
    rw [h]
    exact .refl _
  cases c with
  | calculateWdmPaths ingress egress => exact hsame (o.topology_calculateWdmPathsBy _ ingress egress)
  | calculateWdmPathsBy method ingress egress =>
    exact hsame (o.topology_calculateWdmPathsBy method ingress egress)
  | calculateWavelengthPaths pairs force =>
    exact hsame (o.calculateWavelengthPaths_network pairs force).1.topology
  | reserve index ids names => exact hsame (o.sameNetwork_reserve index ids names).topology
  | submit group => exact hsame (o.sameNetwork_submit group).topology
  | remove group => exact hsame (o.sameNetwork_remove group).topology
  | install key => exact hsame (o.sameNetwork_install key).topology
  | withdraw key => exact hsame (o.sameNetwork_withdraw key).topology
  | setLinkState ends state => exact o.devicesWithin_setLinkState ends state
  | removeLink ends => exact o.devicesWithin_removeLink ends
  | removeDevice id =>
    simp only [Call.run, Optimizer.removeDevice]
    split
    next => exact .refl _
    next hremove => exact devicesWithin_removeDevice hremove

theorem devicesWithin_after (o : Optimizer) (calls : List Call) :
    DevicesWithin (o.after calls).topology o.topology := by
  induction calls generalizing o with
  | nil => exact .refl _
  | cons c rest ih =>
    rw [after_cons]
    exact (ih (c.run o).optimizer).trans (devicesWithin_run c o)

end Optimizer

end Lightpath

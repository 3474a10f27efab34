import Lightpath.Proofs.Optimizer.Lifecycle

/-!
# Exclusion — stored paths share neither ports nor spectrum

Every resource has one holder and stands once in its list. What a stored path needed when its group
was reserved is held under the key of the group, and a port that carries spectrum at present did so
at that time. So any two stored paths have disjoint boundary ports, and disjoint slots on every
common hop that carries spectrum (`WavelengthPath.SharesNothing`).
-/

namespace Lightpath

/-- Two paths have no boundary port in common, and no slot on a common hop that carries spectrum. -/
structure WavelengthPath.SharesNothing (t : Topology) (p q : WavelengthPath) : Prop where
  ports : ∀ cp ∈ p.leg.boundary, cp ∉ q.leg.boundary
  slots : ∀ cp ∈ p.leg.route.hops, cp ∈ q.leg.route.hops → t.carriesLambdas cp = true →
    ∀ slot ∈ p.signal.flexSlots, slot ∉ q.signal.flexSlots

namespace WavelengthPath

variable {t : Topology} {p : WavelengthPath} {cp : ConnectPoint}

theorem port_mem_resources (h : cp ∈ p.leg.boundary) : .port cp ∈ p.resources t :=
  List.mem_append_left _ (List.mem_map_of_mem h)

theorem lambda_mem_resources (hcp : cp ∈ p.leg.route.hops) (ht : t.carriesLambdas cp = true)
    {slot : Signal} (hslot : slot ∈ p.signal.flexSlots) : .lambda cp slot ∈ p.resources t := by
  apply List.mem_append_right
  refine List.mem_flatMap.2 ⟨cp, List.mem_filter.2 ⟨hcp, ht⟩, ?_⟩
  exact List.mem_map_of_mem hslot

/-- Paths whose needs are disjoint share nothing, also after ports stopped carrying spectrum. -/
theorem sharesNothing_of_disjoint {now tp tq : Topology} {p q : WavelengthPath}
    (hp : Optimizer.LambdasWithin now tp) (hq : Optimizer.LambdasWithin now tq)
    (h : ∀ r ∈ p.resources tp, r ∉ q.resources tq) : p.SharesNothing now q := by
  constructor
  · intro cp hcp hcp'
    exact h (.port cp) (port_mem_resources hcp) (port_mem_resources hcp')
  · intro cp hcp hcp' hnow slot hslot hslot'
    exact h (.lambda cp slot) (lambda_mem_resources hcp (hp cp hnow) hslot)
      (lambda_mem_resources hcp' (hq cp hnow) hslot')

end WavelengthPath

namespace Optimizer

/-! ## Ports never come to carry spectrum -/

theorem Consistent.lambdasWithin_run {reservedOn : Nat → Topology → Prop} {o : Optimizer}
    (h : o.Consistent reservedOn) (c : Call) :
    LambdasWithin (c.run o).optimizer.topology o.topology := by
  rcases h.run_cases c with hsame | ⟨g, held, -, htouches, -⟩
  · exact hsame.lambdas
  · rw [htouches.topology]
    intro cp hcp
    exact hcp

theorem lambdasWithin_after {start : Optimizer} (h : start.Idle) (calls more : List Call) :
    LambdasWithin (start.after (calls ++ more)).topology (start.after calls).topology := by
  induction more generalizing calls with
  | nil =>
    rw [List.append_nil]
    intro cp hcp
    exact hcp
  | cons c rest ih =>
    intro cp hcp
    rw [← List.singleton_append, ← List.append_assoc] at hcp
    have hstep := ih (calls ++ [c]) cp hcp
    rw [after_append_singleton] at hstep
    exact (consistent_after h calls).lambdasWithin_run c cp hstep

/-- A port that carries spectrum after a run carried it when any group was reserved in the run. -/
theorem lambdasWithin_of_reservedIn {start : Optimizer} (h : start.Idle) {calls : List Call}
    {g : Nat} {t : Topology} (ht : ReservedIn start calls g t) :
    LambdasWithin (start.after calls).topology t := by
  obtain ⟨before, index, ids, names, more, paths, rfl, -, -, -, rfl⟩ := ht
  exact lambdasWithin_after h before _

/-! ## One holder for every need -/

section Holders

variable {reservedOn : Nat → Topology → Prop} {o : Optimizer}

/-- The needs of different members of a list that names no resource twice are disjoint. -/
theorem disjoint_of_nodup_flatMap {t : Topology} {paths : List WavelengthPath}
    (h : (paths.flatMap (WavelengthPath.resources t)).Nodup) {p q : WavelengthPath}
    (hp : p ∈ paths) (hq : q ∈ paths) (hne : p ≠ q) : ∀ r ∈ p.resources t, r ∉ q.resources t := by
  induction paths with
  | nil => cases hp
  | cons a rest ih =>
    rw [List.flatMap_cons, List.nodup_append] at h
    obtain ⟨-, hrest, hdisjoint⟩ := h
    intro r hr hr'
    rcases List.mem_cons.1 hp with hpa | hp₁
    · subst hpa
      have hq₁ : q ∈ rest := (List.mem_cons.1 hq).resolve_left (Ne.symm hne)
      exact hdisjoint r hr r (List.mem_flatMap.2 ⟨q, hq₁, hr'⟩) rfl
    · rcases List.mem_cons.1 hq with hqa | hq₁
      · subst hqa
        exact hdisjoint r hr' r (List.mem_flatMap.2 ⟨p, hp₁, hr⟩) rfl
      · exact ih hrest hp₁ hq₁ r hr hr'

/-- The group of a stored path is in use. -/
theorem Consistent.taken_of_mem (h : o.Consistent reservedOn) {p : WavelengthPath}
    (hp : p ∈ o.paths.toList) :
    ∃ t, reservedOn p.group t ∧ (o.holding p.group).Taken t p.group := by
  refine (h.stage p.group).resolve_left ?_
  intro hfree
  have hnil : o.paths.legs p.group = [] := congrArg Holding.legs hfree
  have hmem : p ∈ o.paths.legs p.group := PathStore.mem_legs.2 ⟨hp, rfl⟩
  rw [hnil] at hmem
  cases hmem

/-- The needs of two stored paths are disjoint, each as of the reservation of its group. -/
theorem Consistent.disjoint_resources (h : o.Consistent reservedOn) {p q : WavelengthPath}
    (hp : p ∈ o.paths.toList) (hq : q ∈ o.paths.toList) (hne : p ≠ q) :
    ∃ tp tq, reservedOn p.group tp ∧ reservedOn q.group tq ∧
      ∀ r ∈ p.resources tp, r ∉ q.resources tq := by
  obtain ⟨tp, htp, htaken⟩ := h.taken_of_mem hp
  have hheld := htaken.inUse.resources
  by_cases hgroup : q.group = p.group
  · -- one group: its list of resources names nothing twice
    refine ⟨tp, tp, htp, hgroup ▸ htp, ?_⟩
    have hnodup := h.exact.nodup (intentKey p.group)
    rw [show o.ledger.allocations (intentKey p.group) = _ from hheld] at hnodup
    exact disjoint_of_nodup_flatMap hnodup (PathStore.mem_legs.2 ⟨hp, rfl⟩)
      (PathStore.mem_legs.2 ⟨hq, hgroup⟩) hne
  · -- two groups: a common resource would have two holders
    obtain ⟨tq, htq, htaken'⟩ := h.taken_of_mem hq
    have hheld' := htaken'.inUse.resources
    refine ⟨tp, tq, htp, htq, fun r hr hr' => hgroup (intentKey_injective ?_)⟩
    have hmem : r ∈ o.ledger.allocations (intentKey p.group) := by
      rw [show o.ledger.allocations (intentKey p.group) = _ from hheld]
      exact List.mem_flatMap.2 ⟨p, PathStore.mem_legs.2 ⟨hp, rfl⟩, hr⟩
    have hmem' : r ∈ o.ledger.allocations (intentKey q.group) := by
      rw [show o.ledger.allocations (intentKey q.group) = _ from hheld']
      exact List.mem_flatMap.2 ⟨q, PathStore.mem_legs.2 ⟨hq, rfl⟩, hr'⟩
    exact h.exact.owner_unique hmem' hmem

end Holders

/-! ## Runs -/

/-- After every run on a new optimizer, any two stored paths share neither a boundary port nor a
slot on a common hop that carries spectrum at present. -/
theorem paths_share_nothing {n : NetworkDocument} {settings : Settings}
    {machine : Machine} {autoInstall : Bool} {start : Optimizer}
    (h : ofNetwork n settings machine autoInstall = .ok start) (calls : List Call)
    {p q : WavelengthPath} (hp : p ∈ (start.after calls).paths.toList)
    (hq : q ∈ (start.after calls).paths.toList) (hne : p ≠ q) :
    p.SharesNothing (start.after calls).topology q := by
  have hidle := idle_ofNetwork h
  obtain ⟨tp, tq, htp, htq, hdisjoint⟩ :=
    (consistent_after hidle calls).disjoint_resources hp hq hne
  exact WavelengthPath.sharesNothing_of_disjoint (lambdasWithin_of_reservedIn hidle htp)
    (lambdasWithin_of_reservedIn hidle htq) hdisjoint

/-- The two paths of the sample run use the same line and share nothing. -/
theorem sample_paths_share_nothing :
    ∃ p ∈ (sampleStart.after sampleRun).paths.toList,
      ∃ q ∈ (sampleStart.after sampleRun).paths.toList,
        p.id = 1 ∧ q.id = 2 ∧ p.SharesNothing (sampleStart.after sampleRun).topology q := by
  have hids : (sampleStart.after sampleRun).paths.toList.map WavelengthPath.id = [1, 2] := by
    decide +kernel
  have hone : 1 ∈ (sampleStart.after sampleRun).paths.toList.map WavelengthPath.id := by
    rw [hids]
    decide
  have htwo : 2 ∈ (sampleStart.after sampleRun).paths.toList.map WavelengthPath.id := by
    rw [hids]
    decide
  obtain ⟨p, hp, hpid⟩ := List.mem_map.1 hone
  obtain ⟨q, hq, hqid⟩ := List.mem_map.1 htwo
  have hne : p ≠ q := fun he => by
    rw [he, hqid] at hpid
    cases hpid
  exact ⟨p, hp, q, hq, hpid, hqid, paths_share_nothing ofNetwork_sample sampleRun hp hq hne⟩

end Optimizer

end Lightpath

import Lightpath.Proofs.Optimizer.Calls
import Lightpath.Proofs.Wdm.Planner

/-!
# Computed paths — where the catalog comes from

Only a successful calculation changes the catalog: it puts the paths of one plan in the place of those
within its scope (`Computes`, `calculation_cases`). Every other call leaves the catalog as it is
(`run_of_scope?_eq_none`), and the calls about groups leave the network alone as well
(`SameNetwork`).
-/

namespace Lightpath

/-- The ports to which a call restricts a calculation of the catalog; `none` for any other call. -/
def Call.scope? : Call → Option (Option ConnectPoint × Option ConnectPoint)
  | .calculateWdmPaths ingress egress => some (ingress, egress)
  | .calculateWdmPathsBy _ ingress egress => some (ingress, egress)
  | _ => none

namespace Optimizer

/-! ## Calculations -/

/-- In this state the call calculates these paths for its scope. -/
structure Computes (o : Optimizer) (c : Call) (ingress egress : Option ConnectPoint)
    (paths : List WdmPath) : Prop where
  scope : c.scope? = some (ingress, egress)
  succeeds : (c.run o).result = .ok ()
  assembled : ∃ plan osnr, o.plannedRoutes ingress egress = .ok plan ∧
    osnr.length = (Planner.bothWays plan).length ∧ paths = Planner.assemble plan osnr
  state : (c.run o).optimizer =
    { o with catalog := (o.catalog.replace ingress egress paths).1, stale := false }

/-- A calculation fails without effect, or puts the paths of a plan into the catalog. -/
theorem calculation_cases {o : Optimizer} {c : Call} {ingress egress : Option ConnectPoint}
    (hscope : c.scope? = some (ingress, egress)) :
    ((c.run o).optimizer = o ∧ (c.run o).result ≠ .ok ()) ∨
      ∃ paths, o.Computes c ingress egress paths := by
  obtain ⟨method, hrun⟩ : ∃ method, c.run o = (o.calculateWdmPathsBy method ingress egress).void := by
    cases c with
    | calculateWdmPaths =>
      cases hscope
      exact ⟨o.osnrMethod, rfl⟩
    | calculateWdmPathsBy method =>
      cases hscope
      exact ⟨method, rfl⟩
    | _ => cases hscope
  cases hplan : o.plannedRoutes ingress egress with
  | error f =>
    left
    simp [hrun, calculateWdmPathsBy, hplan, Outcome.void, Except.map]
  | ok plan =>
    cases hpaths : Planner.evaluate method plan with
    | error f =>
      left
      simp [hrun, calculateWdmPathsBy, hplan, hpaths, Outcome.void, Except.map]
    | ok paths =>
      obtain ⟨osnr, ⟨hlength, -⟩, rfl⟩ := Planner.evaluate_eq_ok_iff.1 hpaths
      refine .inr ⟨_, hscope, ?_, ⟨plan, osnr, hplan, hlength, rfl⟩, ?_⟩
      · simp [hrun, calculateWdmPathsBy, hplan, hpaths, Outcome.void, Except.map]
      · simp [hrun, calculateWdmPathsBy, hplan, hpaths, Outcome.void]

/-- What a calculation gives holds for the topology in which it is made. -/
theorem Computes.isOutput {o : Optimizer} {c : Call} {ingress egress : Option ConnectPoint}
    {paths : List WdmPath} (h : o.Computes c ingress egress paths) :
    Planner.IsOutput o.topology o.settings.k ingress egress paths := by
  obtain ⟨plan, osnr, hplan, hlength, rfl⟩ := h.assembled
  exact Planner.isOutput_assemble hplan hlength

/-! ## Calls that calculate nothing -/

/-- Both states have the same network, catalog and settings. -/
structure SameNetwork (o o' : Optimizer) : Prop where
  settings : o'.settings = o.settings
  topology : o'.topology = o.topology
  details : o'.details = o.details
  catalog : o'.catalog = o.catalog
  stale : o'.stale = o.stale

theorem SameNetwork.refl (o : Optimizer) : SameNetwork o o := ⟨rfl, rfl, rfl, rfl, rfl⟩

theorem sameNetwork_reserve (o : Optimizer) (index : Nat) (ids : List Int) (names : List String) :
    SameNetwork o (o.reserve index ids names).optimizer := by
  unfold reserve reserveBy
  split
  next => exact .refl o
  next =>
    split
    next => exact .refl o
    next =>
      unfold reserveDemand
      simp only
      split <;> exact ⟨rfl, rfl, rfl, rfl, rfl⟩

theorem sameNetwork_submit (o : Optimizer) (group : Nat) :
    SameNetwork o (o.submit group).optimizer := by
  unfold submit
  simp only
  split
  next => exact .refl o
  next =>
    split
    next => exact .refl o
    next =>
      split
      next => exact .refl o
      next => exact ⟨rfl, rfl, rfl, rfl, rfl⟩

theorem sameNetwork_install (o : Optimizer) (key : IntentKey) :
    SameNetwork o (o.install key).optimizer := by
  unfold install
  split
  next => exact .refl o
  next => exact ⟨rfl, rfl, rfl, rfl, rfl⟩

/-- Deleting the paths of groups leaves the network alone. -/
theorem SameNetwork.foldl_dropGroup {o o' : Optimizer} (h : SameNetwork o o')
    (events : List IntentEvent) :
    SameNetwork o (events.foldl (fun o e => o.dropGroup e.intent.group) o') := by
  induction events generalizing o' with
  | nil => exact h
  | cons e rest ih => exact ih ⟨h.settings, h.topology, h.details, h.catalog, h.stale⟩

theorem sameNetwork_withdraw (o : Optimizer) (key : IntentKey) :
    SameNetwork o (o.withdraw key).optimizer := by
  unfold withdraw
  split
  next => exact .refl o
  next intents ledger events _ =>
    have hstart : SameNetwork o { o with intents, ledger } := ⟨rfl, rfl, rfl, rfl, rfl⟩
    exact hstart.foldl_dropGroup _

theorem sameNetwork_remove (o : Optimizer) (group : Nat) :
    SameNetwork o (o.remove group).optimizer := by
  unfold remove
  simp only
  split
  next => exact .refl o
  next =>
    split
    next => exact ⟨rfl, rfl, rfl, rfl, rfl⟩
    next => exact o.sameNetwork_withdraw _
    next => exact .refl o

/-- Planning candidates leaves the network and the catalog alone, and the flag unless it is forced. -/
theorem calculateWavelengthPaths_network (o : Optimizer) (pairs : List Ends) (force : Bool) :
    SameNetwork o { (o.calculateWavelengthPaths pairs force).optimizer with stale := o.stale } ∧
      ((o.calculateWavelengthPaths pairs force).optimizer.stale = o.stale ∨ force = true) := by
  unfold calculateWavelengthPaths
  split
  next => exact ⟨.refl o, .inl rfl⟩
  next =>
    split
    next => exact ⟨.refl o, .inl rfl⟩
    next hcheck =>
      split
      next => exact ⟨⟨rfl, rfl, rfl, rfl, rfl⟩, .inl rfl⟩
      next =>
        refine ⟨⟨rfl, rfl, rfl, rfl, rfl⟩, ?_⟩
        cases force with
        | true => exact .inr rfl
        | false =>
          left
          rw [Bool.not_false, Bool.true_and, Bool.not_eq_true] at hcheck
          exact hcheck.symm

/-- A call that calculates nothing leaves the catalog and the settings as they are. -/
theorem run_of_scope?_eq_none {c : Call} (h : c.scope? = none) (o : Optimizer) :
    (c.run o).optimizer.catalog = o.catalog ∧ (c.run o).optimizer.settings = o.settings := by
  have hsame {o' : Optimizer} (h : SameNetwork o o') :
      o'.catalog = o.catalog ∧ o'.settings = o.settings := ⟨h.catalog, h.settings⟩
  cases c with
  | calculateWdmPaths => cases h
  | calculateWdmPathsBy => cases h
  | calculateWavelengthPaths pairs force =>
    have hplan := (o.calculateWavelengthPaths_network pairs force).1
    exact ⟨hplan.catalog, hplan.settings⟩
  | reserve index ids names => exact hsame (o.sameNetwork_reserve index ids names)
  | submit group => exact hsame (o.sameNetwork_submit group)
  | remove group => exact hsame (o.sameNetwork_remove group)
  | install key => exact hsame (o.sameNetwork_install key)
  | withdraw key => exact hsame (o.sameNetwork_withdraw key)
  | setLinkState ends state =>
    simp only [Call.run, setLinkState]
    split <;> exact ⟨rfl, rfl⟩
  | removeLink ends =>
    simp only [Call.run, removeLink]
    split <;> exact ⟨rfl, rfl⟩
  | removeDevice id =>
    simp only [Call.run, removeDevice]
    split <;> exact ⟨rfl, rfl⟩

end Optimizer

end Lightpath

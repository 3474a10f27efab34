import Lightpath.Proofs.Optimizer.Calls
import Lightpath.Proofs.Resource.Requests
import Lightpath.Proofs.Wavelength.Ids

/-!
# Stores — what a call asks of the ledger and of the path store

An optimizer changes its ledger and its path store through their own calls only, registers no slot, and
stores no paths but those that a successful reservation answers (`storeSteps_run`). So what these calls
keep, whoever makes them, holds in every run of an optimizer.
-/

namespace Lightpath

/-- The paths of the group that a call reserves, if it is a reservation that succeeds. -/
def Call.reserved? (o : Optimizer) : Call → Option (List WavelengthPath)
  | .reserve index ids names => (o.reserve index ids names).result.toOption
  | _ => none

namespace Optimizer

variable {o o' o'' : Optimizer} {stored stored' : List WavelengthPath}

/-- The second state came from the first one by calls to the ledger that register no slot, and by calls to
the path store that stored the given paths. -/
structure StoreSteps (o o' : Optimizer) (stored : List WavelengthPath) : Prop where
  ledger : o.ledger.Worked o'.ledger
  paths : ∃ calls, o'.paths = o.paths.after calls ∧ o.paths.storedBy calls = stored

namespace StoreSteps

theorem refl (o : Optimizer) : StoreSteps o o [] := ⟨.refl _, [], rfl, rfl⟩

theorem trans (h : StoreSteps o o' stored) (h' : StoreSteps o' o'' stored') :
    StoreSteps o o'' (stored ++ stored') := by
  obtain ⟨calls, hpaths, rfl⟩ := h.paths
  obtain ⟨more, hpaths', rfl⟩ := h'.paths
  refine ⟨h.ledger.trans h'.ledger, calls ++ more, ?_, ?_⟩
  · rw [hpaths', hpaths, PathStore.after_append]
  · rw [PathStore.storedBy_append, hpaths]

theorem of_eq (hledger : o'.ledger = o.ledger) (hpaths : o'.paths = o.paths) : StoreSteps o o' [] :=
  ⟨hledger ▸ .refl _, [], hpaths, rfl⟩

end StoreSteps

theorem storeSteps_dropGroup (o : Optimizer) (g : Nat) : StoreSteps o (o.dropGroup g) [] :=
  ⟨.refl _, [.removeGroup g], rfl, rfl⟩

theorem storeSteps_foldl_dropGroup (o : Optimizer) (events : List IntentEvent) :
    StoreSteps o (events.foldl (fun o e => o.dropGroup e.intent.group) o) [] := by
  induction events generalizing o with
  | nil => exact .refl o
  | cons e rest ih => exact (o.storeSteps_dropGroup e.intent.group).trans (ih _)

theorem storeSteps_reserve (o : Optimizer) (index : Nat) (ids : List Int) (names : List String) :
    StoreSteps o (o.reserve index ids names).optimizer
      ((o.reserve index ids names).result.toOption.getD []) := by
  unfold reserve reserveBy
  cases Candidate.choose o.candidates index ids names with
  | error f => exact .refl o
  | ok c =>
    cases hd : c.demand o.topology ids with
    | error f => simp only [hd]; exact .refl o
    | ok d =>
      simp only [hd]
      have hreleased := Ledger.Worked.release o.ledger (intentKey (o.paths.lastGroupId + 1))
      unfold reserveDemand
      simp only [PathStore.issueGroup]
      split
      next => exact ⟨hreleased, [.issueGroup, .releaseGroup (o.paths.lastGroupId + 1)], rfl, rfl⟩
      next ledger hallocate =>
        refine ⟨hreleased.trans (.allocate hallocate), [.issueGroup, .add _], rfl, ?_⟩
        exact List.append_nil _

/-- A reservation that succeeds stores the paths of a candidate at the channels of its demand. -/
theorem reserve_eq_ok {index : Nat} {ids : List Int} {names : List String}
    (h : (o.reserve index ids names).result = .ok stored) :
    ∃ c d, Candidate.choose o.candidates index ids names = .ok c ∧ c.demand o.topology ids = .ok d ∧
      o.paths.issueGroup.2.putAll (c.paths (o.paths.lastGroupId + 1) ids names d.signals) =
        ((o.reserve index ids names).optimizer.paths, stored) := by
  unfold reserve reserveBy at h ⊢
  split at h
  next => cases h
  next c hc =>
    split at h
    next => cases h
    next d hd =>
      refine ⟨c, d, hc, hd, ?_⟩
      unfold reserveDemand at h ⊢
      simp only [PathStore.issueGroup] at h ⊢
      split at h
      next => cases h
      next =>
        cases h
        simp only [PathStore.add]

/-- Updating one path after the other is a sequence of updates, which ends where one fails. -/
theorem exists_calls_updateAll (s : PathStore) (paths : List WavelengthPath) :
    ∃ calls, (s.updateAll paths).1 = s.after calls ∧ s.storedBy calls = [] := by
  induction paths generalizing s with
  | nil => exact ⟨[], rfl, rfl⟩
  | cons p rest ih =>
    unfold PathStore.updateAll
    split
    next => exact ⟨[], rfl, rfl⟩
    next s' events hupdate =>
      obtain ⟨calls, hcalls, hstored⟩ := ih s'
      have hrun : PathStore.Call.run s (.update p) = s' := by
        simp only [PathStore.Call.run, hupdate]
      refine ⟨.update p :: calls, ?_, ?_⟩
      · show _ = (PathStore.Call.run s (.update p)).after calls
        rw [hrun]
        exact hcalls
      · show [] ++ (PathStore.Call.run s (.update p)).storedBy calls = []
        rw [hrun]
        exact hstored

theorem storeSteps_submit (o : Optimizer) (g : Nat) : StoreSteps o (o.submit g).optimizer [] := by
  unfold submit
  simp only
  split
  next => exact .refl o
  next =>
    split
    next => exact .refl o
    next =>
      split
      next => exact .refl o
      next => exact ⟨.refl _, exists_calls_updateAll _ _⟩

theorem storeSteps_install (o : Optimizer) (key : IntentKey) :
    StoreSteps o (o.install key).optimizer [] := by
  unfold install
  split <;> exact .of_eq rfl rfl

theorem storeSteps_withdraw (o : Optimizer) (key : IntentKey) :
    StoreSteps o (o.withdraw key).optimizer [] := by
  unfold withdraw IntentBook.withdraw
  cases o.intents.ready key [.installed, .failed] .withdrawRequested with
  | error f => exact .refl o
  | ok i =>
    -- the ledger releases the key before the paths are deleted
    have hreleased : StoreSteps o { o with
        intents := { o.intents with entries := o.intents.entries.erase key },
        ledger := o.ledger.release key } [] :=
      ⟨.release o.ledger key, [], rfl, rfl⟩
    exact hreleased.trans (storeSteps_foldl_dropGroup _ _)

theorem storeSteps_remove (o : Optimizer) (g : Nat) : StoreSteps o (o.remove g).optimizer [] := by
  unfold remove
  simp only
  split
  next => exact .refl o
  next =>
    split
    next =>
      have hreleased : StoreSteps o { o with ledger := o.ledger.release (intentKey g) } [] :=
        ⟨.release o.ledger _, [], rfl, rfl⟩
      exact hreleased.trans (storeSteps_dropGroup _ g)
    next => exact o.storeSteps_withdraw _
    next => exact .refl o

/-- What a call does to the ledger and to the path store. -/
theorem storeSteps_run (c : Call) (o : Optimizer) :
    StoreSteps o (c.run o).optimizer ((c.reserved? o).getD []) := by
  have hsame {o' : Optimizer} (h : SameGroups o o') : StoreSteps o o' [] := .of_eq h.ledger h.paths
  cases c with
  | calculateWdmPaths ingress egress => exact hsame (sameGroups_calculateWdmPathsBy o _ ingress egress)
  | calculateWdmPathsBy method ingress egress =>
    exact hsame (sameGroups_calculateWdmPathsBy o method ingress egress)
  | calculateWavelengthPaths pairs force =>
    exact hsame (sameGroups_calculateWavelengthPaths o pairs force)
  | reserve index ids names => exact o.storeSteps_reserve index ids names
  | submit g => exact o.storeSteps_submit g
  | remove g => exact o.storeSteps_remove g
  | setLinkState ends state => exact hsame (sameGroups_setLinkState o ends state)
  | removeLink ends => exact hsame (sameGroups_removeLink o ends)
  | removeDevice id => exact hsame (sameGroups_removeDevice o id)
  | install key => exact o.storeSteps_install key
  | withdraw key => exact o.storeSteps_withdraw key

end Optimizer

end Lightpath

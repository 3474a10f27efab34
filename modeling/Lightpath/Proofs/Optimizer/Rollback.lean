import Lightpath.Proofs.Optimizer.Lifecycle

/-!
# Rollback — a failing call leaves the state as it was

Some failures come after a call has changed the state: a refused reservation has taken a group id and
given back what its key held, and a submission enters its intent before it marks the paths. In every
state that a run reaches, the first is undone exactly and the second cannot fail any more. Planning
candidates is the exception: once past its own checks, a failing call leaves no candidates.
-/

namespace Lightpath

/-- Whether a call plans candidates and passes the checks of its ports and of the catalog's age. -/
def Call.passesChecks (o : Optimizer) : Call → Bool
  | .calculateWavelengthPaths pairs force =>
    (o.checkEndPorts [] (pairs.flatMap fun e => [e.src, e.dst])).isOk && (force || !o.stale)
  | _ => false

namespace Optimizer

variable {o : Optimizer} {f : Failure}

theorem calculateWdmPathsBy_of_error {method : OsnrMethod} {ingress egress : Option ConnectPoint}
    (h : (o.calculateWdmPathsBy method ingress egress).result = .error f) :
    (o.calculateWdmPathsBy method ingress egress).optimizer = o := by
  revert h
  unfold calculateWdmPathsBy
  split
  · exact fun _ => rfl
  · split
    · exact fun _ => rfl
    · intro h
      exact nomatch h

theorem calculateWavelengthPaths_of_error {pairs : List Ends} {force : Bool}
    (h : (o.calculateWavelengthPaths pairs force).result = .error f) :
    (o.calculateWavelengthPaths pairs force).optimizer =
      { o with candidates :=
          if (Call.calculateWavelengthPaths pairs force).passesChecks o then []
          else o.candidates } := by
  cases hports : o.checkEndPorts [] (pairs.flatMap fun e => [e.src, e.dst]) with
  | error f =>
    have hfails : (Call.calculateWavelengthPaths pairs force).passesChecks o = false := by
      simp only [Call.passesChecks, hports, Except.isOk, Except.toBool, Bool.false_and]
    simp only [calculateWavelengthPaths, hports, hfails, Bool.false_eq_true, if_false]
  | ok _ =>
    have hchecks : (Call.calculateWavelengthPaths pairs force).passesChecks o =
        !(!force && o.stale) := by
      simp only [Call.passesChecks, hports, Except.isOk, Except.toBool, Bool.true_and]
      cases force <;> simp
    rw [hchecks]
    by_cases hstale : (!force && o.stale) = true
    · simp only [calculateWavelengthPaths, hports, hstale, if_true, Bool.not_true,
        Bool.false_eq_true, if_false]
    · simp only [calculateWavelengthPaths, hports, hstale, Bool.not_false, if_true,
        Bool.false_eq_true, if_false] at h ⊢
      cases hplan : o.outlook.candidates pairs with
      | error f => rfl
      | ok candidates =>
        rw [hplan] at h
        cases h

theorem setLinkState_of_error {ends : Ends} {state : LinkState}
    (h : (o.setLinkState ends state).result = .error f) :
    (o.setLinkState ends state).optimizer = o := by
  revert h
  unfold setLinkState
  split
  · exact fun _ => rfl
  · intro h
    exact nomatch h

theorem removeLink_of_error {ends : Ends} (h : (o.removeLink ends).result = .error f) :
    (o.removeLink ends).optimizer = o := by
  revert h
  unfold removeLink
  split
  · exact fun _ => rfl
  · intro h
    exact nomatch h

theorem removeDevice_of_error {id : DeviceId} (h : (o.removeDevice id).result = .error f) :
    (o.removeDevice id).optimizer = o := by
  revert h
  unfold removeDevice
  split
  · exact fun _ => rfl
  · intro h
    exact nomatch h

theorem result_of_void {α : Type} {x : Outcome α} (h : x.void.result = .error f) :
    x.result = .error f := by
  cases hx : x.result with
  | error f' =>
    rw [Outcome.void, hx] at h
    cases h
    rfl
  | ok a =>
    rw [Outcome.void, hx] at h
    cases h

/-- In a consistent state a failing call is undone, but for the candidates of a failed planning. -/
theorem Consistent.run_of_error {reservedOn : Nat → Topology → Prop} (h : o.Consistent reservedOn)
    {c : Call} (hf : (c.run o).result = .error f) :
    (c.run o).optimizer =
      { o with candidates := if c.passesChecks o then [] else o.candidates } := by
  cases c with
  | calculateWdmPaths ingress egress => exact calculateWdmPathsBy_of_error (result_of_void hf)
  | calculateWdmPathsBy method ingress egress =>
    exact calculateWdmPathsBy_of_error (result_of_void hf)
  | calculateWavelengthPaths pairs force =>
    exact calculateWavelengthPaths_of_error (result_of_void hf)
  | setLinkState ends state => exact setLinkState_of_error hf
  | removeLink ends => exact removeLink_of_error hf
  | removeDevice id => exact removeDevice_of_error hf
  | reserve index ids names =>
    rcases h.reserve_cases index ids names with ⟨f', hf'⟩ | ⟨held, o', hok, -⟩
    · simp only [Call.run, Outcome.void, hf']
      rfl
    · simp only [Call.run, Outcome.void, hok] at hf
      cases hf
  | submit g =>
    rcases h.submit_cases g with ⟨f', hf'⟩ | ⟨t, held, o', hok, -⟩
    · simp only [Call.run, Outcome.void, hf']
      rfl
    · simp only [Call.run, Outcome.void, hok] at hf
      cases hf
  | remove g =>
    rcases h.remove_cases g with ⟨f', hf'⟩ | ⟨o', hok, -⟩
    · simp only [Call.run, Outcome.void, hf']
      rfl
    · simp only [Call.run, Outcome.void, hok] at hf
      cases hf
  | install key =>
    rcases h.install_cases key with ⟨f', hf'⟩ | ⟨g, t, i, o', hok, -⟩
    · simp only [Call.run, hf']
      rfl
    · simp only [Call.run, hok] at hf
      cases hf
  | withdraw key =>
    rcases h.withdraw_cases key with ⟨f', hf'⟩ | ⟨g, t, o', hok, -⟩
    · simp only [Call.run, hf']
      rfl
    · simp only [Call.run, hok] at hf
      cases hf

/-- After every run, a failing call leaves the whole state as it was, except that planning candidates
leaves none once it is past its own checks. -/
theorem failed_call_restores {start : Optimizer} (h : start.Idle) (calls : List Call) (c : Call)
    (hf : (c.run (start.after calls)).result = .error f) :
    (c.run (start.after calls)).optimizer =
      { start.after calls with
        candidates := if c.passesChecks (start.after calls) then []
          else (start.after calls).candidates } :=
  (consistent_after h calls).run_of_error hf

/-- In the sample run the channel of a stored path cannot be reserved again: the new group id and
everything else is given back. -/
theorem failed_call_restores_sample :
    ∃ f, ((Call.reserve 1 [37] []).run (sampleStart.after sampleRun)).result = .error f ∧
      ((Call.reserve 1 [37] []).run (sampleStart.after sampleRun)).optimizer =
        sampleStart.after sampleRun := by
  have hfails : ((Call.reserve 1 [37] []).run (sampleStart.after sampleRun)).result.isOk = false := by
    decide +kernel
  obtain ⟨f, hf⟩ : ∃ f, ((Call.reserve 1 [37] []).run (sampleStart.after sampleRun)).result =
      .error f := by
    cases hresult : ((Call.reserve 1 [37] []).run (sampleStart.after sampleRun)).result with
    | ok _ =>
      rw [hresult] at hfails
      cases hfails
    | error f => exact ⟨f, rfl⟩
  -- a reservation does not plan, in whatever state
  have hkept (o : Optimizer) : { o with candidates :=
      if (Call.reserve 1 [37] []).passesChecks o then [] else o.candidates } = o := rfl
  have hrestores := failed_call_restores (idle_ofNetwork ofNetwork_sample) sampleRun
    (.reserve 1 [37] []) hf
  exact ⟨f, hf, hrestores.trans (hkept _)⟩

end Optimizer

end Lightpath

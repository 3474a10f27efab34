import Lightpath.Proofs.Optimizer.Rollback
import Lightpath.Proofs.Optimizer.Turns
import Lightpath.Proofs.Wavelength.Lives

/-!
# The journal of a run — a complete log of the reserved paths

Whatever an optimizer does to its path store, it does by orderly calls, and it logs what these report and
nothing else (`Logs`). So a listener of the log knows the stored paths at any time, and the log tells the life
of every path, which is added unsubmitted, may be submitted once and may be removed in the end (`Logged`).
-/

namespace Lightpath

namespace Optimizer

variable {o o' o'' : Optimizer}

/-! ## What is logged -/

/-- The second state came from the first one by orderly calls to the path store, whose reports were added to
the log. -/
def Logs (o o' : Optimizer) : Prop :=
  ∃ calls, o.paths.OrderlyCalls calls ∧ o'.paths = o.paths.after calls ∧
    o'.log = o.log ++ o.paths.events calls

namespace Logs

theorem of_eq (hpaths : o'.paths = o.paths) (hlog : o'.log = o.log) : Logs o o' :=
  ⟨[], trivial, hpaths, hlog.trans (List.append_nil _).symm⟩

theorem refl (o : Optimizer) : Logs o o := .of_eq rfl rfl

theorem trans (h : Logs o o') (h' : Logs o' o'') : Logs o o'' := by
  obtain ⟨calls, horderly, hpaths, hlog⟩ := h
  obtain ⟨more, horderly', hpaths', hlog'⟩ := h'
  rw [hpaths] at horderly' hpaths' hlog'
  refine ⟨calls ++ more, horderly.append horderly', ?_, ?_⟩
  · rw [hpaths', PathStore.after_append]
  · rw [hlog', hlog, PathStore.events_append, List.append_assoc]

/-- The log only grows. -/
theorem log_grows (h : Logs o o') : o.log <+: o'.log := by
  obtain ⟨calls, -, -, hlog⟩ := h
  exact ⟨_, hlog.symm⟩

theorem recorded (h : Logs o o') (ho : o.paths.Recorded o.log) : o'.paths.Recorded o'.log := by
  obtain ⟨calls, horderly, hpaths, hlog⟩ := h
  rw [hpaths, hlog]
  exact ho.after horderly

end Logs

theorem logs_dropGroup (o : Optimizer) (g : Nat) : Logs o (o.dropGroup g) :=
  ⟨[.removeGroup g], ⟨trivial, trivial⟩, rfl, congrArg (o.log ++ ·) (List.append_nil _).symm⟩

theorem logs_foldl_dropGroup (o : Optimizer) (events : List IntentEvent) :
    Logs o (events.foldl (fun o e => o.dropGroup e.intent.group) o) := by
  induction events generalizing o with
  | nil => exact .refl o
  | cons e rest ih => exact (o.logs_dropGroup e.intent.group).trans (ih _)

theorem logs_reserve (o : Optimizer) (index : Nat) (ids : List Int) (names : List String) :
    Logs o (o.reserve index ids names).optimizer := by
  unfold reserve reserveBy
  split
  next => exact .refl o
  next c hc =>
    split
    next => exact .refl o
    next d hd =>
      unfold reserveDemand
      simp only [PathStore.issueGroup]
      split
      next =>
        refine ⟨[.issueGroup, .releaseGroup (o.paths.lastGroupId + 1)], ⟨trivial, trivial, trivial⟩, rfl, ?_⟩
        exact (List.append_nil _).symm
      next =>
        refine ⟨[.issueGroup, .add _], ⟨trivial, fun p hp => ?_, trivial⟩, rfl, ?_⟩
        · exact (Candidate.mem_paths hp).2
        · exact congrArg (o.log ++ ·) (List.append_nil _).symm

theorem logs_submit (h : o.paths.Indexed) (g : Nat) : Logs o (o.submit g).optimizer := by
  unfold submit
  simp only
  split
  next => exact .refl o
  next =>
    split
    next => exact .refl o
    next hunsubmitted =>
      split
      next => exact .refl o
      next =>
        rw [h.getGroup_eq_legs] at hunsubmitted ⊢
        obtain ⟨calls, horderly, hmarked⟩ := h.updateAll_marked (h.legs_ascending g)
          (fun p hp => (PathStore.mem_legs.1 hp).1) (by simpa using hunsubmitted)
        rw [hmarked]
        exact ⟨calls, horderly, rfl, rfl⟩

theorem logs_install (o : Optimizer) (key : IntentKey) : Logs o (o.install key).optimizer := by
  unfold install
  split <;> exact .of_eq rfl rfl

theorem logs_withdraw (o : Optimizer) (key : IntentKey) : Logs o (o.withdraw key).optimizer := by
  unfold withdraw
  split
  next => exact .refl o
  next intents ledger events _ =>
    have hledger : Logs o { o with intents, ledger } := .of_eq rfl rfl
    exact hledger.trans (logs_foldl_dropGroup _ _)

theorem logs_remove (o : Optimizer) (g : Nat) : Logs o (o.remove g).optimizer := by
  unfold remove
  simp only
  split
  next => exact .refl o
  next =>
    split
    next =>
      have hledger : Logs o { o with ledger := o.ledger.release (intentKey g) } := .of_eq rfl rfl
      exact hledger.trans (logs_dropGroup _ g)
    next => exact o.logs_withdraw _
    next => exact .refl o

theorem logs_calculateWdmPathsBy (o : Optimizer) (method : OsnrMethod)
    (ingress egress : Option ConnectPoint) :
    Logs o (o.calculateWdmPathsBy method ingress egress).optimizer := by
  unfold calculateWdmPathsBy
  split
  next => exact .refl o
  next => split <;> exact .of_eq rfl rfl

theorem logs_calculateWavelengthPaths (o : Optimizer) (pairs : List Ends) (force : Bool) :
    Logs o (o.calculateWavelengthPaths pairs force).optimizer := by
  unfold calculateWavelengthPaths
  split
  next => exact .refl o
  next =>
    split
    next => exact .refl o
    next => split <;> exact .of_eq rfl rfl

/-- Every call logs what the path store reports. -/
theorem logs_run (h : o.paths.Indexed) (c : Call) : Logs o (c.run o).optimizer := by
  cases c with
  | calculateWdmPaths ingress egress => exact o.logs_calculateWdmPathsBy _ ingress egress
  | calculateWdmPathsBy method ingress egress =>
    exact o.logs_calculateWdmPathsBy method ingress egress
  | calculateWavelengthPaths pairs force => exact o.logs_calculateWavelengthPaths pairs force
  | reserve index ids names => exact o.logs_reserve index ids names
  | submit g => exact logs_submit h g
  | remove g => exact o.logs_remove g
  | setLinkState ends state =>
    simp only [Call.run, setLinkState]
    split <;> exact .of_eq rfl rfl
  | removeLink ends =>
    simp only [Call.run, removeLink]
    split <;> exact .of_eq rfl rfl
  | removeDevice id =>
    simp only [Call.run, removeDevice]
    split <;> exact .of_eq rfl rfl
  | install key => exact o.logs_install key
  | withdraw key => exact o.logs_withdraw key

theorem logs_turn (h : o.paths.Indexed) (x : Turn) : Logs o (x.run o) := by
  cases x with
  | call c => exact logs_run h c
  | network t d => exact .of_eq rfl rfl

/-! ## The log of a run -/

section Reached

variable {n : NetworkDocument} {settings : Settings} {machine : Machine} {autoInstall : Bool}
  {start : Optimizer}

/-- A new optimizer has an empty log. -/
theorem log_ofNetwork (h : ofNetwork n settings machine autoInstall = .ok start) : start.log = [] := by
  obtain ⟨t, -, rfl⟩ := ofNetwork_eq_ok h
  rfl

/-- After every turn the log tells the lives of all paths, and it is what orderly calls reported. -/
theorem recorded_afterTurns (h : ofNetwork n settings machine autoInstall = .ok start)
    (turns : List Turn) :
    (start.afterTurns turns).paths.Recorded (start.afterTurns turns).log ∧
      Logs start (start.afterTurns turns) := by
  have hstart : start.paths.Recorded start.log := by
    rw [log_ofNetwork h, (idle_ofNetwork h).paths]
    exact PathStore.recorded_empty
  induction turns using List.reverseRecOn with
  | nil => exact ⟨hstart, .refl start⟩
  | append_singleton turns x ih =>
    obtain ⟨hrecorded, hlogs⟩ := ih
    have hturn := logs_turn hrecorded.indexed x
    rw [afterTurns_append_singleton]
    exact ⟨hturn.recorded hrecorded, hlogs.trans hturn⟩

/-- What the log of an optimizer tells. -/
structure Logged (o : Optimizer) : Prop where
  /-- It is what calls to an empty path store reported. -/
  source : ∃ calls, o.paths = ({} : PathStore).after calls ∧ o.log = ({} : PathStore).events calls
  /-- A listener that was there from the start ends with the stored paths. -/
  stored : o.log.foldl PathEvent.heard [] = o.paths.toList
  /-- Every event fits what the listener knows when the event comes. -/
  fits : Replays [] o.log o.paths.toList
  /-- The events about an id tell a life: the path is added unsubmitted, is updated at most once, as submitted,
  and is removed at most once, in the end. -/
  life : ∀ id, Life (eventsOf o.log id) (o.paths.get? id)
  /-- Every path that was stored has its events. -/
  given : ∀ id, eventsOf o.log id ≠ [] ↔ 0 < id ∧ id ≤ o.paths.lastPathId
  /-- No turn takes anything out of the log, and a call that fails adds nothing to it. -/
  grows : ∀ x : Turn, o.log <+: (x.run o).log
  failing : ∀ (c : Call) (f : Failure), (c.run o).result = .error f → (c.run o).optimizer.log = o.log

theorem logged_afterTurns (h : ofNetwork n settings machine autoInstall = .ok start)
    (turns : List Turn) : (start.afterTurns turns).Logged := by
  obtain ⟨hrecorded, calls, -, hpaths, hlog⟩ := recorded_afterTurns h turns
  have hidle := idle_ofNetwork h
  rw [hidle.paths] at hpaths
  rw [hidle.paths, log_ofNetwork h, List.nil_append] at hlog
  have hreplays : Replays [] (start.afterTurns turns).log (start.afterTurns turns).paths.toList := by
    rw [hlog, hpaths]
    exact PathStore.indexed_empty.replays_after calls
  constructor
  case source => exact ⟨calls, hpaths, hlog⟩
  case stored => exact hreplays.foldl_heard
  case fits => exact hreplays
  case life => exact hrecorded.life
  case given => exact hrecorded.given
  case grows => exact fun x => (logs_turn hrecorded.indexed x).log_grows
  case failing =>
    intro c f hf
    rw [(consistent_afterTurns hidle turns).run_of_error hf]

end Reached

/-- The events of a path store are a complete log of any calls, and the log of an optimizer is one of any
run on a network. -/
theorem events_complete_log :
    (∀ calls : List PathStore.Call, PathStore.CompleteLog calls) ∧
      ∀ n settings machine autoInstall start, ofNetwork n settings machine autoInstall = .ok start →
        ∀ turns, (start.afterTurns turns).Logged :=
  ⟨PathStore.completeLog, fun _ _ _ _ _ h turns => logged_afterTurns h turns⟩

/-- The sample run goes on: the submitted group is withdrawn, a submission of it fails, and the other group
is removed. -/
def sampleEnd : List Call := sampleRun ++ [.withdraw (intentKey 1), .submit 1, .remove 2]

/-- Its log tells the lives of two paths, of which nothing is stored any more. -/
theorem events_complete_log_sample :
    (sampleStart.afterTurns (sampleEnd.map .call)).Logged ∧
      (sampleStart.after sampleEnd).log.map (fun e => (e.name, e.path.id, e.path.submitted)) =
        [("PATH_ADDED", 1, false), ("PATH_UPDATED", 1, true), ("PATH_ADDED", 2, false),
          ("PATH_REMOVED", 1, true), ("PATH_REMOVED", 2, false)] ∧
      (sampleStart.after sampleEnd).paths.toList.map WavelengthPath.id = [] := by
  refine ⟨events_complete_log.2 _ _ _ _ _ ofNetwork_sample _, ?_⟩
  decide +kernel

end Optimizer

end Lightpath

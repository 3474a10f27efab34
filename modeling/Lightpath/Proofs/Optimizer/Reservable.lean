import Lightpath.Proofs.Optimizer.Turns
import Lightpath.Proofs.Wavelength.Offered

/-!
# Reservable — which offered frequencies can be reserved

A frequency that planning has offered is reserved at once if its request names nothing twice: all that
it names is free (`Consistent.reserve_single_iff`). So whether the reservation succeeds depends on the
route alone, which may meet a port with spectrum twice (`offered_reservable_iff`).
-/

namespace Lightpath

/-- One frequency id and at most one name fit a single candidate. -/
theorem Candidate.choose_single {candidates : List Candidate} {i : Nat} {x : Offer}
    (hc : candidates[i]? = some (.single x)) (id : Int) {names : List String}
    (hnames : names.length ≤ 1) : choose candidates (i + 1) [id] names = .ok (.single x) := by
  have hne : candidates.isEmpty = false := by
    cases candidates with
    | nil => cases hc
    | cons c rest => rfl
  have hshort : ¬ names.length > 1 := by omega
  simp [choose, hne, hc, hshort, offers]

namespace Optimizer

variable {reservedOn : Nat → Topology → Prop} {o : Optimizer}

/-! ## Reserving what is free -/

/-- A demand of free resources is granted exactly if it names nothing twice. -/
theorem Consistent.isOk_reserveDemand_iff (h : o.Consistent reservedOn) (c : Candidate)
    (ids : List Int) (names : List String) {d : Demand}
    (hfree : ∀ r ∈ d.resources, o.ledger.isAvailable r = true) :
    (o.reserveDemand Ledger.allocate c ids names d).result.isOk = true ↔ d.resources.Nodup := by
  -- the key of the new group holds nothing that would have to be given back
  have hunheld : o.ledger.allocations (intentKey (o.paths.lastGroupId + 1)) = [] :=
    congrArg Holding.resources (h.fresh (o.paths.lastGroupId + 1) (Nat.lt_succ_self _))
  have hrelease := h.exact.release_eq_self hunheld
  simp only [reserveDemand, PathStore.issueGroup, hrelease]
  cases hl : o.ledger.allocate (intentKey (o.paths.lastGroupId + 1)) d.resources with
  | error f =>
    refine iff_of_false (by simp [Except.isOk, Except.toBool]) ?_
    intro hnodup
    have hok := Ledger.allocate_eq_ok_iff.2 ⟨hnodup, fun r hr =>
      Ledger.isFreeFor_of_isAvailable (hfree r hr) (intentKey (o.paths.lastGroupId + 1)), rfl⟩
    rw [hl] at hok
    cases hok
  | ok ledger =>
    have hnodup := (Ledger.allocate_eq_ok_iff.1 hl).1
    exact iff_of_true rfl hnodup

/-- A single candidate whose ports are enabled and whose request is free is reserved exactly if its
boundary ports are different and its route meets no port with spectrum twice. -/
theorem Consistent.reserve_single_iff (h : o.Consistent reservedOn) {i : Nat} {x : Offer}
    (hc : o.candidates[i]? = some (.single x)) {id : Int} {s : Signal}
    (hs : x.signals.find? id = some s)
    (henabled : ∀ cp ∈ x.leg.boundary, o.topology.isEnabled cp = true)
    (hfree : ∀ r ∈ x.request o.topology s, o.ledger.isAvailable r = true) {names : List String}
    (hnames : names.length ≤ 1) :
    (o.reserve (i + 1) [id] names).result.isOk = true ↔
      x.leg.boundary.Nodup ∧ (o.topology.lambdaHops x.leg.route).Nodup := by
  simp only [reserve, reserveBy, Candidate.choose_single hc id hnames]
  cases hd : (Candidate.single x).demand o.topology [id] with
  | error f =>
    refine iff_of_false (by simp [Except.isOk, Except.toBool]) ?_
    rintro ⟨-, hhops⟩
    have hok := (Offer.demand_single_iff henabled hs).2 ⟨hhops, rfl⟩
    rw [hd] at hok
    cases hok
  | ok d =>
    obtain ⟨-, rfl⟩ := (Offer.demand_single_iff henabled hs).1 hd
    show (o.reserveDemand Ledger.allocate _ _ _ _).result.isOk = true ↔ _
    rw [h.isOk_reserveDemand_iff (.single x) [id] names hfree]
    exact Offer.nodup_request_iff

/-! ## Planned candidates -/

/-- Planning that succeeds checks the ports, computes candidates from the present state, and changes
nothing but the candidates and the flag. -/
theorem calculateWavelengthPaths_eq_ok {pairs : List Ends} {force : Bool}
    {candidates : List Candidate}
    (h : (o.calculateWavelengthPaths pairs force).result = .ok candidates) :
    o.checkEndPorts [] (pairs.flatMap fun e => [e.src, e.dst]) = .ok () ∧
      o.outlook.candidates pairs = .ok candidates ∧
      (o.calculateWavelengthPaths pairs force).optimizer = { o with candidates, stale := false } := by
  unfold calculateWavelengthPaths at h ⊢
  split at h
  next => cases h
  next hports =>
    split at h
    next => cases h
    next hfresh =>
      split at h
      next => cases h
      next planned hplanned =>
        cases h
        rw [if_neg hfresh, hplanned, hports]
        exact ⟨rfl, rfl, rfl⟩

theorem of_checkOchPort {cp : ConnectPoint} (h : o.checkOchPort cp = .ok ()) :
    ∃ d, o.topology.device? cp.device = some d ∧ d.kind.isRoadm = false := by
  unfold checkOchPort at h
  split at h
  next => cases h
  next d hd =>
    split at h
    next => cases h
    next =>
      split at h
      next => cases h
      next hkind =>
        rw [Bool.or_eq_true, not_or, Bool.not_eq_true] at hkind
        exact ⟨d, hd, hkind.1⟩

/-- The two ports of a pair that passes the check are different OCH ports of transponders. -/
theorem of_checkEndPorts_pair {a b : ConnectPoint} (h : o.checkEndPorts [] [a, b] = .ok ()) :
    o.checkOchPort a = .ok () ∧ o.checkOchPort b = .ok () ∧ a ≠ b := by
  simp only [checkEndPorts, List.not_mem_nil, if_false, List.mem_singleton] at h
  split at h
  next => cases h
  next ha =>
    split at h
    next => cases h
    next hb =>
      split at h
      next => cases h
      next hne => exact ⟨ha, hb, Ne.symm hne⟩

/-- A port of a transponder was no add/drop port, as long as devices do not change. -/
theorem ne_of_checkOchPort {t : Topology} {cp cp' : ConnectPoint} (hwithin : DevicesWithin o.topology t)
    (hcp : o.checkOchPort cp = .ok ()) (hcp' : t.isAddDropPort cp' = true) : cp ≠ cp' := by
  rintro rfl
  obtain ⟨d, hd, hkind⟩ := of_checkOchPort hcp
  rw [Topology.isAddDropPort, hwithin _ _ hd, Option.any_some, Device.isAddDropPort, hkind] at hcp'
  cases hcp'

/-- The add and the drop port of an offer were add/drop ports of two devices when the path of the offer
was computed, and no device that is there now was changed since then. -/
theorem exists_joins_of_checked {start : Optimizer} (hempty : start.catalog = {}) {calls : List Call}
    {e : Ends} {x : Offer} (hx : (start.after calls).outlook.Checked e x) :
    ∃ t, DevicesWithin (start.after calls).topology t ∧ t.isAddDropPort x.leg.addPort = true ∧
      t.isAddDropPort x.leg.dropPort = true ∧ x.leg.addPort.device ≠ x.leg.dropPort.device := by
  have hprovides := provides hempty (calls.map .call)
  rw [← afterTurns_map_call] at hx
  obtain ⟨p, hmem, hends, -⟩ := hx.exists_path hprovides.paired.coherent
  obtain ⟨before, c, more, -, -, -, hturns, -, -, hjoins⟩ := hprovides.added p hmem
  -- the turns before the calculation are calls as well
  obtain ⟨past, rest, rfl, rfl, -⟩ := List.map_eq_append_iff.1 hturns
  rw [afterTurns_map_call] at hjoins
  obtain ⟨hadd, hdrop, hapart, -, -, -⟩ := hjoins
  rw [hends] at hadd hdrop hapart
  refine ⟨(start.after past).topology, ?_, hadd, hdrop, hapart⟩
  rw [after_append]
  exact devicesWithin_after (start.after past) rest

/-- In a run of calls the four boundary ports of an offer are different ones. -/
theorem nodup_boundary {start : Optimizer} (hempty : start.catalog = {}) {calls : List Call}
    {e : Ends} {x : Offer} (hports : (start.after calls).checkEndPorts [] [e.src, e.dst] = .ok ())
    (hx : (start.after calls).outlook.Checked e x) : x.leg.boundary.Nodup := by
  obtain ⟨hsrc, hdst, hne⟩ := of_checkEndPorts_pair hports
  rw [← hx.src] at hsrc hne
  rw [← hx.dst] at hdst hne
  obtain ⟨t, hwithin, hadd, hdrop, hdevices⟩ := exists_joins_of_checked hempty hx
  have hapart : x.leg.addPort ≠ x.leg.dropPort := fun h => hdevices (congrArg ConnectPoint.device h)
  -- ports of transponders are no add/drop ports, so only ports of one kind are left to compare
  have hsrcAdd := ne_of_checkOchPort hwithin hsrc hadd
  have hsrcDrop := ne_of_checkOchPort hwithin hsrc hdrop
  have hdstAdd := ne_of_checkOchPort hwithin hdst hadd
  have hdstDrop := ne_of_checkOchPort hwithin hdst hdrop
  simp only [Leg.boundary, List.nodup_cons, List.mem_cons, List.not_mem_nil, or_false, not_or,
    not_false_iff, List.nodup_nil, and_true]
  exact ⟨⟨hne, hsrcAdd, hsrcDrop⟩, ⟨hdstAdd, hdstDrop⟩, hapart⟩

/-! ## Whole runs -/

/-- A new optimizer has computed nothing, and registers slots of the flex grid. -/
theorem catalog_ofNetwork {n : NetworkDocument} {settings : Settings} {machine : Machine}
    {autoInstall : Bool} (h : ofNetwork n settings machine autoInstall = .ok o) :
    o.catalog = {} ∧ o.ledger.OnFlexGrid := by
  obtain ⟨t, -, rfl⟩ := ofNetwork_eq_ok h
  exact ⟨rfl, Ledger.onFlexGrid_empty.registerSpectrum t _⟩

/-- In every state that a run reaches only slots of the flex grid are registered. -/
theorem onFlexGrid_afterTurns {start : Optimizer} (h : start.ledger.OnFlexGrid) (turns : List Turn) :
    (start.afterTurns turns).ledger.OnFlexGrid := by
  unfold Ledger.OnFlexGrid Ledger.registered
  rw [slots_afterTurns]
  exact h

/-- After every run, a frequency that planning has just offered for one port pair, between enabled
ports, is reserved exactly if the boundary ports are different and the route meets no port with
spectrum twice. The boundary ports are different unless the network was changed from outside. -/
theorem offered_reservable_iff {n : NetworkDocument} {settings : Settings}
    {machine : Machine} {autoInstall : Bool} {start : Optimizer}
    (h : ofNetwork n settings machine autoInstall = .ok start) (turns : List Turn) {e : Ends}
    {force : Bool} {candidates : List Candidate} {o : Optimizer}
    (hplan : (start.afterTurns turns).calculateWavelengthPaths [e] force = ⟨o, .ok candidates⟩)
    {i : Nat} {c : Candidate} (hc : candidates[i]? = some c) {x : Offer} (hx : x ∈ c.offers)
    {id : Int} {s : Signal} (hs : x.signals.find? id = some s)
    (henabled : ∀ cp ∈ x.leg.boundary, o.topology.isEnabled cp = true) {names : List String}
    (hnames : names.length ≤ 1) :
    ((o.reserve (i + 1) [id] names).result.isOk = true ↔
        x.leg.boundary.Nodup ∧ (o.topology.lambdaHops x.leg.route).Nodup) ∧
      ∀ calls : List Call, turns = calls.map .call → x.leg.boundary.Nodup := by
  obtain ⟨hcatalog, hgrid⟩ := catalog_ofNetwork h
  obtain ⟨hports, hplanned, hstate⟩ := calculateWavelengthPaths_eq_ok (congrArg Outcome.result hplan)
  have ho : o = { start.afterTurns turns with candidates, stale := false } :=
    (congrArg Outcome.optimizer hplan).symm.trans hstate
  obtain ⟨y, rfl, hchecked⟩ := Outlook.checked_of_mem_candidates hplanned (List.mem_of_getElem? hc)
  obtain rfl : x = y := List.mem_singleton.1 hx
  subst ho
  refine ⟨?_, ?_⟩
  · have hconsistent := consistent_afterTurns (idle_ofNetwork h) turns
    have hnow : Consistent (fun _ _ => True)
        { start.afterTurns turns with candidates, stale := false } :=
      hconsistent.sameGroups ⟨rfl, rfl, rfl, fun _ h => h⟩ fun _ _ h => h
    refine hnow.reserve_single_iff hc hs henabled ?_ hnames
    intro r hr
    rcases List.mem_append.1 hr with hport | hslot
    · obtain ⟨cp, hcp, rfl⟩ := List.mem_map.1 hport
      exact hchecked.ports cp hcp
    · exact hchecked.slots_free (onFlexGrid_afterTurns hgrid turns) hs r hslot
  · rintro calls rfl
    rw [afterTurns_map_call] at hports hchecked
    exact nodup_boundary hcatalog hports hchecked

/-! ## A route that can be reserved, and one that cannot -/

/-- The candidates of a planning; none if it fails. -/
def planned (x : Outcome (List Candidate)) : List Candidate :=
  match x.result with
  | .ok candidates => candidates
  | .error _ => []

theorem eq_planned_of_isOk {x : Outcome (List Candidate)} (h : x.result.isOk = true) :
    x = ⟨x.optimizer, .ok (planned x)⟩ := by
  obtain ⟨o, result⟩ := x
  cases result with
  | ok candidates => rfl
  | error f => exact nomatch h

/-- Planning in the sample network, once its catalog is calculated. -/
def samplePlanning : Outcome (List Candidate) :=
  (sampleStart.afterTurns (sampleTurns.take 1)).calculateWavelengthPaths [⟨⟨"X", 1⟩, ⟨"Y", 1⟩⟩] false

/-- The anchor channel is offered on the only line, and can be reserved. -/
theorem offered_reservable_sample : samplePlanning.result.isOk = true ∧
    ∃ c ∈ (planned samplePlanning)[0]?, ∃ x ∈ c.offers,
      x.signals.find? 36 = some (.dwdm .ghz50 0) ∧
      (∀ cp ∈ x.leg.boundary, samplePlanning.optimizer.topology.isEnabled cp = true) ∧
      (((samplePlanning.optimizer.reserve 1 [36] []).result.isOk = true ↔
          x.leg.boundary.Nodup ∧ (samplePlanning.optimizer.topology.lambdaHops x.leg.route).Nodup) ∧
        ∀ calls : List Call, sampleTurns.take 1 = calls.map .call → x.leg.boundary.Nodup) ∧
      (samplePlanning.optimizer.reserve 1 [36] []).result.isOk = true := by
  have hok : samplePlanning.result.isOk = true := by decide +kernel
  obtain ⟨c, hc, x, hx, hs, henabled⟩ : ∃ c ∈ (planned samplePlanning)[0]?, ∃ x ∈ c.offers,
      x.signals.find? 36 = some (.dwdm .ghz50 0) ∧
        ∀ cp ∈ x.leg.boundary, samplePlanning.optimizer.topology.isEnabled cp = true := by
    decide +kernel
  have hreserved : (samplePlanning.optimizer.reserve 1 [36] []).result.isOk = true := by
    decide +kernel
  have hplan : (sampleStart.afterTurns (sampleTurns.take 1)).calculateWavelengthPaths
      [⟨⟨"X", 1⟩, ⟨"Y", 1⟩⟩] false = ⟨samplePlanning.optimizer, .ok (planned samplePlanning)⟩ :=
    eq_planned_of_isOk hok
  have hfound : (planned samplePlanning)[0]? = some c := Option.mem_def.1 hc
  have hnames : ([] : List String).length ≤ 1 := Nat.zero_le 1
  have hiff :=
    offered_reservable_iff ofNetwork_sample (sampleTurns.take 1) hplan hfound hx hs henabled hnames
  exact ⟨hok, c, hc, x, hx, hs, henabled, hiff, hreserved⟩

/-- Three switches in a row, of which the middle one has both lines on one port. -/
def sampleRow : NetworkDocument where
  devices := [sampleSwitch "A", sampleSwitch "B", sampleSwitch "C", sampleTerminal "X",
    sampleTerminal "Y"]
  links :=
    [⟨.between ⟨"A", 1⟩ ⟨"B", 1⟩, true⟩, ⟨.between ⟨"B", 1⟩ ⟨"C", 1⟩, true⟩,
      ⟨.between ⟨"X", 1⟩ ⟨"A", 2⟩, false⟩, ⟨.between ⟨"C", 2⟩ ⟨"Y", 1⟩, false⟩]
  details := [⟨⟨⟨"A", 1⟩, ⟨"B", 1⟩⟩, [.span "smf" 16.0 80000.0], true⟩,
    ⟨⟨⟨"B", 1⟩, ⟨"C", 1⟩⟩, [.span "smf" 16.0 80000.0], true⟩]
  spectrum := some ⟨193.1, 193.15⟩

/-- The optimizer of the row. -/
def rowStart : Optimizer :=
  match ofNetwork sampleRow sampleSettings default true with
  | .ok o => o
  | .error _ => default

/-- Planning along the row, once its catalog is calculated. -/
def rowPlanning : Outcome (List Candidate) :=
  (rowStart.after [.calculateWdmPathsBy sampleMethod none none]).calculateWavelengthPaths
    [⟨⟨"X", 1⟩, ⟨"Y", 1⟩⟩] false

/-- The anchor channel is offered along the row, and refused as if two paths asked for it on the port
that the route meets twice. -/
theorem offered_frequency_refused :
    ofNetwork sampleRow sampleSettings default true = .ok rowStart ∧
      rowPlanning.result.isOk = true ∧
      ∃ c ∈ (planned rowPlanning)[0]?, ∃ x ∈ c.offers,
        x.signals.find? 36 = some (.dwdm .ghz50 0) ∧
        (∀ cp ∈ x.leg.boundary, rowPlanning.optimizer.topology.isEnabled cp = true) ∧
        (rowPlanning.optimizer.reserve 1 [36] []).void.result =
          .error (.frequencyShared 36 ⟨"B", 1⟩) := by
  refine ⟨rfl, ?_⟩
  decide +kernel

end Optimizer

end Lightpath

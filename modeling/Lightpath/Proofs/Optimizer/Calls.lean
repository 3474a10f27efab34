import Lightpath.Optimizer.Lifecycle
import Lightpath.Optimizer.Planning

/-!
# Calls — runs of an optimizer

A `Call` is one operation with its arguments, on the optimizer or on its intents. `Optimizer.after`
is the state after a list of calls, whether they succeed or fail. Runs start on an `Idle` optimizer,
one that holds nothing, as every new optimizer does (`idle_ofNetwork`).

Which method computes OSNR is left open: beside the method of the settings (`calculateWdmPaths`) a
call may bring any other one (`calculateWdmPathsBy`), so that an external tool may answer differently
every time.
-/

namespace Lightpath

/-- The state after an operation, and whether it succeeded. -/
def Outcome.void {α : Type} (x : Outcome α) : Outcome Unit :=
  ⟨x.optimizer, x.result.map fun _ => ()⟩

/-- An operation with its arguments. -/
inductive Call where
  | calculateWdmPaths (ingress egress : Option ConnectPoint)
  | calculateWdmPathsBy (method : OsnrMethod) (ingress egress : Option ConnectPoint)
  | calculateWavelengthPaths (pairs : List Ends) (force : Bool)
  | reserve (index : Nat) (ids : List Int) (names : List String)
  | submit (group : Nat)
  | remove (group : Nat)
  | setLinkState (ends : Ends) (state : LinkState)
  | removeLink (ends : Ends)
  | removeDevice (id : DeviceId)
  /-- The network reports that an intent is installed. -/
  | install (key : IntentKey)
  /-- An intent is withdrawn from outside. -/
  | withdraw (key : IntentKey)

/-- What a call does to an optimizer. -/
def Call.run : Call → Optimizer → Outcome Unit
  | .calculateWdmPaths ingress egress, o => (o.calculateWdmPaths ingress egress).void
  | .calculateWdmPathsBy method ingress egress, o =>
    (o.calculateWdmPathsBy method ingress egress).void
  | .calculateWavelengthPaths pairs force, o => (o.calculateWavelengthPaths pairs force).void
  | .reserve index ids names, o => (o.reserve index ids names).void
  | .submit group, o => (o.submit group).void
  | .remove group, o => (o.remove group).void
  | .setLinkState ends state, o => o.setLinkState ends state
  | .removeLink ends, o => o.removeLink ends
  | .removeDevice id, o => o.removeDevice id
  | .install key, o => o.install key
  | .withdraw key, o => o.withdraw key

namespace Optimizer

/-- The state after a run of calls. -/
def after (o : Optimizer) (calls : List Call) : Optimizer :=
  calls.foldl (fun o c => (c.run o).optimizer) o

theorem after_cons (o : Optimizer) (c : Call) (calls : List Call) :
    o.after (c :: calls) = (c.run o).optimizer.after calls := rfl

theorem after_append (o : Optimizer) (calls more : List Call) :
    o.after (calls ++ more) = (o.after calls).after more :=
  List.foldl_append

theorem after_append_singleton (o : Optimizer) (calls : List Call) (c : Call) :
    o.after (calls ++ [c]) = (c.run (o.after calls)).optimizer := after_append o calls [c]

/-! ## Where runs start -/

/-- No path is stored, no resource is held and no intent exists. -/
structure Idle (o : Optimizer) : Prop where
  paths : o.paths = {}
  owners : o.ledger.owners = ∅
  held : o.ledger.held = ∅
  intents : o.intents.entries = ∅

/-- Registering a spectrum grants nothing. -/
theorem owners_registerSpectrum (l : Ledger) (t : Topology) (s : Spectrum) :
    (l.registerSpectrum t s).owners = l.owners ∧ (l.registerSpectrum t s).held = l.held := by
  unfold Ledger.registerSpectrum
  generalize Ledger.lambdaPorts t = ports
  induction ports generalizing l with
  | nil => exact ⟨rfl, rfl⟩
  | cons cp rest ih => exact ih (l.registerLambdas cp _)

/-- A new optimizer has the topology of its network, corrected settings and a registered spectrum. -/
theorem ofNetwork_eq_ok {n : NetworkDocument} {settings : Settings} {machine : Machine}
    {autoInstall : Bool} {o : Optimizer} (h : ofNetwork n settings machine autoInstall = .ok o) :
    ∃ t, Topology.ofDocument n = .ok t ∧
      o = { settings := settings.validated, machine, topology := t, details := LinkDetails.ofDocument n
            ledger := ({} : Ledger).registerSpectrum t (n.spectrum.getD default)
            intents := { autoInstall } } := by
  simp only [ofNetwork] at h
  split at h
  next => cases h
  next t ht =>
    split at h
    next => cases h
    next => exact ⟨t, ht, (Except.ok.inj h).symm⟩

/-- A new optimizer is idle. -/
theorem idle_ofNetwork {n : NetworkDocument} {settings : Settings} {machine : Machine}
    {autoInstall : Bool} {o : Optimizer} (h : ofNetwork n settings machine autoInstall = .ok o) :
    o.Idle := by
  obtain ⟨t, -, rfl⟩ := ofNetwork_eq_ok h
  have hledger := owners_registerSpectrum {} t (n.spectrum.getD default)
  exact ⟨rfl, hledger.1, hledger.2, rfl⟩

/-! ## Calls that concern no group -/

/-- Every port that carries spectrum in one topology does so in the other. -/
def LambdasWithin (t t' : Topology) : Prop :=
  ∀ cp, t.carriesLambdas cp = true → t'.carriesLambdas cp = true

theorem lambdasWithin_of_deviceMap_eq {t t' : Topology} (h : t.deviceMap = t'.deviceMap) :
    LambdasWithin t t' := by
  intro cp hcp
  rw [Topology.carriesLambdas, Topology.device?] at hcp ⊢
  rwa [← h]

/-- Every device of one topology is in the other as it is. -/
def DevicesWithin (t t' : Topology) : Prop := ∀ id d, t.device? id = some d → t'.device? id = some d

theorem DevicesWithin.refl (t : Topology) : DevicesWithin t t := fun _ _ h => h

theorem DevicesWithin.trans {t t' t'' : Topology} (h : DevicesWithin t t') (h' : DevicesWithin t' t'') :
    DevicesWithin t t'' := fun id d hd => h' id d (h id d hd)

theorem devicesWithin_removeDevice {t t' : Topology} {id : DeviceId} {events : List TopologyEvent}
    (h : t.removeDevice id = .ok (t', events)) : DevicesWithin t' t := by
  simp only [Topology.removeDevice] at h
  split at h
  · cases h
  · cases h
    intro a d hd
    rw [Topology.device?, SortedMap.find?_erase] at hd
    split at hd
    · cases hd
    · exact hd

/-- A port that carries spectrum does so wherever its device is. -/
theorem DevicesWithin.lambdas {t t' : Topology} (h : DevicesWithin t t') : LambdasWithin t t' := by
  intro cp hcp
  rw [Topology.carriesLambdas, Option.any_eq_true] at hcp ⊢
  obtain ⟨d, hd, hlambdas⟩ := hcp
  exact ⟨d, h cp.device d hd, hlambdas⟩

/-- Both states have the same paths, holders and intents, and no port came to carry spectrum. -/
structure SameGroups (o o' : Optimizer) : Prop where
  paths : o'.paths = o.paths
  ledger : o'.ledger = o.ledger
  intents : o'.intents = o.intents
  lambdas : LambdasWithin o'.topology o.topology

theorem SameGroups.refl (o : Optimizer) : SameGroups o o := ⟨rfl, rfl, rfl, fun _ h => h⟩

theorem sameGroups_calculateWdmPathsBy (o : Optimizer) (method : OsnrMethod)
    (ingress egress : Option ConnectPoint) :
    SameGroups o (o.calculateWdmPathsBy method ingress egress).optimizer := by
  unfold calculateWdmPathsBy
  split
  · exact .refl o
  · split
    · exact .refl o
    · exact ⟨rfl, rfl, rfl, fun _ h => h⟩

theorem sameGroups_calculateWavelengthPaths (o : Optimizer) (pairs : List Ends) (force : Bool) :
    SameGroups o (o.calculateWavelengthPaths pairs force).optimizer := by
  unfold calculateWavelengthPaths
  split
  · exact .refl o
  · split
    · exact .refl o
    · split <;> exact ⟨rfl, rfl, rfl, fun _ h => h⟩

theorem sameGroups_setLinkState (o : Optimizer) (ends : Ends) (state : LinkState) :
    SameGroups o (o.setLinkState ends state).optimizer := by
  unfold setLinkState Topology.setLinkState
  cases o.topology.link? ends with
  | none => exact .refl o
  | some l => exact ⟨rfl, rfl, rfl, lambdasWithin_of_deviceMap_eq rfl⟩

theorem sameGroups_removeLink (o : Optimizer) (ends : Ends) :
    SameGroups o (o.removeLink ends).optimizer := by
  unfold removeLink Topology.removeLink
  cases o.topology.link? ends with
  | none => exact .refl o
  | some l => exact ⟨rfl, rfl, rfl, lambdasWithin_of_deviceMap_eq rfl⟩

theorem sameGroups_removeDevice (o : Optimizer) (id : DeviceId) :
    SameGroups o (o.removeDevice id).optimizer := by
  unfold removeDevice
  split
  · exact .refl o
  next h => exact ⟨rfl, rfl, rfl, (devicesWithin_removeDevice h).lambdas⟩

/-! ## A run on a small network -/

/-- A switch with a line port and two add/drop ports. -/
def sampleSwitch (id : DeviceId) : DeviceEntry :=
  ⟨id, .roadm, "", [⟨1, none, .oms, .line, true⟩, ⟨2, none, .oms, .addDrop, true⟩,
    ⟨3, none, .oms, .addDrop, true⟩], none⟩

/-- A terminal with two transponders of one mode. -/
def sampleTerminal (id : DeviceId) : DeviceEntry :=
  ⟨id, .terminalDevice, "V", [⟨1, none, .och, .client, true⟩, ⟨2, none, .och, .client, true⟩],
    some ⟨[.r100G], [.dpQpsk]⟩⟩

/-- Two switches joined by one line, each with a terminal, and a spectrum of two channels. -/
def sampleNetwork : NetworkDocument where
  devices := [sampleSwitch "A", sampleSwitch "B", sampleTerminal "X", sampleTerminal "Y"]
  links :=
    [⟨.between ⟨"A", 1⟩ ⟨"B", 1⟩, true⟩, ⟨.between ⟨"X", 1⟩ ⟨"A", 2⟩, false⟩,
      ⟨.between ⟨"X", 2⟩ ⟨"A", 3⟩, false⟩, ⟨.between ⟨"B", 2⟩ ⟨"Y", 1⟩, false⟩,
      ⟨.between ⟨"B", 3⟩ ⟨"Y", 2⟩, false⟩]
  details := [⟨⟨⟨"A", 1⟩, ⟨"B", 1⟩⟩, [.span "smf" 16.0 80000.0], true⟩]
  spectrum := some ⟨193.1, 193.15⟩

/-- The mode of the transponders. -/
def sampleMode : Mode := ⟨.r100G, .dpQpsk⟩

/-- Settings under which the mode is usable at every OSNR. -/
def sampleSettings : Settings :=
  { Settings.default with
    quality := { QualitySettings.default with
      qConstants := SortedMap.empty.insert "V" (SortedMap.empty.insert sampleMode.display [10.0])
      qThresholds := SortedMap.empty.insert "V" (SortedMap.empty.insert sampleMode.display 5.0) } }

/-- The optimizer of the network. -/
def sampleStart : Optimizer :=
  match ofNetwork sampleNetwork sampleSettings default true with
  | .ok o => o
  | .error _ => default

theorem ofNetwork_sample : ofNetwork sampleNetwork sampleSettings default true = .ok sampleStart := by
  rfl

/-- Two groups are reserved over the line, and the first one is submitted. -/
def sampleRun : List Call :=
  [.calculateWdmPathsBy
      (fun routes => .ok (routes.map fun _ => SortedMap.empty.insert sampleMode 30.0)) none none,
    .calculateWavelengthPaths [⟨⟨"X", 1⟩, ⟨"Y", 1⟩⟩] false, .reserve 1 [36] [], .submit 1,
    .calculateWavelengthPaths [⟨⟨"X", 2⟩, ⟨"Y", 2⟩⟩] false, .reserve 1 [37] []]

example : (sampleStart.after sampleRun).paths.toList.map WavelengthPath.id = [1, 2] := by
  decide +kernel

end Optimizer

end Lightpath

import Lightpath.Intent.Book
import Lightpath.Quality.Command
import Lightpath.Settings
import Lightpath.Signal.FrequencyId
import Lightpath.Wavelength.Candidate
import Lightpath.Wavelength.Store
import Lightpath.Wdm.Catalog
import Lightpath.Wdm.Staleness

/-!
# The optimizer — planning and reservation on one network

An `Optimizer` holds the network, the resources, the intents, the catalog of WDM paths, the stored
wavelength paths and the candidates of the last planning. Its operations are functions from a state to
an `Outcome`, the state after the call with a result or a failure; a failing call may leave a changed
state, which the outcome then shows. This module builds an optimizer and changes its network.
-/

namespace Lightpath

/-- Everything that planning and reservation depend on. -/
structure Optimizer where
  settings : Settings
  /-- The machine on which the journal is kept and external commands run. -/
  machine : Machine
  topology : Topology
  details : LinkDetails
  ledger : Ledger
  intents : IntentBook
  catalog : Catalog := {}
  paths : PathStore := {}
  /-- The result of the last planning. -/
  candidates : List Candidate := []
  /-- Whether an optical line changed since the catalog was computed. -/
  stale : Bool := false
  /-- Everything that happened to stored paths. -/
  log : List PathEvent := []
deriving Inhabited

/-- The state after an operation, and what the operation gave. -/
structure Outcome (α : Type) where
  optimizer : Optimizer
  result : Except Failure α

namespace Optimizer

/-! ## Construction -/

/-- An optimizer on a network whose ports carry the spectrum of the document, or the usual one. The
machine must be able to append to its journal, if it has one. -/
def ofNetwork (n : NetworkDocument) (settings : Settings) (machine : Machine)
    (autoInstall : Bool) : Except Failure Optimizer :=
  match Topology.ofDocument n with
  | .error f => .error f
  | .ok t =>
    let settings := settings.validated
    if !settings.journal.all machine.canAppend then .error .fileUnreadable
    else
      .ok
        { settings, machine, topology := t, details := LinkDetails.ofDocument n
          ledger := ({} : Ledger).registerSpectrum t (n.spectrum.getD default)
          intents := { autoInstall } }

/-- Where the frequency ids start. -/
def frequencies (o : Optimizer) : FrequencyPlan := FrequencyPlan.ofThz o.settings.lowestFrequency

/-! ## Changes of the network -/

/-- Takes over a changed topology and notes whether the catalog is out of date now. -/
def observe (o : Optimizer) (t : Topology) (events : List TopologyEvent) : Optimizer :=
  { o with topology := t, stale := t.outdates o.stale events }

/-- Sets the state of a link. -/
def setLinkState (o : Optimizer) (ends : Ends) (state : LinkState) : Outcome Unit :=
  match o.topology.setLinkState ends state with
  | .error f => ⟨o, .error f⟩
  | .ok (t, event) => ⟨o.observe t [event], .ok ()⟩

/-- Removes a link. -/
def removeLink (o : Optimizer) (ends : Ends) : Outcome Unit :=
  match o.topology.removeLink ends with
  | .error f => ⟨o, .error f⟩
  | .ok (t, event) => ⟨o.observe t [event], .ok ()⟩

/-- Removes a device with its links. -/
def removeDevice (o : Optimizer) (id : DeviceId) : Outcome Unit :=
  match o.topology.removeDevice id with
  | .error f => ⟨o, .error f⟩
  | .ok (t, events) => ⟨o.observe t events, .ok ()⟩

/-- Adds a device, or replaces the one with its id. -/
def addDevice (o : Optimizer) (d : Device) : Optimizer :=
  o.observe (o.topology.addDevice d) [.deviceAdded d]

/-- Adds links, or replaces those with the same ends. -/
def addLinks (o : Optimizer) (links : List Link) : Optimizer :=
  o.observe (links.foldl Topology.addLink o.topology) (links.map .linkAdded)

/-- Sets the physical details of a link. -/
def setDetail (o : Optimizer) (ends : Ends) (elements : List SectionElement) : Optimizer :=
  { o with details := o.details.set ends elements }.observe o.topology
    [.detailChanged (.between ends.src ends.dst)]

end Optimizer

end Lightpath

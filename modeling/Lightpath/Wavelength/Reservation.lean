import Lightpath.Wavelength.Candidate
import Lightpath.Wavelength.Spectrum
import Lightpath.Wavelength.Store

/-!
# Reservation — from a candidate to what it takes

A candidate is reserved with one frequency id per leg. `Candidate.demand` lists the resources that
this takes, leg by leg: the four boundary ports, then the slots of the channel on every hop that
carries spectrum. It fails on a port that is switched off, on a frequency that is not offered, and on
a slot that two hops would share.
-/

namespace Lightpath

/-- Whether the port at a connect point exists and is switched on. -/
def Topology.isEnabled (t : Topology) (cp : ConnectPoint) : Bool :=
  (t.port? cp).any PortEntry.enabled

/-- What a reservation takes, and the channel of each leg. -/
structure Demand where
  resources : List Resource
  signals : List Signal
deriving DecidableEq, Repr, Inhabited

/-- What one leg takes at a frequency, beside the resources taken for the legs before it. -/
def Offer.demand (t : Topology) (taken : List Resource) (o : Offer) (id : Int) :
    Except Failure Demand :=
  match o.leg.boundary.find? (fun cp => !t.isEnabled cp) with
  | some cp => .error (.portDisabled cp)
  | none =>
    match o.signals.find? id with
    | none => .error (.frequencyNotOffered id)
    | some signal =>
      let slots := t.lambdaResources o.leg.route signal
      match firstRepeatAfter? taken slots with
      | some r => .error (.frequencyShared id r.connectPoint)
      | none => .ok ⟨o.leg.boundary.map .port ++ slots, [signal]⟩

/-- What legs take at their frequencies, beside the resources taken before. -/
def Offer.demands (t : Topology) (taken : List Resource) : List (Offer × Int) →
    Except Failure Demand
  | [] => .ok ⟨[], []⟩
  | (o, id) :: rest =>
    match o.demand t taken id with
    | .error f => .error f
    | .ok first =>
      match Offer.demands t (taken ++ first.resources) rest with
      | .error f => .error f
      | .ok others => .ok ⟨first.resources ++ others.resources, first.signals ++ others.signals⟩

namespace Candidate

/-- What a candidate takes at one frequency per leg. -/
def demand (t : Topology) (c : Candidate) (ids : List Int) : Except Failure Demand :=
  Offer.demands t [] (c.offers.zip ids)

/-- The candidate with a number, counted from 1, if the frequency ids and names fit it. -/
def choose (candidates : List Candidate) (index : Nat) (ids : List Int) (names : List String) :
    Except Failure Candidate :=
  if candidates.isEmpty then .error .noCandidates
  else
    match if index = 0 then none else candidates[index - 1]? with
    | none => .error (.unknownCandidate index)
    | some c =>
      if ids.isEmpty then .error .noFrequencyGiven
      else if names.length > ids.length then .error .tooManyNames
      else if ids.length ≠ c.offers.length then .error .badFrequencyCount
      else .ok c

/-- The wavelength paths of a candidate, not yet stored. Legs without a name have an empty one. -/
def paths (c : Candidate) (group : Nat) (ids : List Int) (names : List String)
    (signals : List Signal) : List WavelengthPath :=
  ((c.offers.zip ids).zip signals).mapIdx fun i e =>
    ⟨0, group, e.1.2, e.2, e.1.1.leg, names[i]?.getD "", false⟩

end Candidate

end Lightpath

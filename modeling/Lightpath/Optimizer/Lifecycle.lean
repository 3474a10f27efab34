import Lightpath.Optimizer.Basic
import Lightpath.Wavelength.Reservation

/-!
# The life of a group — reserved, submitted, removed

A candidate is reserved as a group of wavelength paths, which holds its ports and slots under the key
of its intent. Submitting the group enters the intent; removing it, or withdrawing the intent, gives
everything back and deletes the paths.
-/

namespace Lightpath

/-- How a consumer is granted a request. -/
abbrev Allocator := Ledger → IntentKey → List Resource → Except Failure Ledger

/-- The allocator that grants nothing. -/
def Ledger.refuse : Allocator := fun _ _ _ => .error .allocationRefused

namespace Optimizer

/-- Reserves a demand for a candidate under a new group. What the key of the group still holds is
given back first. A group that is not granted its demand hands its id back. -/
def reserveDemand (allocate : Allocator) (o : Optimizer) (c : Candidate) (ids : List Int)
    (names : List String) (d : Demand) : Outcome (List WavelengthPath) :=
  let (group, paths) := o.paths.issueGroup
  let ledger := o.ledger.release (intentKey group)
  match allocate ledger (intentKey group) d.resources with
  | .error _ =>
    ⟨{ o with ledger, paths := paths.releaseGroup group }, .error .reservationRefused⟩
  | .ok ledger =>
    let (paths, stored, events) := paths.add (c.paths group ids names d.signals)
    ⟨{ o with ledger, paths, log := o.log ++ events }, .ok stored⟩

/-- Reserves the candidate with a number, counted from 1, at one frequency id per leg. -/
def reserveBy (allocate : Allocator) (o : Optimizer) (index : Nat) (ids : List Int)
    (names : List String) : Outcome (List WavelengthPath) :=
  match Candidate.choose o.candidates index ids names with
  | .error f => ⟨o, .error f⟩
  | .ok c =>
    match c.demand o.topology ids with
    | .error f => ⟨o, .error f⟩
    | .ok d => o.reserveDemand allocate c ids names d

/-- Reserves the candidate with a number, counted from 1, at one frequency id per leg. -/
def reserve (o : Optimizer) (index : Nat) (ids : List Int) (names : List String) :
    Outcome (List WavelengthPath) :=
  o.reserveBy Ledger.allocate index ids names

/-- The connection of a path. -/
def connectionOf (p : WavelengthPath) : Connection := ⟨p.id, p.leg.src, p.leg.dst, p.signal⟩

/-- The intent of a group with the given paths. -/
def intentFor (o : Optimizer) (group : Nat) (paths : List WavelengthPath) : Intent :=
  ⟨intentKey group, group, paths.map connectionOf, o.ledger.allocations (intentKey group)⟩

/-- Submits the intent of a reserved group and marks its paths. -/
def submit (o : Optimizer) (group : Nat) : Outcome (List WavelengthPath) :=
  let found := o.paths.getGroup group
  if found.isEmpty then ⟨o, .error (.unknownSubmission group)⟩
  else if found.any WavelengthPath.submitted then ⟨o, .error .alreadySubmitted⟩
  else
    match o.intents.submit (o.intentFor group found) with
    | .error f => ⟨o, .error f⟩
    | .ok (intents, _) =>
      let marked := found.map WavelengthPath.markSubmitted
      let (paths, events, result) := o.paths.updateAll marked
      ⟨{ o with intents, paths, log := o.log ++ events }, result.map fun _ => marked⟩

/-- Deletes the stored paths of a group. -/
def dropGroup (o : Optimizer) (group : Nat) : Optimizer :=
  let (paths, _, events) := o.paths.removeGroup group
  { o with paths, log := o.log ++ events }

/-- Withdraws an intent; the paths of its group go with it. -/
def withdraw (o : Optimizer) (key : IntentKey) : Outcome Unit :=
  match o.intents.withdraw o.ledger key with
  | .error f => ⟨o, .error f⟩
  | .ok (intents, ledger, events) =>
    let withdrawn := events.filter (fun e => e.state == .withdrawn)
    ⟨withdrawn.foldl (fun o e => o.dropGroup e.intent.group) { o with intents, ledger }, .ok ()⟩

/-- Reports that an intent is installed. -/
def install (o : Optimizer) (key : IntentKey) : Outcome Unit :=
  match o.intents.install key with
  | .error f => ⟨o, .error f⟩
  | .ok (intents, _) => ⟨{ o with intents }, .ok ()⟩

/-- Removes a group, which is withdrawn if it is installed. Returns its paths as they were. -/
def remove (o : Optimizer) (group : Nat) : Outcome (List WavelengthPath) :=
  let found := o.paths.getGroup group
  if found.isEmpty then ⟨o, .error (.unknownRemoval group)⟩
  else
    let key := intentKey group
    match o.intents.state? key with
    | none => ⟨{ o with ledger := o.ledger.release key }.dropGroup group, .ok found⟩
    | some .installed =>
      let withdrawn := o.withdraw key
      ⟨withdrawn.optimizer, withdrawn.result.map fun _ => found⟩
    | some state => ⟨o, .error (.notInstalled state)⟩

end Optimizer

end Lightpath

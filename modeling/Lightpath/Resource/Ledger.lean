import Lightpath.Collection.Repeat
import Lightpath.Collection.SortedSet
import Lightpath.Network.Topology
import Lightpath.Numeric.Double
import Lightpath.Resource.Basic

/-!
# The resource ledger — who holds which port and which spectrum

A `Ledger` knows which flex-grid slots exist on a port and which consumer holds which resource.
Every port can be held; a slot can be held once it is registered. A request is granted as a whole or
not at all (`Ledger.allocate`): it fails at the first resource that it names twice, else at the first
one that is not free for the consumer.
-/

namespace Lightpath

/-- The registered slots and the holders of resources. -/
structure Ledger where
  /-- The slots that exist on a port. -/
  slots : SortedMap ConnectPoint (SortedSet Signal) := ∅
  /-- The consumer that holds a resource. -/
  owners : SortedMap Resource IntentKey := ∅
  /-- What a consumer holds, in the order in which it was granted. -/
  held : SortedMap IntentKey (List Resource) := ∅
deriving DecidableEq, Repr, Inhabited

namespace Ledger

/-! ## Looking up -/

/-- The slots that exist on a port. -/
def registered (l : Ledger) (cp : ConnectPoint) : SortedSet Signal := (l.slots.find? cp).getD ∅

/-- The consumer that holds a resource. -/
def owner? (l : Ledger) (r : Resource) : Option IntentKey := l.owners.find? r

/-- What a consumer holds, in the order in which it was granted. -/
def allocations (l : Ledger) (consumer : IntentKey) : List Resource :=
  (l.held.find? consumer).getD []

/-- Whether a resource is there at all: a slot has to be registered. -/
def knows (l : Ledger) : Resource → Bool
  | .port _ => true
  | .lambda cp s => (l.registered cp).contains s

/-- Whether a resource is there and nobody holds it. -/
def isAvailable (l : Ledger) (r : Resource) : Bool := l.knows r && (l.owner? r).isNone

/-- Whether a resource is there and nobody other than a consumer holds it. -/
def isFreeFor (l : Ledger) (consumer : IntentKey) (r : Resource) : Bool :=
  l.knows r && (l.owner? r).all (fun owner => owner == consumer)

/-- The slots of a port that nobody holds. -/
def availableLambdas (l : Ledger) (cp : ConnectPoint) : SortedSet Signal :=
  (l.registered cp).filter (fun s => (l.owner? (.lambda cp s)).isNone)

/-! ## Registering -/

/-- Adds slots to those of a port. -/
def registerLambdas (l : Ledger) (cp : ConnectPoint) (slots : List Signal) : Ledger :=
  { l with slots := l.slots.alter cp (fun known => (known.getD ∅).insertAll slots) }

/-- The number of the 50 GHz channel nearest to a frequency in THz. -/
def channelNear (thz : Float) : Int := nearestWord 32 ((thz - anchorThz) / 0.05)

/-- The integers from `first` to `last`. -/
def interval (first last : Int) : List Int :=
  (List.range (last - first + 1).toNat).map fun (i : Nat) => first + (i : Int)

/-- The slots of every 50 GHz channel of a spectrum. -/
def spectrumSlots (s : Spectrum) : List Signal :=
  (interval (channelNear s.lowest) (channelNear s.highest)).flatMap fun m =>
    (Signal.dwdm .ghz50 m).flexSlots

/-- The ports of a topology that carry spectrum. -/
def lambdaPorts (t : Topology) : List ConnectPoint :=
  t.devices.flatMap fun d =>
    (d.ports.filter (fun p => d.carriesLambdas p.number)).map fun p => ⟨d.id, p.number⟩

/-- Adds the slots of a spectrum to every port that carries spectrum. -/
def registerSpectrum (l : Ledger) (t : Topology) (s : Spectrum) : Ledger :=
  let slots := spectrumSlots s
  (lambdaPorts t).foldl (fun l cp => l.registerLambdas cp slots) l

/-! ## Granting and giving back -/

/-- Hands a resource to a consumer. A resource that is held already stays where it is. -/
def grant (consumer : IntentKey) (l : Ledger) (r : Resource) : Ledger :=
  if (l.owner? r).isSome then l
  else
    { l with
      owners := l.owners.insert r consumer
      held := l.held.alter consumer (fun rs => rs.getD [] ++ [r]) }

/-- Grants a consumer every resource of a request, or none. -/
def allocate (l : Ledger) (consumer : IntentKey) (request : List Resource) :
    Except Failure Ledger :=
  match firstRepeat? request with
  | some r => .error (.repeatedResource r)
  | none =>
    match request.find? (fun r => !l.isFreeFor consumer r) with
    | some r => .error (.resourceTaken r)
    | none => .ok (request.foldl (grant consumer) l)

/-- Takes back what a consumer holds; it can be read off beforehand by `allocations`. -/
def release (l : Ledger) (consumer : IntentKey) : Ledger :=
  { l with
    owners := (l.allocations consumer).foldl SortedMap.erase l.owners
    held := l.held.erase consumer }

end Ledger

end Lightpath

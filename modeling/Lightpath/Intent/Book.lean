import Lightpath.Failure
import Lightpath.Resource.Ledger

/-!
# The intent book — requests to the network and their states

An `Intent` asks the network to set up every leg of a group of wavelength paths. The book keeps each
intent under its key with the state it is in. An intent leaves the book when it is withdrawn, and the
resources under its key are given back then. Every step reports its `IntentEvent`s in order.
-/

namespace Lightpath

/-- One connection that an intent sets up. -/
structure Connection where
  pathId : Nat
  ingress : ConnectPoint
  egress : ConnectPoint
  signal : Signal
deriving DecidableEq, Repr, Inhabited

/-- The request to set up every leg of a group. -/
structure Intent where
  key : IntentKey
  group : Nat
  connections : List Connection
  /-- What is held under the key while the intent exists. -/
  resources : List Resource
deriving DecidableEq, Repr, Inhabited

/-- An intent came into a state. -/
structure IntentEvent where
  state : IntentState
  intent : Intent
deriving DecidableEq, Repr, Inhabited

/-- The intents that exist. -/
structure IntentBook where
  /-- Whether an intent is installed as soon as it is submitted. -/
  autoInstall : Bool
  entries : SortedMap IntentKey (Intent × IntentState) := ∅
deriving DecidableEq, Repr, Inhabited

namespace IntentBook

/-- The intent with a key. -/
def intent? (b : IntentBook) (key : IntentKey) : Option Intent := (b.entries.find? key).map (·.1)

/-- The state of the intent with a key. -/
def state? (b : IntentBook) (key : IntentKey) : Option IntentState :=
  (b.entries.find? key).map (·.2)

/-- Enters an intent. -/
def submit (b : IntentBook) (i : Intent) : Except Failure (IntentBook × List IntentEvent) :=
  if b.entries.contains i.key then .error (.repeatedIntent i.key)
  else if b.autoInstall then
    .ok ({ b with entries := b.entries.insert i.key (i, .installed) },
      [⟨.installRequested, i⟩, ⟨.installed, i⟩])
  else
    .ok ({ b with entries := b.entries.insert i.key (i, .installRequested) },
      [⟨.installRequested, i⟩])

/-- The intent with a key, if it may go from its state to `target`. -/
def ready (b : IntentBook) (key : IntentKey) (states : List IntentState) (target : IntentState) :
    Except Failure Intent :=
  match b.entries.find? key with
  | none => .error (.unknownIntent key)
  | some (i, state) =>
    if state ∈ states then .ok i else .error (.badTransition key state target)

/-- Reports that an intent asked to be installed is installed. -/
def install (b : IntentBook) (key : IntentKey) : Except Failure (IntentBook × List IntentEvent) :=
  match b.ready key [.installRequested] .installed with
  | .error f => .error f
  | .ok i => .ok ({ b with entries := b.entries.insert key (i, .installed) }, [⟨.installed, i⟩])

/-- Takes an installed or failed intent out of the network and out of the book. -/
def withdraw (b : IntentBook) (l : Ledger) (key : IntentKey) :
    Except Failure (IntentBook × Ledger × List IntentEvent) :=
  match b.ready key [.installed, .failed] .withdrawRequested with
  | .error f => .error f
  | .ok i =>
    .ok ({ b with entries := b.entries.erase key }, l.release key,
      [⟨.withdrawRequested, i⟩, ⟨.withdrawn, i⟩])

end IntentBook

end Lightpath

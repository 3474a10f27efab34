import Lightpath.Intent.State
import Lightpath.Network.ConnectPoint
import Lightpath.Resource.Basic
import Lightpath.Signal.Grid
import Lightpath.Signal.Mode

/-!
# Failures — every reason for which an operation gives no result

A `Failure` names its cause. Its wording is in one place (`Failure.message`): the class of the
failure (`Failure.kind`) and what happened (`Failure.detail`).
-/

namespace Lightpath

/-- Classes of failures. -/
inductive FailureKind where
  /-- A file cannot be read or opened. -/
  | file
  /-- A document does not have its form. -/
  | document
  /-- Malformed arguments, an index out of range, something unknown by its name. -/
  | argument
  /-- The state does not allow the operation yet. -/
  | precondition
  /-- Quality or resources leave nothing to return. -/
  | rejected
  /-- The quality of paths could not be computed. -/
  | calculation
  /-- The step is not allowed at this point of a life cycle. -/
  | lifecycle
  /-- The network document describes no network. -/
  | model
deriving DecidableEq, Repr

/-- Why a command cannot be started. -/
inductive StartFault where
  /-- There is no such program. -/
  | programMissing
  /-- The name leads through something that is no directory. -/
  | notADirectory
  /-- What is there cannot be started. -/
  | notPermitted
  /-- No program can have a name that long. -/
  | nameTooLong
  /-- A word of the command holds the null character, which would end it. -/
  | nullCharacter
deriving DecidableEq, Repr

/-- The reasons for which an operation gives no result. -/
inductive Failure where
  /-- A file cannot be read or opened. -/
  | fileUnreadable
  /-- A document does not have its form. -/
  | documentMalformed
  /-- A text is no connect point. -/
  | badConnectPoint (fault : ConnectPoint.Fault) (text : String)
  /-- A text is no mode. -/
  | badMode (fault : Mode.Fault)
  /-- Frequency ids are asked for a signal of another grid. -/
  | noFrequencyId (signal : Signal)
  /-- A route without links. -/
  | emptyRoute
  /-- Two links of a route that do not meet in a device. -/
  | brokenRoute (before after : Ends)
  /-- No such link in the topology. -/
  | unknownLink (ends : Ends)
  /-- No such device in the topology. -/
  | unknownDevice (id : DeviceId)
  /-- The port is no OMS add/drop port of a ROADM. -/
  | notAddDropPort (cp : ConnectPoint)
  /-- Planning takes one or two port pairs. -/
  | badPairCount (count : Nat)
  /-- Nothing was planned that could be reserved. -/
  | noCandidates
  /-- No candidate has this number. -/
  | unknownCandidate (index : Nat)
  /-- No frequency id was given. -/
  | noFrequencyGiven
  /-- More names than frequency ids. -/
  | tooManyNames
  /-- The candidate has another number of legs. -/
  | badFrequencyCount
  /-- The candidate does not offer the frequency id. -/
  | frequencyNotOffered (id : Int)
  /-- Two legs would use the same slot of a port. -/
  | frequencyShared (id : Int) (cp : ConnectPoint)
  /-- The group to submit has no paths. -/
  | unknownSubmission (group : Nat)
  /-- The group to remove has no paths. -/
  | unknownRemoval (group : Nat)
  /-- No stored path has this id. -/
  | unknownPath (id : Nat)
  /-- No intent has this key. -/
  | unknownIntent (key : IntentKey)
  /-- The same port is named twice. -/
  | repeatedPort
  /-- The port is no OCH port of a transponder. -/
  | notOchPort (cp : ConnectPoint)
  /-- A command lacks an option that it needs. -/
  | missingOption (name : String)
  /-- The listing has no entry with this number. -/
  | unknownListing (index : Nat)
  /-- The topology has no devices. -/
  | noDevices
  /-- The topology has no OMS add/drop ports. -/
  | noAddDropPorts
  /-- The port has no active link, or several. -/
  | noSingleLink (cp : ConnectPoint)
  /-- The port is held already. -/
  | portInUse (cp : ConnectPoint)
  /-- The device of a route's end is gone. -/
  | endDeviceMissing (id : DeviceId)
  /-- The device of a port is not in the topology. -/
  | portDeviceMissing (cp : ConnectPoint)
  /-- The device has no such port. -/
  | portMissing (cp : ConnectPoint)
  /-- The port is switched off or gone. -/
  | portDisabled (cp : ConnectPoint)
  /-- The topology changed since the catalog was computed. -/
  | staleCatalog
  /-- A request names a resource twice. -/
  | repeatedResource (resource : Resource)
  /-- A requested resource is held by another consumer or does not exist. -/
  | resourceTaken (resource : Resource)
  /-- No resource is given to anyone at present. -/
  | allocationRefused
  /-- The resources of a reservation are not to be had. -/
  | reservationRefused
  /-- Every route between two ports fails the spectrum or the quality constraints. -/
  | allRoutesRejected (ingress egress : ConnectPoint)
  /-- There are no devices to hand to the quality command. -/
  | noNetworkModel
  /-- The quality command has no words. -/
  | emptyCommand
  /-- The quality command cannot be started. -/
  | commandNotStarted (line : String) (fault : StartFault)
  /-- The quality command ended with an exit code other than zero. -/
  | commandFailed (code : Nat)
  /-- The answer of the quality command is no document. -/
  | answerMalformed
  /-- The answer of the quality command lacks its services. -/
  | answerWithoutServices
  /-- The quality of another number of routes was computed. -/
  | badOsnrCount (expected got : Nat)
  /-- The group is submitted already. -/
  | alreadySubmitted
  /-- The intent of the group to remove is not installed. -/
  | notInstalled (state : IntentState)
  /-- An intent cannot go from one state to another. -/
  | badTransition (key : IntentKey) (state target : IntentState)
  /-- An intent with this key exists already. -/
  | repeatedIntent (key : IntentKey)
  /-- A device of the document has no id. -/
  | deviceWithoutId
  /-- A device of the document has a port number twice. -/
  | repeatedPortNumber (number : Nat) (id : DeviceId)
  /-- A device id occurs twice in the document. -/
  | repeatedDevice (id : DeviceId)
  /-- A link of the document ends at an unknown port. -/
  | unknownLinkPort (ends : Ends) (cp : ConnectPoint)
deriving DecidableEq, Repr

namespace StartFault

/-- How a fault is described. -/
def text : StartFault → String
  | .programMissing => "No such file or directory (os error 2)"
  | .notADirectory => "Not a directory (os error 20)"
  | .notPermitted => "Permission denied (os error 13)"
  | .nameTooLong => "File name too long (os error 36)"
  | .nullCharacter => "nul byte found in provided data"

end StartFault

namespace FailureKind

/-- How the message of a failure of this class begins. -/
def lead : FailureKind → String
  | .file => "File not found or could not be read"
  | .document => "Failed to parse JSON document"
  | .argument => "Invalid argument"
  | .precondition => "Precondition failed"
  | .rejected => "Rejected"
  | .calculation => "Calculation failed"
  | .lifecycle => "Illegal state"
  | .model => "Failed to build network model"

end FailureKind

namespace Failure

/-- The class of a failure. -/
def kind : Failure → FailureKind
  | .fileUnreadable => .file
  | .documentMalformed => .document
  | .noDevices | .noAddDropPorts | .noSingleLink _ | .portInUse _ | .endDeviceMissing _
  | .portDeviceMissing _ | .portMissing _ | .portDisabled _ | .staleCatalog => .precondition
  | .repeatedResource _ | .resourceTaken _ | .allocationRefused | .reservationRefused
  | .allRoutesRejected _ _ => .rejected
  | .noNetworkModel | .emptyCommand | .commandNotStarted _ _ | .commandFailed _ | .answerMalformed
  | .answerWithoutServices | .badOsnrCount _ _ => .calculation
  | .alreadySubmitted | .notInstalled _ | .badTransition _ _ _ | .repeatedIntent _ => .lifecycle
  | .deviceWithoutId | .repeatedPortNumber _ _ | .repeatedDevice _ | .unknownLinkPort _ _ => .model
  | _ => .argument

/-- What is wrong with a text that is no connect point. -/
def connectPointDetail (text : String) : ConnectPoint.Fault → String
  | .noSlash => "Connect point must be formatted as device/port: '" ++ text ++ "'"
  | .noDevice => "Connect point has an empty device id: '" ++ text ++ "'"
  | .badPort => "Connect point has an invalid port number: '" ++ text ++ "'"

/-- What is wrong with a text that is no mode. -/
def modeDetail : Mode.Fault → String
  | .noSlash text => "Expected RATE/MODULATION but got '" ++ text ++ "'"
  | .unknownRate part => "Unknown rate '" ++ part ++ "'"
  | .unknownModulation part => "Unknown modulation format '" ++ part ++ "'"

/-- What an operator reads when the catalog is out of date. -/
def staleCatalogDetail : String :=
  "Detected the topology has changed after WDM path calculated.\n" ++
  "Before executing wavelength-path-calc, you need to run wdm-path-calc.\n" ++
  "Or execute this command with \x60--force\x60 option."

/-- What happened. -/
def detail : Failure → String
  | .fileUnreadable => "no such file"
  | .documentMalformed => "unexpected content"
  | .badConnectPoint fault text => connectPointDetail text fault
  | .badMode fault => modeDetail fault
  | .noFrequencyId s =>
    "Frequency ids are only defined for 50GHz DWDM channels: " ++ s.display
  | .emptyRoute => "Path must contain at least one link."
  | .brokenRoute before after =>
    "Links are not contiguous: " ++ before.display ++ " then " ++ after.display
  | .unknownLink ends => "Link " ++ ends.display ++ " not found"
  | .unknownDevice id => "Device " ++ id ++ " not found"
  | .notAddDropPort cp => "Connect point must be OMS Add/Drop port. " ++ cp.display
  | .badPairCount count => "One or two port pairs are required, got " ++ toString count
  | .noCandidates => "No wavelength-path-calc results"
  | .unknownCandidate index => "Invalid index value. index=" ++ toString index
  | .noFrequencyGiven => "Invalid frequency id value"
  | .tooManyNames => "Number of frequency IDs < Number of names"
  | .badFrequencyCount => "Please specify frequency id for each wavelength path."
  | .frequencyNotOffered id => "Invalid frequency ID (" ++ toString id ++ ")."
  | .frequencyShared id cp =>
    "Frequency ID (" ++ toString id ++ ") is used by more than one wavelength path on " ++
      cp.display ++ "."
  | .unknownSubmission group => "Not found wavelength path. Submit ID=" ++ toString group
  | .unknownRemoval group => "Not found wavelength path. Remove ID=" ++ toString group
  | .unknownPath id => "Not found wavelength path. ID=" ++ toString id
  | .unknownIntent key => "Intent " ++ key ++ " not found"
  | .repeatedPort => "All ports must be different ports."
  | .notOchPort cp => "Port must be an OCH port of a transponder. " ++ cp.display
  | .missingOption name => "Missing " ++ name ++ " option"
  | .unknownListing index => "Not found WDM path. index=" ++ toString index
  | .noDevices => "No devices."
  | .noAddDropPorts => "OMS Add/Drop port not found."
  | .noSingleLink cp => "specified port does not have a link. " ++ cp.display
  | .portInUse cp => "Specified port is already used. " ++ cp.display
  | .endDeviceMissing id => "Device not found. " ++ id
  | .portDeviceMissing cp => "Device not found. " ++ cp.display
  | .portMissing cp => "Port not found. " ++ cp.display
  | .portDisabled cp => "Port is disabled. port=" ++ cp.display
  | .staleCatalog => staleCatalogDetail
  | .repeatedResource r => "Resource " ++ r.display ++ " is requested more than once."
  | .resourceTaken r => "Resource " ++ r.display ++ " is not available."
  | .allocationRefused => "allocation refused"
  | .reservationRefused => "Lambda/Port resources are not available."
  | .allRoutesRejected ingress egress =>
    "No wavelength path from " ++ ingress.display ++ " to " ++ egress.display ++
      " satisfies the spectrum and quality constraints."
  | .noNetworkModel => "Not found network model."
  | .emptyCommand => "OSNR calculation command is empty."
  | .commandNotStarted line fault =>
    "Failed to execute command: " ++ line ++ " (" ++ fault.text ++ ")"
  | .commandFailed code =>
    "Failed to execute OSNR calculation command. ret=exit status: " ++ toString code
  | .answerMalformed => "Invalid JSON data"
  | .answerWithoutServices => "Invalid OSNR data structure"
  | .badOsnrCount expected got =>
    "Expected OSNR for " ++ toString expected ++ " paths, got " ++ toString got
  | .alreadySubmitted => "Wavelength path is already submitted."
  | .notInstalled state =>
    "Cannot be removed. Intent state is not INSTALLED. [" ++ state.name ++ "]"
  | .badTransition key state target =>
    "Intent " ++ key ++ " is " ++ state.name ++ " and cannot become " ++ target.name
  | .repeatedIntent key => "Intent " ++ key ++ " is already submitted"
  | .deviceWithoutId => "Device without id."
  | .repeatedPortNumber number id =>
    "Duplicate port " ++ toString number ++ " on device " ++ id
  | .repeatedDevice id => "Duplicate device id '" ++ id ++ "'"
  | .unknownLinkPort ends cp =>
    "Link " ++ ends.display ++ " references unknown port " ++ cp.display

/-- The message of a failure: its class and what happened. -/
def message (f : Failure) : String := f.kind.lead ++ ": " ++ f.detail

/-- The failure of a text that should be a connect point, or its value. -/
def ofConnectPoint (text : String) : Except Failure ConnectPoint :=
  (ConnectPoint.read text).mapError (fun fault => .badConnectPoint fault text)

/-- The failure of a text that should be a mode, or its value. -/
def ofMode (text : String) : Except Failure Mode := (Mode.read text).mapError .badMode

end Failure

end Lightpath

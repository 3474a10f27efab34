import Lightpath.Json.Writer
import Lightpath.Optimizer.Lifecycle
import Lightpath.Optimizer.Listing
import Lightpath.Optimizer.Planning
import Lightpath.Shell.Command
import Lightpath.Shell.Listing
import Lightpath.Shell.Record

/-!
# The shell — one command per line

A line is read as a command, which is executed on an optimizer and gives a `Reply`. Blank lines and
lines that start with `#` give nothing. A failing command does not end a session; `exit` does.
-/

namespace Lightpath

/-- What a line of input gives. -/
inductive Reply where
  /-- A blank line or a comment gives nothing. -/
  | silence
  | text (s : String)
  | record (j : Json)
  | help
  | misuse (f : UsageFault)
  | failure (f : Failure)
  | exit
deriving Inhabited

namespace Reply

/-- What the shell prints for a reply, without the last line break; nothing for an empty text. -/
def printed : Reply → Option String
  | .silence | .exit => none
  | .text s => if s.isEmpty then none else some s
  | .record j => some j.pretty
  | .help => some Command.overview
  | .misuse f => some ("Error: " ++ f.message)
  | .failure f => some ("Error: " ++ f.message)

end Reply

namespace Optimizer

/-- The state after an operation with the reply to its result. -/
def replied {α : Type} (o : Outcome α) (reply : Optimizer → α → Reply) : Optimizer × Reply :=
  match o.result with
  | .error f => (o.optimizer, .failure f)
  | .ok a => (o.optimizer, reply o.optimizer a)

/-- The reply to a change of the network, with a hint if the catalog is out of date. -/
def statusReply (message : String) (json : Bool) (o : Optimizer) : Reply :=
  if json then .record (Record.status message o.stale)
  else if o.stale then
    .text (message ++ "\nWDM paths must be recalculated with wdm-path-calc.")
  else .text message

/-- The pair of ports of the options with a number. -/
def endsOf (n : String) (ingress egress : Option ConnectPoint) : Except Failure Ends :=
  match ingress, egress with
  | none, _ => .error (.missingOption ("--ingress" ++ n))
  | some _, none => .error (.missingOption ("--egress" ++ n))
  | some i, some e => .ok ⟨i, e⟩

/-- The pairs of ports of the options; the second pair may be absent as a whole. -/
def pairsOf (ingress1 egress1 ingress2 egress2 : Option ConnectPoint) :
    Except Failure (List Ends) :=
  match endsOf "1" ingress1 egress1 with
  | .error f => .error f
  | .ok main =>
    if ingress2.isSome || egress2.isSome then
      (endsOf "2" ingress2 egress2).map fun tributary => [main, tributary]
    else .ok [main]

/-- The reply to a listing of the catalog. -/
def listWdmPaths (o : Optimizer) (index : Option Nat) (ingress egress : Option ConnectPoint)
    (detail json : Bool) : Reply :=
  let all := (o.wdmPaths ingress egress).mapIdx fun i p => (i + 1, p)
  let listed := all.filter fun p => index.all (fun i => p.1 == i)
  match index, listed with
  | some i, [] => .failure (.unknownListing i)
  | _, listed =>
    if json then .record (Record.wdmPaths detail listed) else .text (Listing.wdmPaths detail listed)

/-- The reply to a listing of stored paths. The ports of the filter have to be OCH ports. -/
def listWavelengthPaths (o : Optimizer) (f : PathFilter) (detail json : Bool) : Reply :=
  match (f.ingress.toList ++ f.egress.toList).forM o.checkOchPort with
  | .error failure => .failure failure
  | .ok () =>
    match o.wavelengthPaths f with
    | .error failure => .failure failure
    | .ok paths =>
      if json then .record (Record.wavelengthPaths detail paths)
      else .text (Listing.wavelengthPaths detail paths)

/-- The reply to a calculation of candidates. -/
def candidatesReply (json : Bool) (candidates : List Candidate) : Reply :=
  if json then .record (Record.candidates candidates)
  else .text ("Calculate wavelength path succeeded.\n" ++ Listing.candidates candidates)

/-- The reply to a reservation. -/
def reservationReply (json : Bool) (paths : List WavelengthPath) : Reply :=
  let group := (paths.head?.map WavelengthPath.group).getD 0
  if json then .record (Record.group group true paths)
  else
    .text ("Reserve wavelength path succeeded. SubmitID=" ++ toString group ++ "\n" ++
      Listing.wavelengthPaths false paths)

/-- The reply to an operation on a group. -/
def groupReply (verb : String) (group : Nat) (json : Bool) (paths : List WavelengthPath) : Reply :=
  if json then .record (Record.group group false paths)
  else .text (verb ++ " wavelength path succeeded. SubmitID=" ++ toString group)

/-- The reply to a calculation of the catalog. -/
def changeReply (json : Bool) (c : CatalogChange) : Reply :=
  let added := c.added.length
  let removed := c.removed.length
  if json then .record (Record.change added removed)
  else
    .text ("Calculate WDM path succeeded. added=" ++ toString added ++ " removed=" ++
      toString removed)

/-- Executes a command. -/
def execute (o : Optimizer) : Command → Optimizer × Reply
  | .wdmPathCalc ingress egress json =>
    replied (o.calculateWdmPaths ingress egress) fun _ c => changeReply json c
  | .wdmPaths index ingress egress detail json =>
    (o, o.listWdmPaths index ingress egress detail json)
  | .wavelengthPathCalc ingress1 egress1 ingress2 egress2 force json =>
    match pairsOf ingress1 egress1 ingress2 egress2 with
    | .error f => (o, .failure f)
    | .ok pairs =>
      replied (o.calculateWavelengthPaths pairs force) fun _ found => candidatesReply json found
  | .wavelengthPathReserve index ids names json =>
    replied (o.reserve index ids names) fun _ paths => reservationReply json paths
  | .wavelengthPathSubmit group json =>
    replied (o.submit group) fun _ paths => groupReply "Submit" group json paths
  | .wavelengthPathRemove group json =>
    replied (o.remove group) fun _ paths => groupReply "Remove" group json paths
  | .wavelengthPaths filter detail json => (o, o.listWavelengthPaths filter detail json)
  | .linkState ends state json =>
    replied (o.setLinkState ends state) fun o _ =>
      o.statusReply ("Link " ++ ends.display ++ " is now " ++ state.label ++ ".") json
  | .linkRemove ends json =>
    replied (o.removeLink ends) fun o _ =>
      o.statusReply ("Link " ++ ends.display ++ " removed.") json
  | .deviceRemove id json =>
    replied (o.removeDevice id) fun o _ => o.statusReply ("Device " ++ id ++ " removed.") json
  | .exit => (o, .exit)

/-- Runs one line of input. -/
def runLine (o : Optimizer) (line : String) : Optimizer × Reply :=
  match Text.words line with
  | [] => (o, .silence)
  | first :: rest =>
    if first.startsWith "#" then (o, .silence)
    else
      match Command.read (first :: rest) with
      | .error .help => (o, .help)
      | .error (.fault f) => (o, .misuse f)
      | .ok command => o.execute command

/-- What an interactive shell prints before it reads a line. -/
def prompt (interactive : Bool) : String := if interactive then "optimizer> " else ""

/-- Runs lines up to `exit`, and the text that is printed meanwhile. -/
def runLines (interactive : Bool) (o : Optimizer) : List String → Optimizer × String
  | [] => (o, "")
  | line :: rest =>
    match o.runLine line with
    | (o, .exit) => (o, "")
    | (o, reply) =>
      let shown := (reply.printed.map (· ++ "\n")).getD ""
      let (o, more) := runLines interactive o rest
      (o, shown ++ prompt interactive ++ more)

/-- Runs a script, prompting before every line if interactive. -/
def runScript (interactive : Bool) (o : Optimizer) (lines : List String) : Optimizer × String :=
  let (o, shown) := o.runLines interactive lines
  (o, prompt interactive ++ shown)

end Optimizer

end Lightpath

import Lightpath.Network.Link
import Lightpath.Optimizer.Listing
import Lightpath.Shell.Arguments

/-!
# Commands — what an operator can ask for

A `Command` is a line of operator input that was understood. `Command.read` reads it from the words of
the line.
-/

namespace Lightpath

/-- A request of an operator. Every command that shows something can show it as a document. -/
inductive Command where
  | wdmPathCalc (ingress egress : Option ConnectPoint) (json : Bool)
  | wdmPaths (index : Option Nat) (ingress egress : Option ConnectPoint) (detail json : Bool)
  | wavelengthPathCalc (ingress1 egress1 ingress2 egress2 : Option ConnectPoint)
      (force json : Bool)
  | wavelengthPathReserve (index : Nat) (ids : List Int) (names : List String) (json : Bool)
  | wavelengthPathSubmit (group : Nat) (json : Bool)
  | wavelengthPathRemove (group : Nat) (json : Bool)
  | wavelengthPaths (filter : PathFilter) (detail json : Bool)
  | linkState (ends : Ends) (state : LinkState) (json : Bool)
  | linkRemove (ends : Ends) (json : Bool)
  | deviceRemove (id : DeviceId) (json : Bool)
  | exit
deriving Inhabited

namespace Command

/-- The commands that there are, each with what it takes. -/
def forms : List (String × CommandForm) :=
  let port := OptionForm.single .port
  let number := OptionForm.single .natural
  [("wdm-path-calc", { options := [("ingress", port), ("egress", port), ("json", .flag)] }),
    ("wdm-paths",
      { options := [("index", number), ("ingress", port), ("egress", port), ("detail", .flag),
          ("json", .flag)] }),
    ("wavelength-path-calc",
      { options := [("ingress1", port), ("egress1", port), ("ingress2", port), ("egress2", port),
          ("force", .flag), ("json", .flag)] }),
    ("wavelength-path-reserve",
      { options := [("name", .many .word), ("json", .flag)], positionals := [.natural]
        rest := some .integer }),
    ("wavelength-path-submit", { options := [("json", .flag)], positionals := [.natural] }),
    ("wavelength-path-remove", { options := [("json", .flag)], positionals := [.natural] }),
    ("wavelength-paths",
      { options := [("id", number), ("submit-id", number), ("ingress", port), ("egress", port),
          ("reserved", .flag), ("submitted", .flag), ("detail", .flag), ("json", .flag)] }),
    ("link-state",
      { options := [("active", .flag), ("inactive", .flag), ("json", .flag)]
        positionals := [.port, .port] }),
    ("link-remove", { options := [("json", .flag)], positionals := [.port, .port] }),
    ("device-remove", { options := [("json", .flag)], positionals := [.word] }),
    ("exit", { options := [] })]

/-- The form of the command with a name. -/
def form? (name : String) : Option CommandForm := (forms.find? (fun f => f.1 == name)).map (·.2)

/-- The listing that options ask for. A path is not reserved and submitted at the same time. -/
def readListing (a : Arguments) : Except Stop Command :=
  if a.has "reserved" && a.has "submitted" then
    .error (.fault (.conflictingOptions "reserved" "submitted"))
  else
    .ok (.wavelengthPaths
      { id := a.natural? "id", group := a.natural? "submit-id", ingress := a.port? "ingress"
        egress := a.port? "egress", reservedOnly := a.has "reserved"
        submittedOnly := a.has "submitted" } (a.has "detail") (a.has "json"))

/-- The change of a link state that arguments ask for. -/
def readLinkState (src dst : ConnectPoint) (a : Arguments) : Except Stop Command :=
  match a.has "active", a.has "inactive" with
  | true, false => .ok (.linkState ⟨src, dst⟩ .active (a.has "json"))
  | false, true => .ok (.linkState ⟨src, dst⟩ .inactive (a.has "json"))
  | true, true => .error (.fault (.conflictingOptions "active" "inactive"))
  | false, false => .error (.fault (.missingChoice "active" "inactive"))

/-- The numbers among values. -/
def integers (values : List ArgValue) : List Int :=
  values.filterMap fun v => match v with
    | .integer n => some n
    | _ => none

/-- The command with a name and arguments. -/
def ofArguments (name : String) (a : Arguments) : Except Stop Command :=
  let json := a.has "json"
  match name, a.positionals with
  | "wdm-path-calc", _ => .ok (.wdmPathCalc (a.port? "ingress") (a.port? "egress") json)
  | "wdm-paths", _ =>
    .ok (.wdmPaths (a.natural? "index") (a.port? "ingress") (a.port? "egress") (a.has "detail") json)
  | "wavelength-path-calc", _ =>
    .ok (.wavelengthPathCalc (a.port? "ingress1") (a.port? "egress1") (a.port? "ingress2")
      (a.port? "egress2") (a.has "force") json)
  | "wavelength-path-reserve", .natural index :: ids =>
    .ok (.wavelengthPathReserve index (integers ids) (a.wordsOf "name") json)
  | "wavelength-path-submit", [.natural group] => .ok (.wavelengthPathSubmit group json)
  | "wavelength-path-remove", [.natural group] => .ok (.wavelengthPathRemove group json)
  | "wavelength-paths", _ => readListing a
  | "link-state", [.port src, .port dst] => readLinkState src dst a
  | "link-remove", [.port src, .port dst] => .ok (.linkRemove ⟨src, dst⟩ json)
  | "device-remove", [.word id] => .ok (.deviceRemove id json)
  | "exit", _ => .ok .exit
  | _, _ => .error (.fault .missingWord)

/-- The command that asks for help, alone or on one command. -/
def readHelp : List String → Stop
  | [] => .help
  | [topic] =>
    if (form? topic).isSome || topic = "help" then .help else .fault (.unknownCommand topic)
  | topic :: next :: _ =>
    .fault (.unknownCommand (if (form? topic).isSome || topic = "help" then next else topic))

/-- The command that the words of a line make up. -/
def read : List String → Except Stop Command
  | [] => .error (.fault .missingCommand)
  | name :: words =>
    match form? name with
    | some form =>
      match form.read words with
      | .error stop => .error stop
      | .ok a => ofArguments name a
    | none =>
      if name = "help" then .error (readHelp words)
      else
        match ({ options := [] } : CommandForm).scan {} none [name] with
        | .error .help => .error .help
        | _ => .error (.fault (.unknownCommand name))

/-- The names of the commands, for those who ask for help. -/
def overview : String := String.intercalate "\n" ("Commands:" :: forms.map (fun f => "  " ++ f.1))

end Command

end Lightpath

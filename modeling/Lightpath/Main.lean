import Lightpath.Optimizer.Load
import Lightpath.Shell.Run
import Lightpath.Wavelength.Journal
import Std.Time

/-!
# Command line

`lightpath --network FILE [--config FILE] [--script FILE]` runs the commands of a script, or those on
standard input. No program is started: with the external method, computing OSNR fails.
-/

namespace Lightpath

/-- The files named on the command line. -/
structure Invocation where
  network : Option String := none
  config : Option String := none
  script : Option String := none

namespace Invocation

/-- Reads the options of the command line from left to right. -/
def readFrom (i : Invocation) : List String → Option Invocation
  | [] => some i
  | option :: value :: rest =>
    if option = "--network" ∨ option = "-n" then readFrom { i with network := some value } rest
    else if option = "--config" ∨ option = "-c" then readFrom { i with config := some value } rest
    else if option = "--script" ∨ option = "-s" then readFrom { i with script := some value } rest
    else none
  | [_] => none

end Invocation

namespace Terminal

/-- The content of a file, if it can be read. -/
def fileContent? (path : String) : IO (Option String) := do
  try
    let content ← IO.FS.readFile path
    return some content
  catch _ => return none

/-- A file opened for reading, if that is possible. -/
def opened? (path : String) : IO (Option IO.FS.Handle) := do
  try
    let file ← IO.FS.Handle.mk path .read
    return some file
  catch _ => return none

/-- The present time as it stands in a journal. -/
def timestamp : IO String := do
  let now ← Std.Time.PlainDateTime.now
  return now.format "uuuu-MM-dd HH:mm:ss.SSS"

/-- Appends lines to the journal of an optimizer, if it has one. -/
def appendLines (o : Optimizer) (lines : List String) : IO Unit := do
  match o.settings.journal with
  | none => return
  | some path =>
    let file ← IO.FS.Handle.mk path .append
    for line in lines do file.putStrLn line

/-- The machine of the command line. Whether a journal can be appended to shows when it is opened. -/
def machine : Machine where
  canAppend _ := true
  canHold _ := true
  start _ _ _ _ := .error .programMissing

/-- Opens the journal and creates the directories on the way to it, if that is possible. A journal that
is new or empty gets its header. -/
def openJournal (o : Optimizer) : IO (Except Failure Unit) := do
  match o.settings.journal with
  | none => return .ok ()
  | some path =>
    let content ← fileContent? path
    let directories := (path.splitOn "/").dropLast
    try
      if directories.any (! ·.isEmpty) then IO.FS.createDirAll (System.mkFilePath directories)
      appendLines o (if (content.getD "").isEmpty then [Journal.header] else [])
      return .ok ()
    catch _ => return .error .fileUnreadable

/-- Appends the events that came after the first `known` ones. -/
def writeJournal (o : Optimizer) (known : Nat) : IO Unit := do
  let time ← timestamp
  appendLines o ((o.log.drop known).map fun e => Text.writeField time ++ ";" ++ Journal.row e)

/-- Prints a text at once. -/
def emit (out : IO.FS.Stream) (text : String) : IO Unit := do
  out.putStr text
  out.flush

/-- Runs the lines of an input up to `exit`. -/
def run (start : Optimizer) (interactive : Bool) (nextLine : IO String) : IO Unit := do
  let out ← IO.getStdout
  let mut o := start
  emit out (Optimizer.prompt interactive)
  repeat
    let line ← nextLine
    if line.isEmpty then break
    let known := o.log.length
    let (next, reply) := o.runLine line
    o := next
    writeJournal o known
    match reply with
    | .exit => break
    | _ =>
      match reply.printed with
      | some text => emit out (text ++ "\n")
      | none => pure ()
      emit out (Optimizer.prompt interactive)

end Terminal

end Lightpath

/-- Loads a network and runs commands on it. -/
def main (args : List String) : IO UInt32 := do
  let some invocation := Lightpath.Invocation.readFrom {} args
    | IO.eprintln "usage: lightpath --network FILE [--config FILE] [--script FILE]"; return 2
  let some network := invocation.network
    | IO.eprintln "usage: lightpath --network FILE [--config FILE] [--script FILE]"; return 2
  let refuse (f : Lightpath.Failure) : IO UInt32 := do
    IO.eprintln ("Error: Failed to load network '" ++ network ++ "'\n\nCaused by:\n    " ++ f.message)
    return 1
  let networkContent ← Lightpath.Terminal.fileContent? network
  let config ← invocation.config.mapM Lightpath.Terminal.fileContent?
  match Lightpath.Optimizer.load networkContent config Lightpath.Terminal.machine with
  | .error f => refuse f
  | .ok o =>
    if let .error f ← Lightpath.Terminal.openJournal o then return ← refuse f
    match invocation.script with
    | some script =>
      match ← Lightpath.Terminal.opened? script with
      | none =>
        IO.eprintln ("Error: Failed to open script '" ++ script ++ "'")
        return 1
      | some file => Lightpath.Terminal.run o false file.getLine
    | none =>
      let input ← IO.getStdin
      Lightpath.Terminal.run o (← input.isTty) input.getLine
    return 0

import Lightpath.Failure
import Lightpath.Json.Value

/-!
# Machines — the files and programs around an optimizer

Whether a file can be written and what a program answers is not decided by the library: a `Machine`
answers these questions, and everything that asks them takes one. Nothing is assumed of a machine
beyond that it gives the same answer to the same question.
-/

namespace Lightpath

/-- What a program prints, and the exit code it ends with. -/
structure ProgramResult where
  output : String
  exitCode : UInt8
deriving DecidableEq, Repr, Inhabited

/-- The answers of a machine. -/
structure Machine where
  /-- Whether a file of this name can be appended to. The file and the directories on the way to it are
  created where they are missing. -/
  canAppend : String → Bool
  /-- Whether documents can be written to a directory of this name, which is created where it is
  missing. -/
  canHold : String → Bool
  /-- What a program prints and ends with when it is started with some arguments in a directory to
  which documents were written under their names, or why it does not start. -/
  start : (directory : String) → (documents : List (String × Json)) → (program : String) →
    (arguments : List String) → Except StartFault ProgramResult

/-- On the machine without anything no file can be written and no program starts. -/
instance : Inhabited Machine :=
  ⟨fun _ => false, fun _ => false, fun _ _ _ _ => .error .programMissing⟩

end Lightpath

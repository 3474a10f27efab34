import Lightpath.Json.Reader
import Lightpath.Optimizer.Basic

/-!
# Loading — an optimizer from the content of files
-/

namespace Lightpath

/-- The value of a document that is the content of a file; there is no content if the file cannot be
read. -/
def readDocument {α : Type} (decode : Json → Option α) : Option String → Except Failure α
  | none => .error .fileUnreadable
  | some content =>
    match (Json.read? content).bind decode with
    | none => .error .documentMalformed
    | some a => .ok a

namespace Optimizer

/-- The optimizer of a network file and of a settings file, if one is named. -/
def load (network : Option String) (settings : Option (Option String))
    (machine : Machine) : Except Failure Optimizer :=
  match readDocument NetworkDocument.ofJson? network with
  | .error f => .error f
  | .ok n =>
    match settings with
    | none => ofNetwork n .default machine true
    | some content =>
      match readDocument Settings.ofJson? content with
      | .error f => .error f
      | .ok s => ofNetwork n s machine true

end Optimizer

end Lightpath

import Lightpath.Text.Separated
import Lightpath.Wavelength.Store

/-!
# The journal — path events as separated values

Every event is one record: the time at which it is written down, what happened, and the path that it
happened to.
-/

namespace Lightpath.Journal

/-- The names of the columns. -/
def columns : List String :=
  ["Time", "Event", "PathId", "GroupId", "FrequencyId", "Ingress", "Egress", "Submitted"]

/-- The header line. -/
def header : String := Text.writeRecord columns

/-- The fields of an event after its time. -/
def fields (e : PathEvent) : List String :=
  let p := e.path
  [e.name, toString p.id, toString p.group, toString p.frequencyId, p.leg.src.display,
    p.leg.dst.display, toString p.submitted]

/-- The line of an event after its time. -/
def row (e : PathEvent) : String := Text.writeRecord (fields e)

end Lightpath.Journal

import Lightpath.Optimizer.Basic

/-!
# Listings — stored WDM and wavelength paths in order
-/

namespace Lightpath

/-- Which stored paths to list; a part that is not given matches every path. -/
structure PathFilter where
  id : Option Nat := none
  group : Option Nat := none
  ingress : Option ConnectPoint := none
  egress : Option ConnectPoint := none
  reservedOnly : Bool := false
  submittedOnly : Bool := false
deriving Inhabited

/-- Whether a path passes a filter. -/
def PathFilter.admits (f : PathFilter) (p : WavelengthPath) : Bool :=
  f.id.all (fun id => p.id == id) && f.group.all (fun g => p.group == g) &&
    f.ingress.all p.terminatesAt && f.egress.all p.terminatesAt &&
    (!f.reservedOnly || !p.submitted) && (!f.submittedOnly || p.submitted)

/-- Stored paths are listed by group, then by id. -/
def WavelengthPath.listingOrder (p q : WavelengthPath) : Ordering :=
  (compare p.group q.group).then (compare p.id q.id)

namespace Optimizer

/-- The WDM paths between ports, ordered by their ends; paths with the same ends keep their order. -/
def wdmPaths (o : Optimizer) (ingress egress : Option ConnectPoint) : List WdmPath :=
  (o.catalog.getPaths ingress egress).mergeSort fun p q => (compare p.ends q.ends).isLE

/-- The stored paths to which a filter is applied: those that its most selective part finds. -/
def selection (o : Optimizer) (f : PathFilter) : Except Failure (List WavelengthPath) :=
  match f.id, f.group with
  | some id, _ =>
    match o.paths.get? id with
    | none => .error (.unknownPath id)
    | some p => .ok [p]
  | none, some group => .ok (o.paths.getGroup group)
  | none, none => .ok (o.paths.getPaths f.ingress f.egress)

/-- The stored paths that pass a filter, by group and id. An id has to be that of a stored path. -/
def wavelengthPaths (o : Optimizer) (f : PathFilter) : Except Failure (List WavelengthPath) :=
  match o.selection f with
  | .error failure => .error failure
  | .ok found =>
    .ok ((found.filter f.admits).mergeSort fun p q => (p.listingOrder q).isLE)

end Optimizer

end Lightpath

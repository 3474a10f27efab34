import Lightpath.Collection.Index
import Lightpath.Wdm.Path

/-!
# The catalog — computed WDM paths by their ends

Entries have serial numbers in the order in which they came, so that every listing is in that order.
Indexes by source, by destination and by both find the paths of a port or of a port pair. The catalog
is replaced within a `Scope`.
-/

namespace Lightpath

/-- The computed WDM paths with their indexes. -/
structure Catalog where
  entries : SortedMap Nat WdmPath := ∅
  bySource : Index ConnectPoint := ∅
  byDestination : Index ConnectPoint := ∅
  byEnds : Index Ends := ∅
  /-- The serial number of the next entry. -/
  next : Nat := 0
deriving Inhabited

/-- What was taken out of a catalog and what was put in. -/
structure CatalogChange where
  added : List WdmPath
  removed : List WdmPath
deriving Inhabited

namespace Catalog

/-! ## Looking up -/

/-- The number of paths. -/
def size (c : Catalog) : Nat := c.entries.size

/-- Every path in the order in which it came. -/
def toList (c : Catalog) : List WdmPath := c.entries.values

/-- The paths with the given serial numbers. -/
def resolve (c : Catalog) (serials : List Nat) : List WdmPath :=
  serials.filterMap c.entries.find?

/-- The paths from one port to another; a port that is not given may be any. -/
def getPaths (c : Catalog) : Option ConnectPoint → Option ConnectPoint → List WdmPath
  | some i, some e => c.resolve (c.byEnds.ids ⟨i, e⟩).toList
  | some i, none => c.resolve (c.bySource.ids i).toList
  | none, some e => c.resolve (c.byDestination.ids e).toList
  | none, none => c.toList

/-- The path between the same ports in the opposite direction over the mirrored route. -/
def getReverse? (c : Catalog) (p : WdmPath) : Option WdmPath :=
  (c.getPaths (some p.ends.dst) (some p.ends.src)).find? (fun q => q.isReverseOf p)

/-! ## Changing -/

/-- Adds a path behind the others. -/
def insert (c : Catalog) (p : WdmPath) : Catalog :=
  ⟨c.entries.insert c.next p, c.bySource.add p.ends.src c.next,
    c.byDestination.add p.ends.dst c.next, c.byEnds.add p.ends c.next, c.next + 1⟩

/-- Removes the path with a serial number. -/
def erase (c : Catalog) (serial : Nat) : Catalog :=
  match c.entries.find? serial with
  | none => c
  | some p =>
    ⟨c.entries.erase serial, c.bySource.drop p.ends.src serial,
      c.byDestination.drop p.ends.dst serial, c.byEnds.drop p.ends serial, c.next⟩

/-- The serial numbers of the paths that start or end at a port, those that start there first. -/
def touching (c : Catalog) (cp : ConnectPoint) : List Nat :=
  let outgoing := c.bySource.ids cp
  outgoing.toList ++ (c.byDestination.ids cp).toList.filter (fun s => !outgoing.contains s)

/-- The serial numbers of both directions of a port pair. -/
def joining (c : Catalog) (e : Ends) : List Nat :=
  let forth := c.byEnds.ids e
  forth.toList ++ (c.byEnds.ids e.reversed).toList.filter (fun s => !forth.contains s)

/-- The serial numbers of the paths within a scope: both directions of a port pair if both ports are
given, every path that touches a port if one is given, else every path. -/
def scope (c : Catalog) : Option ConnectPoint → Option ConnectPoint → List Nat
  | some i, some e => c.joining ⟨i, e⟩
  | some cp, none => c.touching cp
  | none, some cp => c.touching cp
  | none, none => c.entries.keys

/-- Puts paths in the place of those within a scope. -/
def replace (c : Catalog) (ingress egress : Option ConnectPoint) (paths : List WdmPath) :
    Catalog × CatalogChange :=
  let outdated := c.scope ingress egress
  (paths.foldl insert (outdated.foldl erase c), ⟨paths, c.resolve outdated⟩)

/-- Removes every path. -/
def clear (c : Catalog) : Catalog × CatalogChange := ({ next := c.next }, ⟨[], c.toList⟩)

end Catalog

end Lightpath

import Lightpath.Wdm.Catalog

/-!
# Listeners — who hears of changes to the catalog

Every change to an `ObservedCatalog` is one event, which is answered and sent to every listener in the
order in which they were added. A listener that was added twice hears each event twice.
-/

namespace Lightpath

/-- What is said of a change to the catalog. -/
inductive CatalogEvent where
  | replaced (added removed : List WdmPath)
  | cleared (removed : List WdmPath)
deriving Inhabited

/-- A catalog with its listeners, told apart by number, and what they heard so far. -/
structure ObservedCatalog where
  catalog : Catalog := {}
  /-- The listeners in the order in which they were added. -/
  listeners : List Nat := []
  /-- Which listener heard what, in order. -/
  heard : List (Nat × CatalogEvent) := []
deriving Inhabited

namespace ObservedCatalog

/-- Adds a listener, which hears of the changes from now on. -/
def addListener (o : ObservedCatalog) (listener : Nat) : ObservedCatalog :=
  { o with listeners := o.listeners ++ [listener] }

/-- Sends an event to every listener. -/
def notify (o : ObservedCatalog) (event : CatalogEvent) : ObservedCatalog :=
  { o with heard := o.heard ++ o.listeners.map fun listener => (listener, event) }

/-- Puts paths in the place of those within a scope and tells of it. -/
def replace (o : ObservedCatalog) (ingress egress : Option ConnectPoint) (paths : List WdmPath) :
    ObservedCatalog × CatalogEvent :=
  let (catalog, change) := o.catalog.replace ingress egress paths
  let event := .replaced change.added change.removed
  ({ o with catalog }.notify event, event)

/-- Removes every path and tells of it. -/
def clear (o : ObservedCatalog) : ObservedCatalog × CatalogEvent :=
  let (catalog, change) := o.catalog.clear
  let event := .cleared change.removed
  ({ o with catalog }.notify event, event)

end ObservedCatalog

end Lightpath

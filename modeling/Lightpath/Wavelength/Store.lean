import Lightpath.Collection.Index
import Lightpath.Failure
import Lightpath.Wavelength.Path

/-!
# The path store — reserved wavelength paths by id, group, port and channel

The store gives out the ids of paths and groups, both counted from 1. Beside the paths it keeps
indexes by group, by transponder port, by unordered port pair, and by hop and channel. Every change
reports what happened to which path as `PathEvent`s, in order.
-/

namespace Lightpath

/-- What happened to a stored path. -/
inductive PathEvent where
  /-- The path was stored; `coupled` are the other legs of its group that came with it. -/
  | added (path : WavelengthPath) (coupled : List Nat)
  | updated (path : WavelengthPath)
  | removed (path : WavelengthPath)
deriving Inhabited

namespace PathEvent

/-- The written name of an event. -/
def name : PathEvent → String
  | .added _ _ => "PATH_ADDED"
  | .updated _ => "PATH_UPDATED"
  | .removed _ => "PATH_REMOVED"

/-- The path that an event is about. -/
def path : PathEvent → WavelengthPath
  | .added p _ => p
  | .updated p => p
  | .removed p => p

end PathEvent

/-- A channel on a hop port. -/
structure HopChannel where
  port : ConnectPoint
  signal : Signal
deriving DecidableEq, Repr, Inhabited

namespace HopChannel

instance : Ord HopChannel := ⟨compareLex (compareOn port) (compareOn signal)⟩

instance : Std.TransOrd HopChannel := inferInstanceAs (Std.TransCmp (compareLex _ _))

instance : Std.LawfulEqOrd HopChannel where
  compare_self := Std.ReflCmp.compare_self
  eq_of_compare {a b} h := by
    obtain ⟨h₁, h₂⟩ := compareLex_eq_eq.1 h
    have h₁ := Std.LawfulEqOrd.eq_of_compare h₁
    have h₂ := Std.LawfulEqOrd.eq_of_compare h₂
    cases a; cases b; simp_all

end HopChannel

/-- The stored paths with their indexes and the last ids given out. -/
structure PathStore where
  paths : SortedMap Nat WavelengthPath := ∅
  byGroup : Index Nat := ∅
  /-- The paths that start or end at a transponder port. -/
  byTerminal : Index ConnectPoint := ∅
  /-- The paths between two transponder ports, the lesser one named first. -/
  byPair : Index Ends := ∅
  /-- The path that uses a channel on a hop. -/
  byHop : SortedMap HopChannel Nat := ∅
  lastPathId : Nat := 0
  lastGroupId : Nat := 0
deriving Inhabited

namespace PathStore

/-! ## Looking up -/

/-- The stored paths with the given ids. -/
def resolve (s : PathStore) (ids : SortedSet Nat) : List WavelengthPath :=
  ids.toList.filterMap s.paths.find?

/-- The path with an id. -/
def get? (s : PathStore) (id : Nat) : Option WavelengthPath := s.paths.find? id

/-- Every path in the order of the ids. -/
def toList (s : PathStore) : List WavelengthPath := s.paths.values

/-- The number of stored paths. -/
def size (s : PathStore) : Nat := s.paths.size

/-- The paths of a group. -/
def getGroup (s : PathStore) (group : Nat) : List WavelengthPath :=
  s.resolve (s.byGroup.ids group)

/-- Paths that end at the given transponder ports in either direction; a port that is not given may
be any. -/
def getPaths (s : PathStore) : Option ConnectPoint → Option ConnectPoint → List WavelengthPath
  | some i, some e => s.resolve (s.byPair.ids (Ends.mk i e).ascending)
  | some cp, none => s.resolve (s.byTerminal.ids cp)
  | none, some cp => s.resolve (s.byTerminal.ids cp)
  | none, none => s.toList

/-- The path that uses a channel on a hop port. -/
def findByHop? (s : PathStore) (cp : ConnectPoint) (signal : Signal) : Option WavelengthPath :=
  (s.byHop.find? ⟨cp, signal⟩).bind s.get?

/-! ## Group ids -/

/-- Gives out the next group id. -/
def issueGroup (s : PathStore) : Nat × PathStore :=
  (s.lastGroupId + 1, { s with lastGroupId := s.lastGroupId + 1 })

/-- Whether a group id can be handed back: it has to be the last one given out. -/
def canReleaseGroup (s : PathStore) (group : Nat) : Bool := group != 0 && s.lastGroupId == group

/-- Hands a group id back if that is possible. -/
def releaseGroup (s : PathStore) (group : Nat) : PathStore :=
  if s.canReleaseGroup group then { s with lastGroupId := group - 1 } else s

/-! ## Indexing -/

/-- The hops of a path with its channel. -/
def hopChannels (p : WavelengthPath) : List HopChannel :=
  p.leg.route.hops.map fun cp => ⟨cp, p.signal⟩

/-- Enters a path into every index. -/
def index (s : PathStore) (p : WavelengthPath) : PathStore :=
  { s with
    byGroup := s.byGroup.add p.group p.id
    byTerminal := (s.byTerminal.add p.leg.src p.id).add p.leg.dst p.id
    byPair := s.byPair.add p.leg.ends.ascending p.id
    byHop := (hopChannels p).foldl (fun m h => m.insert h p.id) s.byHop }

/-- Takes a path out of every index. -/
def unindex (s : PathStore) (p : WavelengthPath) : PathStore :=
  { s with
    byGroup := s.byGroup.drop p.group p.id
    byTerminal := (s.byTerminal.drop p.leg.src p.id).drop p.leg.dst p.id
    byPair := s.byPair.drop p.leg.ends.ascending p.id
    byHop := (hopChannels p).foldl SortedMap.erase s.byHop }

/-! ## Changing -/

/-- Stores a path under its id. -/
def put (s : PathStore) (p : WavelengthPath) : PathStore :=
  let s := s.index p
  { s with paths := s.paths.insert p.id p }

/-- Forgets a path. -/
def discard (s : PathStore) (p : WavelengthPath) : PathStore :=
  let s := s.unindex p
  { s with paths := s.paths.erase p.id }

/-- Stores a list of paths under new ids, in their order. -/
def putAll (s : PathStore) : List WavelengthPath → PathStore × List WavelengthPath
  | [] => (s, [])
  | p :: rest =>
    let p := { p with id := s.lastPathId + 1 }
    let (s, stored) := putAll { s.put p with lastPathId := p.id } rest
    (s, p :: stored)

/-- The report that `p` was stored together with the paths `stored`. -/
def additionOf (stored : List WavelengthPath) (p : WavelengthPath) : PathEvent :=
  .added p ((stored.filter (fun q => q.id != p.id && q.group == p.group)).map WavelengthPath.id)

/-- Stores paths under new ids, whatever ids they had, and returns them as stored. -/
def add (s : PathStore) (paths : List WavelengthPath) :
    PathStore × List WavelengthPath × List PathEvent :=
  let (s, stored) := s.putAll paths
  (s, stored, stored.map (additionOf stored))

/-- Replaces the stored path with the same id. -/
def update (s : PathStore) (p : WavelengthPath) : Except Failure (PathStore × List PathEvent) :=
  match s.get? p.id with
  | none => .error (.unknownPath p.id)
  | some previous => .ok ((s.unindex previous).put p, [.updated p])

/-- Replaces stored paths one after the other. It stops at a path that is not stored; the paths
before it stay replaced. -/
def updateAll (s : PathStore) : List WavelengthPath →
    PathStore × List PathEvent × Except Failure Unit
  | [] => (s, [], .ok ())
  | p :: rest =>
    match s.update p with
    | .error f => (s, [], .error f)
    | .ok (s, events) =>
      let (s, others, result) := s.updateAll rest
      (s, events ++ others, result)

/-- Removes every path of a group. -/
def removeGroup (s : PathStore) (group : Nat) :
    PathStore × List WavelengthPath × List PathEvent :=
  let removed := s.getGroup group
  (removed.foldl discard s, removed, removed.map .removed)

end PathStore

end Lightpath

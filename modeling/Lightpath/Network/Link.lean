import Lightpath.Collection.SortedMap
import Lightpath.Network.ConnectPoint

/-!
# Links — directed edges between connect points

A link is identified by its two ends and carries a kind, a state and free annotations. The mirror
of a link (`Link.reversed`) swaps the ends and keeps the rest.
-/

namespace Lightpath

/-- Whether a link may be used. -/
inductive LinkState where
  | active
  | inactive
deriving DecidableEq, Repr, Inhabited

/-- What a link stands for. -/
inductive LinkKind where
  | optical
  | direct
  | indirect
deriving DecidableEq, Repr, Inhabited

namespace LinkState

/-- The name of a link state in documents. -/
def name : LinkState → String
  | .active => "ACTIVE"
  | .inactive => "INACTIVE"

/-- The name of a link state in listings. -/
def label : LinkState → String
  | .active => "Active"
  | .inactive => "Inactive"

/-- The link state of a name in documents. -/
def named? (s : String) : Option LinkState := [active, inactive].find? (fun x => x.name == s)

theorem named?_name (x : LinkState) : named? x.name = some x := by cases x <;> rfl

end LinkState

namespace LinkKind

/-- The name of a link kind in documents. -/
def name : LinkKind → String
  | .optical => "OPTICAL"
  | .direct => "DIRECT"
  | .indirect => "INDIRECT"

/-- The link kind of a name in documents. -/
def named? (s : String) : Option LinkKind := [optical, direct, indirect].find? (fun x => x.name == s)

theorem named?_name (x : LinkKind) : named? x.name = some x := by cases x <;> rfl

end LinkKind

/-- A directed edge between two connect points. -/
structure Link where
  src : ConnectPoint
  dst : ConnectPoint
  kind : LinkKind := .optical
  state : LinkState := .active
  annotations : SortedMap String String := ∅
deriving DecidableEq, Repr, Inhabited

namespace Link

/-- The ends that identify the link. -/
def ends (l : Link) : Ends := ⟨l.src, l.dst⟩

/-- The active optical link between two ends, without annotations. -/
def between (src dst : ConnectPoint) : Link := ⟨src, dst, .optical, .active, ∅⟩

/-- Whether the link may be used. -/
def isActive (l : Link) : Bool := l.state == .active

/-- The same link seen from its other end. -/
def reversed (l : Link) : Link := ⟨l.dst, l.src, l.kind, l.state, l.annotations⟩

@[simp]
theorem reversed_reversed (l : Link) : l.reversed.reversed = l := rfl

@[simp]
theorem src_reversed (l : Link) : l.reversed.src = l.dst := rfl

@[simp]
theorem dst_reversed (l : Link) : l.reversed.dst = l.src := rfl

/-- The written form: source, arrow, destination. -/
def display (l : Link) : String := l.ends.display

end Link

end Lightpath

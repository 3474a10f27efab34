import Lightpath.Network.ConnectPoint
import Lightpath.Signal.Grid

/-!
# Resources — what can be held exclusively

A resource is a port or one flex-grid slot on a port.
-/

namespace Lightpath

/-- Something that at most one consumer holds at a time. -/
inductive Resource where
  | port (cp : ConnectPoint)
  | lambda (cp : ConnectPoint) (slot : Signal)
deriving DecidableEq, Repr, Inhabited

namespace Resource

/-- The port that the resource is, or lies on. -/
def connectPoint : Resource → ConnectPoint
  | .port cp => cp
  | .lambda cp _ => cp

/-- The slot of a lambda resource. -/
def slot? : Resource → Option Signal
  | .port _ => none
  | .lambda _ s => some s

/-- Resources are ordered by port; the port itself stands before its slots. -/
instance : Ord Resource := ⟨compareLex (compareOn connectPoint) (compareOn slot?)⟩

instance : Std.TransOrd Resource := inferInstanceAs (Std.TransCmp (compareLex _ _))

instance : Std.LawfulEqOrd Resource where
  compare_self := Std.ReflCmp.compare_self
  eq_of_compare {a b} h := by
    obtain ⟨h₁, h₂⟩ := compareLex_eq_eq.1 h
    have h₁ := Std.LawfulEqOrd.eq_of_compare h₁
    have h₂ := Std.LawfulEqOrd.eq_of_compare h₂
    cases a <;> cases b <;> simp_all [connectPoint, slot?]

/-- The written form of a resource. -/
def display : Resource → String
  | .port cp => cp.display
  | .lambda cp s => cp.display ++ "/" ++ s.display

end Resource

end Lightpath

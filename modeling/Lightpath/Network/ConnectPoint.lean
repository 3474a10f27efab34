import Lightpath.Text.Numeral

/-!
# Connect points — ports of devices

A connect point is a device with one of its port numbers, written `device/port`. The port is what
follows the last slash, so that a device id may itself hold slashes.
-/

namespace Lightpath

/-- The id of a device. -/
abbrev DeviceId := String

/-- A port of a device. -/
structure ConnectPoint where
  device : DeviceId
  port : Nat
deriving DecidableEq, Repr, Inhabited

namespace ConnectPoint

/-- Connect points are ordered by device id, then by port number. -/
instance : Ord ConnectPoint := ⟨compareLex (compareOn device) (compareOn port)⟩

instance : Std.TransOrd ConnectPoint := inferInstanceAs (Std.TransCmp (compareLex _ _))

instance : Std.LawfulEqOrd ConnectPoint where
  compare_self := Std.ReflCmp.compare_self
  eq_of_compare {a b} h := by
    obtain ⟨h₁, h₂⟩ := compareLex_eq_eq.1 h
    have h₁ := Std.LawfulEqOrd.eq_of_compare h₁
    have h₂ := Std.LawfulEqOrd.eq_of_compare h₂
    cases a; cases b; simp_all

/-- Why a text is no connect point. -/
inductive Fault where
  /-- The text has no slash. -/
  | noSlash
  /-- Nothing stands before the last slash. -/
  | noDevice
  /-- What follows the last slash is no port number. -/
  | badPort
deriving DecidableEq, Repr

/-- The written form: device, slash, port. -/
def display (cp : ConnectPoint) : String := cp.device ++ "/" ++ toString cp.port

/-- The parts of a character list before and after its last slash. -/
def splitAtLastSlash? : List Char → Option (List Char × List Char)
  | [] => none
  | c :: rest =>
    match splitAtLastSlash? rest with
    | some (before, after) => some (c :: before, after)
    | none => if c = '/' then some ([], rest) else none

/-- The connect point that a text names. A port number is below `2 ^ 64` and may have a plus
sign. -/
def read (s : String) : Except Fault ConnectPoint :=
  match splitAtLastSlash? s.toList with
  | none => .error .noSlash
  | some (device, port) =>
    if device.isEmpty then .error .noDevice
    else
      match Text.naturalBelow? Text.wordBound port with
      | none => .error .badPort
      | some n => .ok ⟨String.ofList device, n⟩

/-- The connect point that a text names, if any. -/
def read? (s : String) : Option ConnectPoint := (read s).toOption

end ConnectPoint

/-- Two connect points from one to the other: the ends of a link, which identify it, or of a path. -/
structure Ends where
  src : ConnectPoint
  dst : ConnectPoint
deriving DecidableEq, Repr, Inhabited

namespace Ends

/-- Ends are ordered by source, then by destination. -/
instance : Ord Ends := ⟨compareLex (compareOn src) (compareOn dst)⟩

instance : Std.TransOrd Ends := inferInstanceAs (Std.TransCmp (compareLex _ _))

instance : Std.LawfulEqOrd Ends where
  compare_self := Std.ReflCmp.compare_self
  eq_of_compare {a b} h := by
    obtain ⟨h₁, h₂⟩ := compareLex_eq_eq.1 h
    have h₁ := Std.LawfulEqOrd.eq_of_compare h₁
    have h₂ := Std.LawfulEqOrd.eq_of_compare h₂
    cases a; cases b; simp_all

/-- The same ends in the opposite direction. -/
def reversed (e : Ends) : Ends := ⟨e.dst, e.src⟩

@[simp]
theorem reversed_reversed (e : Ends) : e.reversed.reversed = e := rfl

/-- The two ends without direction: the lesser one first. -/
def ascending (e : Ends) : Ends := if (compare e.src e.dst).isLE then e else e.reversed

theorem ascending_reversed (e : Ends) : e.reversed.ascending = e.ascending := by
  have hswap : compare e.dst e.src = (compare e.src e.dst).swap := Std.OrientedCmp.eq_swap
  show (if (compare e.dst e.src).isLE then e.reversed else e) = _
  unfold ascending
  rw [hswap]
  cases h : compare e.src e.dst with
  | lt => rfl
  | gt => rfl
  | eq =>
    -- the two ends are one port
    have heq : e.src = e.dst := Std.LawfulEqOrd.eq_of_compare h
    obtain ⟨src, dst⟩ := e
    cases heq
    rfl

/-- Without direction, ends are the same exactly if they are equal or opposite. -/
theorem ascending_eq_iff {e f : Ends} : e.ascending = f.ascending ↔ e = f ∨ e = f.reversed := by
  constructor
  · have hcases (x : Ends) : x.ascending = x ∨ x.ascending = x.reversed := by
      unfold ascending
      split
      · exact .inl rfl
      · exact .inr rfl
    intro h
    rcases hcases e with he | he <;> rcases hcases f with hf | hf <;> rw [he, hf] at h
    · exact .inl h
    · exact .inr h
    · exact .inr (congrArg reversed h)
    · exact .inl (congrArg reversed h)
  · rintro (rfl | rfl)
    · rfl
    · exact ascending_reversed f

/-- The written form: source, arrow, destination. -/
def display (e : Ends) : String := e.src.display ++ " -> " ++ e.dst.display

end Ends

end Lightpath

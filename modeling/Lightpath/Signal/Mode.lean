import Lightpath.Text.Blank

/-!
# Transmission modes — line rate and modulation

A `Mode` is a pair of line rate and modulation, written `RATE/MODULATION`. `Mode.read` names the
reason when a text is no mode; blanks around either part are allowed.
-/

namespace Lightpath

/-- Line rates, in the order of modes. -/
inductive Rate where
  | r200G
  | r150G
  | r100G
  | r10p7G
  | r11p1G
deriving DecidableEq, Repr, Inhabited

/-- Modulations, in the order of modes. -/
inductive Modulation where
  | bpsk
  | dcDpBpsk
  | qpsk
  | dpQpsk
  | qam16
  | dpQam16
  | dcDpQam16
  | qam8
  | dpQam8
  | dcDpQam8
deriving DecidableEq, Repr, Inhabited

namespace Rate

/-- Every rate, in order. -/
def all : List Rate := [.r200G, .r150G, .r100G, .r10p7G, .r11p1G]

/-- The place of a rate in the order of modes. -/
def rank : Rate → Nat
  | .r200G => 0
  | .r150G => 1
  | .r100G => 2
  | .r10p7G => 3
  | .r11p1G => 4

/-- The written form of a rate. -/
def name : Rate → String
  | .r200G => "R200G"
  | .r150G => "R150G"
  | .r100G => "R100G"
  | .r10p7G => "R10.7G"
  | .r11p1G => "R11.1G"

/-- The rate of a written form. -/
def named? (s : String) : Option Rate := all.find? (fun r => r.name == s)

theorem named?_name (x : Rate) : named? x.name = some x := by cases x <;> rfl

theorem rank_injective : ∀ {a b : Rate}, a.rank = b.rank → a = b := by
  intro a b; cases a <;> cases b <;> simp [rank]

instance : Ord Rate := ⟨compareOn rank⟩

instance : Std.TransOrd Rate := inferInstanceAs (Std.TransCmp (compareOn rank))

instance : Std.LawfulEqOrd Rate where
  compare_self := Std.ReflCmp.compare_self
  eq_of_compare h := rank_injective (Std.LawfulEqOrd.eq_of_compare h)

end Rate

namespace Modulation

/-- Every modulation, in order. -/
def all : List Modulation :=
  [.bpsk, .dcDpBpsk, .qpsk, .dpQpsk, .qam16, .dpQam16, .dcDpQam16, .qam8, .dpQam8, .dcDpQam8]

/-- The place of a modulation in the order of modes. -/
def rank : Modulation → Nat
  | .bpsk => 0
  | .dcDpBpsk => 1
  | .qpsk => 2
  | .dpQpsk => 3
  | .qam16 => 4
  | .dpQam16 => 5
  | .dcDpQam16 => 6
  | .qam8 => 7
  | .dpQam8 => 8
  | .dcDpQam8 => 9

/-- The written form of a modulation. -/
def name : Modulation → String
  | .bpsk => "bpsk"
  | .dcDpBpsk => "dc-dp-bpsk"
  | .qpsk => "qpsk"
  | .dpQpsk => "dp-qpsk"
  | .qam16 => "qam16"
  | .dpQam16 => "dp-qam16"
  | .dcDpQam16 => "dc-dp-qam16"
  | .qam8 => "qam8"
  | .dpQam8 => "dp-qam8"
  | .dcDpQam8 => "dc-dp-qam8"

/-- The modulation of a written form. -/
def named? (s : String) : Option Modulation := all.find? (fun m => m.name == s)

theorem named?_name (x : Modulation) : named? x.name = some x := by cases x <;> rfl

theorem rank_injective : ∀ {a b : Modulation}, a.rank = b.rank → a = b := by
  intro a b; cases a <;> cases b <;> simp [rank]

instance : Ord Modulation := ⟨compareOn rank⟩

instance : Std.TransOrd Modulation := inferInstanceAs (Std.TransCmp (compareOn rank))

instance : Std.LawfulEqOrd Modulation where
  compare_self := Std.ReflCmp.compare_self
  eq_of_compare h := rank_injective (Std.LawfulEqOrd.eq_of_compare h)

end Modulation

/-- A line rate with a modulation. -/
structure Mode where
  rate : Rate
  modulation : Modulation
deriving DecidableEq, Repr, Inhabited

namespace Mode

/-- Why a text is no mode, or no part of one. -/
inductive Fault where
  /-- The text has no slash. -/
  | noSlash (text : String)
  /-- The part is no rate. -/
  | unknownRate (part : String)
  /-- The part is no modulation. -/
  | unknownModulation (part : String)
deriving DecidableEq, Repr

instance : Ord Mode := ⟨compareLex (compareOn Mode.rate) (compareOn Mode.modulation)⟩

instance : Std.TransOrd Mode := inferInstanceAs (Std.TransCmp (compareLex _ _))

instance : Std.LawfulEqOrd Mode where
  compare_self := Std.ReflCmp.compare_self
  eq_of_compare {a b} h := by
    obtain ⟨h₁, h₂⟩ := compareLex_eq_eq.1 h
    have h₁ := Std.LawfulEqOrd.eq_of_compare h₁
    have h₂ := Std.LawfulEqOrd.eq_of_compare h₂
    cases a; cases b; simp_all

/-- The written form of a mode. -/
def display (m : Mode) : String := m.rate.name ++ "/" ++ m.modulation.name

/-- The rate that a text names. -/
def readRate (s : String) : Except Fault Rate :=
  match Rate.named? s with
  | some r => .ok r
  | none => .error (.unknownRate s)

/-- The modulation that a text names. -/
def readModulation (s : String) : Except Fault Modulation :=
  match Modulation.named? s with
  | some m => .ok m
  | none => .error (.unknownModulation s)

/-- The parts of a character list before and after its first slash. -/
def splitAtSlash? : List Char → Option (List Char × List Char)
  | [] => none
  | c :: rest =>
    if c = '/' then some ([], rest)
    else (splitAtSlash? rest).map (fun (before, after) => (c :: before, after))

/-- The mode that a text names: a rate and a modulation around its first slash, each with blanks
allowed around it. The rate is judged first. -/
def read (s : String) : Except Fault Mode :=
  match splitAtSlash? s.toList with
  | none => .error (.noSlash s)
  | some (before, after) =>
    match readRate (String.ofList (Text.trimChars before)) with
    | .error e => .error e
    | .ok rate =>
      match readModulation (String.ofList (Text.trimChars after)) with
      | .error e => .error e
      | .ok modulation => .ok ⟨rate, modulation⟩

/-- The mode that a text names, if any. -/
def read? (s : String) : Option Mode := (read s).toOption

end Mode

end Lightpath

import Lightpath.Collection.SortedSet
import Lightpath.Numeric.Word

/-!
# The frequency grid — optical channels and flex-grid slots

A `Signal` is a channel on a frequency grid around the anchor of 193.1 THz. A fixed-grid channel is
made of flex-grid slots of 12.5 GHz whose centres lie on the odd steps of 6.25 GHz around it:
`Signal.flexSlots` expands a channel into its slots, and `channelsOf` collapses a set of slots into
the channels that are complete.

Multipliers are words of 32 bits, and so are the sums on the way from a channel to its slots and back.
-/

namespace Lightpath

/-- The kinds of grid. -/
inductive GridKind where
  | dwdm
  | cwdm
  | flex
deriving DecidableEq, Repr, Inhabited

/-- The distances between neighbouring channels of a grid, widest first. -/
inductive Spacing where
  | ghz100
  | ghz50
  | ghz25
  | ghz12p5
  | ghz6p25
deriving DecidableEq, Repr, Inhabited

namespace GridKind

/-- The place of a grid in the order of signals. -/
def rank : GridKind → Nat
  | .dwdm => 0
  | .cwdm => 1
  | .flex => 2

/-- The name of a grid in listings. -/
def label : GridKind → String
  | .dwdm => "Dwdm"
  | .cwdm => "Cwdm"
  | .flex => "Flex"

/-- The name of a grid in documents. -/
def name : GridKind → String
  | .dwdm => "DWDM"
  | .cwdm => "CWDM"
  | .flex => "FLEX"

/-- Every kind of grid. -/
def all : List GridKind := [.dwdm, .cwdm, .flex]

/-- The grid of a name in documents. -/
def named? (s : String) : Option GridKind := all.find? (fun g => g.name == s)

theorem rank_injective : ∀ {a b : GridKind}, a.rank = b.rank → a = b := by
  intro a b; cases a <;> cases b <;> simp [rank]

end GridKind

namespace Spacing

/-- The place of a spacing in the order of signals. -/
def rank : Spacing → Nat
  | .ghz100 => 0
  | .ghz50 => 1
  | .ghz25 => 2
  | .ghz12p5 => 3
  | .ghz6p25 => 4

/-- The spacing in GHz. -/
def ghz : Spacing → Float
  | .ghz100 => 100.0
  | .ghz50 => 50.0
  | .ghz25 => 25.0
  | .ghz12p5 => 12.5
  | .ghz6p25 => 6.25

/-- The spacing in GHz as it is listed, with two places. -/
def label : Spacing → String
  | .ghz100 => "100.00"
  | .ghz50 => "50.00"
  | .ghz25 => "25.00"
  | .ghz12p5 => "12.50"
  | .ghz6p25 => "6.25"

/-- The spacing in steps of 6.25 GHz. -/
def steps : Spacing → Nat
  | .ghz100 => 16
  | .ghz50 => 8
  | .ghz25 => 4
  | .ghz12p5 => 2
  | .ghz6p25 => 1

/-- The number of flex-grid slots that a channel of this spacing is made of. -/
def slotCount (s : Spacing) : Nat := max (s.steps / 2) 1

/-- The name of a spacing in documents. -/
def name : Spacing → String
  | .ghz100 => "CHL_100GHZ"
  | .ghz50 => "CHL_50GHZ"
  | .ghz25 => "CHL_25GHZ"
  | .ghz12p5 => "CHL_12P5GHZ"
  | .ghz6p25 => "CHL_6P25GHZ"

/-- Every spacing. -/
def all : List Spacing := [.ghz100, .ghz50, .ghz25, .ghz12p5, .ghz6p25]

/-- The spacing of a name in documents. -/
def named? (s : String) : Option Spacing := all.find? (fun g => g.name == s)

theorem rank_injective : ∀ {a b : Spacing}, a.rank = b.rank → a = b := by
  intro a b; cases a <;> cases b <;> simp [rank]

end Spacing

/-- One optical channel on a grid: its centre lies `multiplier` spacings from the anchor. -/
structure Signal where
  grid : GridKind
  spacing : Spacing
  multiplier : Int
  /-- The width of the channel in slots of 12.5 GHz, as announced. -/
  granularity : Int
deriving DecidableEq, Repr, Inhabited

/-- The anchor of the grid in THz. -/
def anchorThz : Float := 193.1

namespace Signal

/-! ## Order -/

/-- Signals are ordered by grid, spacing and frequency. -/
def order : Signal → Signal → Ordering :=
  compareLex (compareOn (fun s => s.grid.rank))
    (compareLex (compareOn (fun s => s.spacing.rank))
      (compareLex (compareOn Signal.multiplier) (compareOn Signal.granularity)))

instance : Ord Signal := ⟨order⟩

instance : Std.TransOrd Signal := inferInstanceAs (Std.TransCmp (compareLex _ (compareLex _ (compareLex _ _))))

instance : Std.LawfulEqOrd Signal where
  compare_self := Std.ReflCmp.compare_self
  eq_of_compare {a b} h := by
    obtain ⟨h₁, h⟩ := compareLex_eq_eq.1 h
    obtain ⟨h₂, h⟩ := compareLex_eq_eq.1 h
    obtain ⟨h₃, h₄⟩ := compareLex_eq_eq.1 h
    have h₁ := GridKind.rank_injective (Std.LawfulEqOrd.eq_of_compare h₁)
    have h₂ := Spacing.rank_injective (Std.LawfulEqOrd.eq_of_compare h₂)
    have h₃ := Std.LawfulEqOrd.eq_of_compare h₃
    have h₄ := Std.LawfulEqOrd.eq_of_compare h₄
    cases a; cases b; simp_all

/-! ## Channels and slots -/

/-- The fixed-grid channel `multiplier` spacings from the anchor. -/
def dwdm (spacing : Spacing) (multiplier : Int) : Signal := ⟨.dwdm, spacing, multiplier, 4⟩

/-- The flex-grid slot of 12.5 GHz centred `multiplier` steps of 6.25 GHz from the anchor. -/
def flexSlot (multiplier : Int) : Signal := ⟨.flex, .ghz6p25, multiplier, 1⟩

/-- The centre frequency in THz. -/
def centerThz (s : Signal) : Float :=
  anchorThz + Float.ofInt s.multiplier * s.spacing.ghz / 1000.0

/-- The slot multipliers of the fixed-grid channel `m`: odd steps around its centre, as words. -/
def slotMultipliers (spacing : Spacing) (m : Int) : List Int :=
  (List.range spacing.slotCount).map fun (i : Nat) =>
    word (1 - (spacing.slotCount : Int) + m * (spacing.steps : Int) + 2 * (i : Int))

/-- The flex-grid slots that make up the spectrum of a channel; a flex-grid channel stands for
itself. -/
def flexSlots (s : Signal) : List Signal :=
  if s.grid = .flex then [s] else (slotMultipliers s.spacing s.multiplier).map flexSlot

/-- The slot multipliers that occur in a list of signals. Signals of other grids are skipped. -/
def flexMultipliers (slots : List Signal) : SortedSet Int :=
  SortedSet.ofList ((slots.filter (fun s => s.grid = .flex)).map Signal.multiplier)

/-- The fixed-grid channels all of whose slots occur in a list of signals, in ascending order. A
channel starts at a slot that lies on the grid of its first slots; stray slots give nothing. -/
def channelsOf (slots : List Signal) (spacing : Spacing) : List Signal :=
  let free := flexMultipliers slots
  let width : Int := spacing.slotCount
  let steps : Int := spacing.steps
  (free.toList.filter fun start =>
      word (start - 1 + width) % steps = 0 &&
      (List.range spacing.slotCount).all (fun (i : Nat) =>
        i == 0 || free.contains (word (start + 2 * (i : Int))))).map
    fun start => dwdm spacing (Int.tdiv (word (start - 1 + width)) steps)

/-- The text of a signal in listings: grid, spacing, multiplier and granularity. -/
def display (s : Signal) : String :=
  s.grid.label ++ "/" ++ s.spacing.label ++ "GHz/" ++ toString s.multiplier ++ "/" ++
    toString s.granularity

end Signal

end Lightpath

import Lightpath.Network.Device
import Lightpath.Numeric.Double
import Lightpath.Quality.NoiseModel
import Lightpath.Quality.QValue

/-!
# The choice of a mode — what a transponder can send over a route and back

A mode is usable in a direction if the transponder supports it, the settings have a Q polynomial and
a threshold for it, and its Q reaches the threshold. Of the modes usable in both directions the one
with the highest rate is chosen, among equal rates the one with the best Q.
-/

namespace Lightpath

/-- The quality of each usable mode. -/
abbrev QualityMap := SortedMap Mode QValue

namespace QualitySettings

/-- The quality of a mode at an OSNR on a transponder, if the mode is usable. -/
def usable? (s : QualitySettings) (c : Capability) (vendor : String) (m : Mode) (osnr : Float) :
    Option QValue :=
  if c.supports m then
    match s.constants? vendor m, s.threshold? vendor m with
    | some constants, some threshold =>
      let v : QValue := ⟨QValue.polynomial constants osnr, threshold⟩
      if v.meetsThreshold then some v else none
    | _, _ => none
  else none

/-- The usable modes of a device in one direction. A device without transponders has none. -/
def usableModes (s : QualitySettings) (d : Device) (osnr : OsnrMap) : QualityMap :=
  match d.capability with
  | none => ∅
  | some c => osnr.filterMap (s.usable? c d.manufacturer)

/-- The modes usable in both directions, each with its lower quality. -/
def bothDirections (forward backward : QualityMap) : QualityMap :=
  forward.filterMap fun m v => (backward.find? m).map v.lower

/-- The order in which modes are preferred: by rate, then by quality. -/
def preference (s : QualitySettings) (a b : Mode × QValue) : Ordering :=
  (totalOrder (s.rateValue a.1.rate) (s.rateValue b.1.rate)).then (totalOrder a.2.q b.2.q)

/-- The more preferred of two modes, the second one of equals. -/
def better (s : QualitySettings) (a b : Mode × QValue) : Mode × QValue :=
  if s.preference a b = .gt then a else b

/-- The most preferred mode, the last one of equals. -/
def bestMode? (s : QualitySettings) (modes : QualityMap) : Option (Mode × QValue) :=
  match modes.entries with
  | [] => none
  | first :: rest => some (rest.foldl s.better first)

/-- The mode chosen for a device, given the OSNR of a route and of its way back. -/
def chooseMode? (s : QualitySettings) (d : Device) (forward backward : OsnrMap) :
    Option (Mode × QValue) :=
  s.bestMode? (bothDirections (s.usableModes d forward) (s.usableModes d backward))

end QualitySettings

end Lightpath

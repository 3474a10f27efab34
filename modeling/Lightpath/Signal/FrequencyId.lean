import Lightpath.Failure
import Lightpath.Numeric.Double
import Lightpath.Numeric.Word

/-!
# Frequency ids — the numbers that operators give to channels

Channels of 50 GHz are numbered by frequency. A `FrequencyPlan` fixes where the numbers start: the
channel at its lowest frequency has the id 1. Ids are words of 32 bits.
-/

namespace Lightpath

/-- The anchor of the grid in MHz. -/
def anchorMhz : Int := 193100000

/-- The distance of numbered channels in MHz. -/
def channelMhz : Int := 50000

/-- Where the frequency ids start. -/
structure FrequencyPlan where
  /-- The id of the channel at the anchor. -/
  idDelta : Int
deriving DecidableEq, Repr, Inhabited

namespace FrequencyPlan

/-- The plan whose ids start at a frequency in MHz. A start between two channels is moved toward the
anchor, and the number of its channel is taken as a word. -/
def ofMhz (lowest : Int) : FrequencyPlan :=
  ⟨word (-word (Int.tdiv (lowest - anchorMhz) channelMhz) + 1)⟩

/-- A frequency in THz as whole MHz, a half rounded away from zero. -/
def mhzOfThz (thz : Float) : Int := nearestWord 64 (thz * 1000000.0)

/-- The plan whose ids start at a frequency in THz. -/
def ofThz (lowest : Float) : FrequencyPlan := ofMhz (mhzOfThz lowest)

/-- The id of the channel `m` spacings of 50 GHz from the anchor. -/
def idOf (plan : FrequencyPlan) (m : Int) : Int := word (m + plan.idDelta)

/-- The id of a signal. Only fixed-grid channels of 50 GHz have one. -/
def channelId (plan : FrequencyPlan) (s : Signal) : Except Failure Int :=
  if s.grid = .dwdm ∧ s.spacing = .ghz50 then .ok (plan.idOf s.multiplier)
  else .error (.noFrequencyId s)

end FrequencyPlan

end Lightpath

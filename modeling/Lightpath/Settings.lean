import Lightpath.Quality.Settings

/-!
# Settings — the configuration of the optimizer

Every field of the settings document has a default. `Settings.validated` replaces what cannot be
used: no routes per device pair, and a frequency origin that is not finite or lies below the range
of the ids.
-/

namespace Lightpath

/-- The configuration of the optimizer. -/
structure Settings where
  /-- The number of routes computed per pair of devices. -/
  k : Nat
  /-- The centre frequency, in THz, of the frequency id 1. -/
  lowestFrequency : Float
  /-- The file that receives the events of wavelength paths. -/
  journal : Option String
  quality : QualitySettings

namespace Settings

/-- The settings of an empty document. -/
def default : Settings := ⟨3, 191.35, none, .default⟩

instance : Inhabited Settings := ⟨default⟩

/-- The lowest frequency, in THz, that may have the id 1. -/
def lowestOrigin : Float := 186.20

/-- The settings with unusable values replaced by their defaults. -/
def validated (s : Settings) : Settings :=
  { s with
    k := if s.k = 0 then default.k else s.k
    lowestFrequency :=
      if !s.lowestFrequency.isFinite || s.lowestFrequency < lowestOrigin then
        default.lowestFrequency
      else s.lowestFrequency
    quality := s.quality.validated }

/-- The settings of a document tree. -/
def ofJson? (j : Json) : Option Settings :=
  match j.fields? ["k", "lowestFrequencyTHzForCalcId", "eventJournal", "quality"] with
  | some [k, lowest, journal, quality] => do
    let k ← Json.defaulted? default.k Json.natural? k
    let lowest ← Json.defaulted? default.lowestFrequency Json.float? lowest
    let journal ← Json.optional? Json.text? journal
    let quality ← Json.defaulted? default.quality QualitySettings.ofJson? quality
    pure ⟨k, lowest, journal, quality⟩
  | _ => none

/-- The document tree of the settings. -/
def toJson (s : Settings) : Json :=
  Json.ofFields [("k", some (Json.ofNat s.k)),
    ("lowestFrequencyTHzForCalcId", some (Json.ofFloat s.lowestFrequency)),
    ("eventJournal", s.journal.map .str), ("quality", some s.quality.toJson)]

end Settings

end Lightpath

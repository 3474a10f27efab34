import Lightpath.Collection.SortedMap
import Lightpath.Quality.Table
import Lightpath.Signal.Mode

/-!
# Quality settings — coefficients, thresholds and the way quality is computed

`QualitySettings` is the part of the configuration that concerns signal quality. Every field of its
document has a default. `QualitySettings.validated` replaces what cannot be used and fills in the
missing rates and modulations.
-/

namespace Lightpath

/-- How the OSNR of routes is obtained. -/
inductive QualityMethod where
  /-- By an external command. -/
  | external
  /-- By the built-in noise model. -/
  | internal
deriving DecidableEq, Repr

/-- Everything that the quality of routes depends on apart from the network. -/
structure QualitySettings where
  method : String
  /-- Gb/s per rate. -/
  rateMap : SortedMap Rate Float
  /-- Bits per symbol. -/
  bitSymbolMap : SortedMap Modulation Float
  /-- Share of the power spectral density. -/
  powerSpectralMap : SortedMap Modulation Float
  /-- Noise figure per amplifier type in dB. -/
  noiseFigures : ParameterTable
  /-- Effective area per fiber type in µm². -/
  effectiveArea : ParameterTable
  /-- Nonlinear refractive index per fiber type in m²/W. -/
  nonlinearIndex : ParameterTable
  /-- Chromatic dispersion per fiber type in ps/nm/km. -/
  dispersion : ParameterTable
  /-- Launch power per fiber type in dBm. -/
  launchPower : ParameterTable
  /-- Power into the fiber behind a closing amplifier in dBm. -/
  preAmpPower : Float
  planckConstant : Float
  speedOfLight : Float
  /-- Noise bandwidth in GHz. -/
  noiseBandwidth : Float
  /-- Representative signal frequency in THz. -/
  userFrequency : Float
  /-- The modes evaluated for every route, as texts. -/
  modePatterns : List String
  /-- Coefficients of the Q polynomial by vendor and mode. -/
  qConstants : SortedMap String (SortedMap String (List Float))
  /-- Lowest acceptable Q in dB by vendor and mode. -/
  qThresholds : SortedMap String (SortedMap String Float)
  workingDirectory : String
  command : String
  timeoutSecs : Nat
  pollIntervalMs : Nat

namespace QualitySettings

/-- The name of the external method in documents. -/
def externalName : String := "gnpy"

/-- The name of the internal method in documents. -/
def internalName : String := "internal"

/-- The Gb/s of every rate. -/
def defaultRates : SortedMap Rate Float :=
  SortedMap.ofList
    [(.r200G, 200.0), (.r150G, 150.0), (.r100G, 100.0), (.r10p7G, 10.7), (.r11p1G, 11.1)]

/-- The bits per symbol of every modulation. -/
def defaultBitSymbols : SortedMap Modulation Float :=
  SortedMap.ofList
    [(.bpsk, 1.0), (.dcDpBpsk, 2.0), (.qpsk, 2.0), (.dpQpsk, 4.0), (.qam16, 4.0), (.dpQam16, 8.0),
      (.dcDpQam16, 8.0), (.qam8, 3.0), (.dpQam8, 6.0), (.dcDpQam8, 6.0)]

/-- The power share of every modulation. -/
def defaultPowerSpectral : SortedMap Modulation Float :=
  SortedMap.ofList
    [(.bpsk, 1.0), (.dcDpBpsk, 0.5), (.qpsk, 1.0), (.dpQpsk, 0.5), (.qam16, 1.0), (.dpQam16, 0.5),
      (.dcDpQam16, 0.5), (.qam8, 1.0), (.dpQam8, 0.5), (.dcDpQam8, 0.5)]

/-- The settings of an empty document. -/
def default : QualitySettings where
  method := externalName
  rateMap := defaultRates
  bitSymbolMap := defaultBitSymbols
  powerSpectralMap := defaultPowerSpectral
  noiseFigures := .ofList [("LowGainAmp", 8.8), ("HighGainAmp", 6.6)]
  effectiveArea := .ofList [("smf", 72.0), ("dsf", 45.0)]
  nonlinearIndex := .ofList [("smf", 2.6e-20), ("dsf", 2.6e-20)]
  dispersion := .ofList [("smf", 16.0), ("dsf", 0.0001)]
  launchPower := .ofList [("smf", 1.0), ("dsf", -5.0)]
  preAmpPower := 4.0
  planckConstant := 6.62607004e-34
  speedOfLight := 299792458.0
  noiseBandwidth := 12.5
  userFrequency := 193.1
  modePatterns := ["R100G/dp-qpsk", "R200G/dp-qam16"]
  qConstants := ∅
  qThresholds := ∅
  workingDirectory := "/tmp"
  command := "python3 gnpy.py"
  timeoutSecs := 300
  pollIntervalMs := 10

instance : Inhabited QualitySettings := ⟨default⟩

/-! ## Validation -/

/-- A map with the entries of `defaults` for the keys it lacks. -/
def fillIn {κ : Type} [Ord κ] [Std.TransOrd κ] [Std.LawfulEqOrd κ] (m defaults : SortedMap κ Float) :
    SortedMap κ Float :=
  defaults.entries.foldl (fun m e => if m.contains e.1 then m else m.insert e.1 e.2) m

/-- A positive number, or its default. -/
def positiveOr (n absent : Nat) : Nat := if n = 0 then absent else n

/-- The settings with unusable values replaced and missing entries filled in. -/
def validated (s : QualitySettings) : QualitySettings :=
  { s with
    method := if s.method = externalName ∨ s.method = internalName then s.method else externalName
    rateMap := fillIn s.rateMap defaultRates
    bitSymbolMap := fillIn s.bitSymbolMap defaultBitSymbols
    powerSpectralMap := fillIn s.powerSpectralMap defaultPowerSpectral
    timeoutSecs := positiveOr s.timeoutSecs default.timeoutSecs
    pollIntervalMs := positiveOr s.pollIntervalMs default.pollIntervalMs }

/-! ## Look-ups -/

/-- The way quality is computed; anything but the internal method is external. -/
def qualityMethod (s : QualitySettings) : QualityMethod :=
  if s.method = internalName then .internal else .external

/-- The Gb/s of a rate, 100 if the settings have none. -/
def rateValue (s : QualitySettings) (r : Rate) : Float := (s.rateMap.find? r).getD 100.0

/-- The bits per symbol of a modulation, 1 if the settings have none. -/
def bitSymbol (s : QualitySettings) (m : Modulation) : Float := (s.bitSymbolMap.find? m).getD 1.0

/-- The power share of a modulation, 1 if the settings have none. -/
def powerSpectral (s : QualitySettings) (m : Modulation) : Float :=
  (s.powerSpectralMap.find? m).getD 1.0

/-- The modes evaluated for every route: the patterns that are modes, each once. -/
def modes (s : QualitySettings) : List Mode :=
  (s.modePatterns.filterMap Mode.read?).foldl (fun ms m => if m ∈ ms then ms else ms ++ [m]) []

/-- The coefficients of the Q polynomial of a vendor's transponder in a mode, at least one. -/
def constants? (s : QualitySettings) (vendor : String) (m : Mode) : Option (List Float) :=
  (((s.qConstants.find? vendor).bind (fun byMode => byMode.find? m.display))).filter
    (fun c => !c.isEmpty)

/-- The threshold of a vendor's transponder in a mode, a finite number. -/
def threshold? (s : QualitySettings) (vendor : String) (m : Mode) : Option Float :=
  ((s.qThresholds.find? vendor).bind (fun byMode => byMode.find? m.display)).filter Float.isFinite

/-- The noise bandwidth in Hz. -/
def noiseBandwidthHz (s : QualitySettings) : Float := s.noiseBandwidth * 1.0e9

/-- The representative frequency in Hz. -/
def userFrequencyHz (s : QualitySettings) : Float := s.userFrequency * 1.0e12

/-! ## Documents -/

/-- A document object as a sorted map; the last value of a repeated key counts. -/
def mapOfJson? {κ ν : Type} [Ord κ] [Std.TransOrd κ] [Std.LawfulEqOrd κ] (key : String → Option κ)
    (value : Json → Option ν) (j : Json) : Option (SortedMap κ ν) :=
  (j.entries? key value).map SortedMap.ofList

/-- A sorted map as a document object. -/
def mapToJson {κ ν : Type} [Ord κ] (key : κ → String) (value : ν → Json) (m : SortedMap κ ν) : Json :=
  .obj (m.entries.map (fun e => (key e.1, value e.2)))

/-- The names of the fields in documents, in their order. -/
def fieldNames : List String :=
  ["method", "rateMap", "bitSymbolMap", "powerSpectralMap", "noiseFigures", "Aeff", "N2", "CD",
    "Pout", "preAmpPout", "planckConstant", "SoL", "deltaF", "userFrequency",
    "rateModFormatPattern", "osnrQConstantsMap", "qThresholdMap", "workingDirectory", "command",
    "timeoutSecs", "pollIntervalMs"]

/-- The Q coefficients of a document object. -/
def qConstantsOfJson? : Json → Option (SortedMap String (SortedMap String (List Float))) :=
  mapOfJson? some (mapOfJson? some (Json.list? Json.float?))

/-- The thresholds of a document object. -/
def qThresholdsOfJson? : Json → Option (SortedMap String (SortedMap String Float)) :=
  mapOfJson? some (mapOfJson? some Json.float?)

/-- The document object of the Q coefficients. -/
def qConstantsToJson (m : SortedMap String (SortedMap String (List Float))) : Json :=
  mapToJson id (mapToJson id (fun cs => .arr (cs.map Json.ofFloat))) m

/-- The document object of the thresholds. -/
def qThresholdsToJson (m : SortedMap String (SortedMap String Float)) : Json :=
  mapToJson id (mapToJson id Json.ofFloat) m

/-- The settings of a document object. -/
def ofJson? (j : Json) : Option QualitySettings :=
  match j.fields? fieldNames with
  | some [method, rates, bits, power, noise, area, index, dispersion, launch, preAmp, planck, light,
      bandwidth, frequency, patterns, constants, thresholds, directory, command, timeout, poll] => do
    let d := default
    let method ← Json.defaulted? d.method Json.text? method
    let rateMap ← Json.defaulted? d.rateMap (mapOfJson? Rate.named? Json.float?) rates
    let bitSymbolMap ← Json.defaulted? d.bitSymbolMap (mapOfJson? Modulation.named? Json.float?) bits
    let powerSpectralMap ←
      Json.defaulted? d.powerSpectralMap (mapOfJson? Modulation.named? Json.float?) power
    let noiseFigures ← Json.defaulted? d.noiseFigures ParameterTable.ofJson? noise
    let effectiveArea ← Json.defaulted? d.effectiveArea ParameterTable.ofJson? area
    let nonlinearIndex ← Json.defaulted? d.nonlinearIndex ParameterTable.ofJson? index
    let dispersion ← Json.defaulted? d.dispersion ParameterTable.ofJson? dispersion
    let launchPower ← Json.defaulted? d.launchPower ParameterTable.ofJson? launch
    let preAmpPower ← Json.defaulted? d.preAmpPower Json.float? preAmp
    let planckConstant ← Json.defaulted? d.planckConstant Json.float? planck
    let speedOfLight ← Json.defaulted? d.speedOfLight Json.float? light
    let noiseBandwidth ← Json.defaulted? d.noiseBandwidth Json.float? bandwidth
    let userFrequency ← Json.defaulted? d.userFrequency Json.float? frequency
    let modePatterns ← Json.defaulted? d.modePatterns (Json.list? Json.text?) patterns
    let qConstants ← Json.defaulted? d.qConstants qConstantsOfJson? constants
    let qThresholds ← Json.defaulted? d.qThresholds qThresholdsOfJson? thresholds
    let workingDirectory ← Json.defaulted? d.workingDirectory Json.text? directory
    let command ← Json.defaulted? d.command Json.text? command
    let timeoutSecs ← Json.defaulted? d.timeoutSecs Json.natural? timeout
    let pollIntervalMs ← Json.defaulted? d.pollIntervalMs Json.natural? poll
    pure { method, rateMap, bitSymbolMap, powerSpectralMap, noiseFigures, effectiveArea,
           nonlinearIndex, dispersion, launchPower, preAmpPower, planckConstant, speedOfLight,
           noiseBandwidth, userFrequency, modePatterns, qConstants, qThresholds, workingDirectory,
           command, timeoutSecs, pollIntervalMs }
  | _ => none

/-- The document object of the settings. -/
def toJson (s : QualitySettings) : Json :=
  .obj [("method", .str s.method),
    ("rateMap", mapToJson Rate.name Json.ofFloat s.rateMap),
    ("bitSymbolMap", mapToJson Modulation.name Json.ofFloat s.bitSymbolMap),
    ("powerSpectralMap", mapToJson Modulation.name Json.ofFloat s.powerSpectralMap),
    ("noiseFigures", s.noiseFigures.toJson), ("Aeff", s.effectiveArea.toJson),
    ("N2", s.nonlinearIndex.toJson), ("CD", s.dispersion.toJson), ("Pout", s.launchPower.toJson),
    ("preAmpPout", Json.ofFloat s.preAmpPower),
    ("planckConstant", Json.ofFloat s.planckConstant), ("SoL", Json.ofFloat s.speedOfLight),
    ("deltaF", Json.ofFloat s.noiseBandwidth), ("userFrequency", Json.ofFloat s.userFrequency),
    ("rateModFormatPattern", .arr (s.modePatterns.map .str)),
    ("osnrQConstantsMap", qConstantsToJson s.qConstants),
    ("qThresholdMap", qThresholdsToJson s.qThresholds),
    ("workingDirectory", .str s.workingDirectory), ("command", .str s.command),
    ("timeoutSecs", Json.ofNat s.timeoutSecs), ("pollIntervalMs", Json.ofNat s.pollIntervalMs)]

end QualitySettings

end Lightpath

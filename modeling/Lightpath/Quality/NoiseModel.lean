import Lightpath.Network.Detail
import Lightpath.Network.Route
import Lightpath.Quality.Settings

/-!
# The noise model — OSNR of a route from its physical elements

`NoiseModel.totalOsnr?` estimates the OSNR of a chain of section elements for one mode, from the
spontaneous emission of the amplifiers and the nonlinear interference of the fiber spans with ten
neighbouring channels on each side. There is no estimate when a coefficient table is empty or when
the numbers do not give a finite value.
-/

namespace Lightpath

/-- The OSNR of a route in dB by mode; a mode without estimate is missing. -/
abbrev OsnrMap := SortedMap Mode Float

namespace NoiseModel

/-- The ratio of a circle to its diameter. -/
def pi : Float := 3.141592653589793

/-- The ratio that a number of dB stands for. -/
def toLinear (db : Float) : Float := Float.pow 10.0 (db / 10.0)

/-- The number of dB of a ratio. -/
def toDb (ratio : Float) : Float := 10.0 * Float.log10 ratio

/-- The sum of a list, from its first item on. -/
def sum (l : List Float) : Float := l.foldl (· + ·) 0.0

/-- The product of a list, from its first item on. -/
def product (l : List Float) : Float := l.foldl (· * ·) 1.0

/-- What the model takes from an amplifier, in dB. -/
structure AmpFigures where
  gain : Float
  noiseFigure : Float

/-- What the model takes from a span. -/
structure SpanFigures where
  /-- Launch power in dBm. -/
  power : Float
  /-- Loss in dB/km. -/
  loss : Float
  /-- Length in km. -/
  length : Float
  /-- Effective area in m². -/
  area : Float
  /-- Nonlinear refractive index in m²/W. -/
  index : Float
  /-- Chromatic dispersion in ps/nm/m. -/
  dispersion : Float

/-- What the model takes from the signal. -/
structure SignalFigures where
  /-- Wavelength in m. -/
  wavelength : Float
  /-- Frequency in Hz. -/
  frequency : Float
  symbolRate : Float

/-- The stretch behind a closing amplifier: it has a launch power and no fiber. -/
def SpanFigures.preAmp (power : Float) : SpanFigures := ⟨power, 0.0, 0.0, 1.0, 1.0, 1.0⟩

/-- The launch power in W. -/
def SpanFigures.watt (s : SpanFigures) : Float := toLinear s.power / 1000.0

/-- The attenuation per km. -/
def SpanFigures.alpha (s : SpanFigures) : Float := (s.loss / 20.0) * Float.log 10.0

/-- The length over which the power has its nonlinear effect. -/
def SpanFigures.effectiveLength (s : SpanFigures) : Float :=
  (1.0 - Float.exp (-2.0 * s.alpha * s.length)) / (2.0 * s.alpha)

/-! ## Reading the chain -/

/-- The figures of the amplifiers, of the launching stretches and of the fiber spans of a chain, each
in the order of the chain. -/
structure ChainFigures where
  amps : List AmpFigures
  /-- Spans and pre-amplifier fibers. -/
  launches : List SpanFigures
  /-- Spans only. -/
  spans : List SpanFigures

/-- The figures of an amplifier. -/
def ampFigures? (q : QualitySettings) (type : String) (gain : Float) : Option AmpFigures :=
  (q.noiseFigures.getOrFirst? type).map fun noise => ⟨gain, noise⟩

/-- The figures of a span. -/
def spanFigures? (q : QualitySettings) (type : String) (loss length : Float) :
    Option SpanFigures := do
  let power ← q.launchPower.getOrFirst? type
  let area ← q.effectiveArea.getOrFirst? type
  let index ← q.nonlinearIndex.getOrFirst? type
  let dispersion ← q.dispersion.getOrFirst? type
  pure ⟨power, loss / (length * 1.0e-3), length * 1.0e-3, area * 1.0e-12, index,
    dispersion * 1.0e-3⟩

/-- The figures of a chain; none if a table that is asked is empty. -/
def chainFigures? (q : QualitySettings) : List SectionElement → Option ChainFigures
  | [] => some ⟨[], [], []⟩
  | .amp type gain :: rest => do
    let amp ← ampFigures? q type gain
    let figures ← chainFigures? q rest
    pure { figures with amps := amp :: figures.amps }
  | .preAmpFiber :: rest => do
    let figures ← chainFigures? q rest
    pure { figures with launches := .preAmp q.preAmpPower :: figures.launches }
  | .span type loss length :: rest => do
    let span ← spanFigures? q type loss length
    let figures ← chainFigures? q rest
    pure { figures with launches := span :: figures.launches, spans := span :: figures.spans }

/-- The figures of a signal in a mode. -/
def signalFigures (q : QualitySettings) (m : Mode) : SignalFigures :=
  let frequency := q.userFrequencyHz
  ⟨q.speedOfLight / frequency, frequency,
    q.rateValue m.rate / (q.powerSpectral m.modulation * q.bitSymbol m.modulation) * 0.001⟩

/-! ## Spontaneous emission -/

/-- The noise power of an amplifier. -/
def ampNoise (q : QualitySettings) (signal : SignalFigures) (a : AmpFigures) : Float :=
  (toLinear a.gain - 1.0) * toLinear a.noiseFigure * q.planckConstant * q.noiseBandwidthHz *
    signal.frequency

/-- The launch powers that the amplifiers of a chain are weighed against: the first amplifier against
the first launching stretch and so on, and against the pre-amplifier power where there is no further
stretch. -/
def launchPowers (q : QualitySettings) (figures : ChainFigures) : List Float :=
  (List.range figures.amps.length).map fun k =>
    ((figures.launches[k]?).getD (.preAmp q.preAmpPower)).watt

/-- The noise-to-signal ratio of the spontaneous emission of all amplifiers. -/
def noiseToSignal (q : QualitySettings) (signal : SignalFigures) (figures : ChainFigures) : Float :=
  sum ((figures.amps.zip (launchPowers q figures)).map fun e => ampNoise q signal e.1 / e.2)

/-! ## Nonlinear interference -/

/-- The neighbouring channels considered on each side. -/
def neighbours : Nat := 10

/-- The distance of neighbouring channels in Hz. -/
def neighbourSpacing : Float := 50.0e9

/-- The group velocity dispersion. -/
def groupDispersion (q : QualitySettings) (s : SpanFigures) (wavelength : Float) : Float :=
  -(wavelength * wavelength / (2.0 * pi * q.speedOfLight)) * s.dispersion * 1.0e24

/-- The nonlinear coefficient. -/
def nonlinearCoefficient (s : SpanFigures) (wavelength : Float) : Float :=
  (2.0 * pi * s.index) / (wavelength * s.area) * 1000.0

/-- The weight of the interference of the channel `i` places away; 0 is the channel itself. -/
def channelTerm (ratio symbolRate : Float) (i : Int) : Float :=
  let pi2 := pi * pi
  let b := symbolRate
  if i = 0 then 2.0 * Float.asinh (pi2 / 2.0 * ratio * b * b) / (2.0 * pi * ratio)
  else
    let offset := neighbourSpacing * Float.ofInt i
    let upper := (offset + b / 2.0) * b
    let lower := (offset - b / 2.0) * b
    (Float.asinh (pi2 * ratio * upper) - Float.asinh (pi2 * ratio * lower)) / (4.0 * pi * ratio)

/-- The interference of all channels in a span. -/
def interference (q : QualitySettings) (s : SpanFigures) (signal : SignalFigures) : Float :=
  let ratio := (groupDispersion q s signal.wavelength).abs / (2.0 * s.alpha)
  sum ((List.range (2 * neighbours + 1)).map fun (j : Nat) =>
    channelTerm ratio signal.symbolRate ((j : Int) - (neighbours : Int)))

/-- The nonlinear noise density that a span adds, between the spans before it and those from it
on. -/
def spanDensity (q : QualitySettings) (signal : SignalFigures) (before : List SpanFigures)
    (s : SpanFigures) (after : List SpanFigures) : Float :=
  let strength := nonlinearCoefficient s signal.wavelength * s.effectiveLength
  let entering := product (before.map fun p =>
    let gain := toLinear (p.loss * p.length)
    gain * gain * gain * Float.exp (-6.0 * p.alpha * p.length))
  let leaving := product ((s :: after).map fun p =>
    toLinear (p.loss * p.length) * Float.exp (-2.0 * p.alpha * p.length))
  let density := s.watt / signal.symbolRate
  strength * strength * entering * leaving *
    (density * density * density * interference q s signal)

/-- The nonlinear noise densities of the spans of a line, `before` being those already passed. -/
def spanDensities (q : QualitySettings) (signal : SignalFigures) (before : List SpanFigures) :
    List SpanFigures → List Float
  | [] => []
  | s :: after => spanDensity q signal before s after :: spanDensities q signal (before ++ [s]) after

/-- The nonlinear noise power of all spans. -/
def nonlinearNoise (q : QualitySettings) (signal : SignalFigures) (spans : List SpanFigures) :
    Float :=
  let density := sum (spanDensities q signal [] spans) * (16.0 / 27.0)
  let length := sum (spans.map SpanFigures.effectiveLength)
  q.noiseBandwidthHz * (density * (0.0121 * length - 0.0744)) / 1.0e12

/-! ## The estimate -/

/-- The OSNR, in dB, of a chain of section elements in a mode. -/
def totalOsnr? (q : QualitySettings) (elements : List SectionElement) (m : Mode) : Option Float :=
  match chainFigures? q elements with
  | none => none
  | some figures =>
    let signal := signalFigures q m
    let osnr := 1.0 / noiseToSignal q signal figures
    let emission := sum (figures.amps.map (ampNoise q signal))
    let total := toDb ((osnr * emission) / (emission + nonlinearNoise q signal figures.spans))
    if total.isFinite then some total else none

/-- The section elements along a route. -/
def routeElements (d : LinkDetails) (r : Route) : List SectionElement :=
  r.links.flatMap (fun l => d.elements l.ends)

/-- The OSNR of a route in every mode that has an estimate. -/
def routeOsnr (q : QualitySettings) (d : LinkDetails) (modes : List Mode) (r : Route) : OsnrMap :=
  SortedMap.ofList (modes.filterMap fun m =>
    (totalOsnr? q (routeElements d r) m).map fun osnr => (m, osnr))

end NoiseModel

end Lightpath

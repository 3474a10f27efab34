import Lightpath.Wavelength.Candidate
import Lightpath.Wavelength.Path
import Lightpath.Wdm.Path

/-!
# Texts for operators — candidates and paths as indented lines
-/

namespace Lightpath.Listing

/-- What is shown when there is nothing to show. -/
def nothing : String := "No results."

/-- Lines as one text, or that there are none. -/
def page (lines : List String) : String :=
  if lines.isEmpty then nothing else String.intercalate "\n" lines

/-- The lines of numbered links. -/
def links (l : List Link) : List String :=
  "    Links" :: l.mapIdx fun i e => "      Link[" ++ toString (i + 1) ++ "] " ++ e.ends.display

/-- A frequency in THz with two places. -/
def frequency (s : Signal) : String := Text.fixed 2 s.centerThz ++ "THz"

/-- The lines of an offer. -/
def offer (i : Nat) (o : Offer) : List String :=
  ["  Path[" ++ toString (i + 1) ++ "]",
    "    Ingress=" ++ o.leg.src.display,
    "    Egress=" ++ o.leg.dst.display,
    "    " ++ o.leg.quality.display,
    "    Rate=" ++ o.leg.mode.rate.name ++ " ModulationFormat=" ++ o.leg.mode.modulation.name] ++
    links o.leg.links ++
    "    Available Frequencies" ::
    o.signals.entries.map fun e => "      [" ++ toString e.1 ++ "] " ++ frequency e.2

/-- The lines of a candidate. -/
def candidate (i : Nat) (c : Candidate) : List String :=
  ("Index=" ++ toString (i + 1) ++ " " ++ c.kind) :: (c.offers.mapIdx offer).flatten

/-- Candidates, numbered from 1. -/
def candidates (l : List Candidate) : String := page (l.mapIdx candidate).flatten

/-- The lines of a stored path. -/
def wavelengthPath (detail : Bool) (p : WavelengthPath) : List String :=
  ["ID=" ++ toString p.id ++ " SubmitID=" ++ toString p.group,
    "    Name=" ++ p.label,
    "    Ingress=" ++ p.leg.src.display,
    "    Egress=" ++ p.leg.dst.display,
    "    Frequency=[" ++ toString p.frequencyId ++ "]" ++ frequency p.signal,
    "    Rate=" ++ p.leg.mode.rate.name,
    "    ModulationFormat=" ++ p.leg.mode.modulation.name,
    "    Qvalue=" ++ Text.fixed 3 p.leg.quality.q,
    "    Qmargin=" ++ Text.fixed 3 p.leg.quality.margin,
    "    Submitted=" ++ toString p.submitted] ++
    if detail then links p.leg.links else []

/-- Stored paths. -/
def wavelengthPaths (detail : Bool) (l : List WavelengthPath) : String :=
  page (l.flatMap (wavelengthPath detail))

/-- The lines of a WDM path with its number. -/
def wdmPath (detail : Bool) (p : Nat × WdmPath) : List String :=
  ("Index=" ++ toString p.1 ++ " " ++ p.2.ends.display ++ " Weight=" ++
      Text.fixed 3 p.2.route.weight ++ "km") ::
    (p.2.osnr.entries.map fun e => "    OSNR " ++ e.1.display ++ "=" ++ Text.fixed 3 e.2 ++ "dB") ++
    if detail then links p.2.route.links else []

/-- WDM paths with their numbers. -/
def wdmPaths (detail : Bool) (l : List (Nat × WdmPath)) : String := page (l.flatMap (wdmPath detail))

end Lightpath.Listing

import Lightpath.Proofs.Quality.Tables
import Lightpath.Quality.Settings
import Mathlib.Tactic.MkIffOfInductiveProp

/-!
# Quality settings read back as they were written

Every field of the settings has a place in their document, so that none of them falls back on its
default. The maps by rate and modulation are written under the names of these and the maps by
vendor and mode under texts; each of them reads back if its doubles are finite.
-/

namespace Lightpath.QualitySettings

open Json (Restores)

/-! ## Maps -/

/-- A map is restored if each of its values is. -/
theorem restores_map {κ ν : Type} [Ord κ] [Std.TransOrd κ] [Std.LawfulEqOrd κ]
    {key : String → Option κ} {name : κ → String} {value : Json → Option ν} {encode : ν → Json}
    {p : ν → Prop} (hname : ∀ k, key (name k) = some k)
    (h : ∀ v, Restores (value (encode v)) v (p v)) (m : SortedMap κ ν) :
    Restores (mapOfJson? key value (mapToJson name encode m)) m (∀ e ∈ m.entries, p e.2) :=
  Json.restores_sortedMap hname h m

theorem restores_qConstants (m : SortedMap String (SortedMap String (List Float))) :
    Restores (qConstantsOfJson? (qConstantsToJson m)) m
      (∀ e ∈ m.entries, ∀ f ∈ e.2.entries, ∀ x ∈ f.2, x.isFinite = true) :=
  restores_map Json.some_id (restores_map Json.some_id (Json.restores_list Json.restores_float)) m

theorem restores_qThresholds (m : SortedMap String (SortedMap String Float)) :
    Restores (qThresholdsOfJson? (qThresholdsToJson m)) m
      (∀ e ∈ m.entries, ∀ f ∈ e.2.entries, f.2.isFinite = true) :=
  restores_map Json.some_id (restores_map Json.some_id Json.restores_float) m

/-! ## Settings -/

/-- Quality settings that documents can express. -/
@[mk_iff]
structure Writable (s : QualitySettings) : Prop where
  rateMap : ∀ e ∈ s.rateMap.entries, e.2.isFinite = true
  bitSymbolMap : ∀ e ∈ s.bitSymbolMap.entries, e.2.isFinite = true
  powerSpectralMap : ∀ e ∈ s.powerSpectralMap.entries, e.2.isFinite = true
  noiseFigures : ∀ e ∈ s.noiseFigures.entries, e.2.isFinite = true
  effectiveArea : ∀ e ∈ s.effectiveArea.entries, e.2.isFinite = true
  nonlinearIndex : ∀ e ∈ s.nonlinearIndex.entries, e.2.isFinite = true
  dispersion : ∀ e ∈ s.dispersion.entries, e.2.isFinite = true
  launchPower : ∀ e ∈ s.launchPower.entries, e.2.isFinite = true
  preAmpPower : s.preAmpPower.isFinite = true
  planckConstant : s.planckConstant.isFinite = true
  speedOfLight : s.speedOfLight.isFinite = true
  noiseBandwidth : s.noiseBandwidth.isFinite = true
  userFrequency : s.userFrequency.isFinite = true
  qConstants : ∀ e ∈ s.qConstants.entries, ∀ f ∈ e.2.entries, ∀ x ∈ f.2, x.isFinite = true
  qThresholds : ∀ e ∈ s.qThresholds.entries, ∀ f ∈ e.2.entries, f.2.isFinite = true
  timeoutSecs : s.timeoutSecs < Text.wordBound
  pollIntervalMs : s.pollIntervalMs < Text.wordBound

/-- Quality settings are restored from their document. -/
theorem restores (s : QualitySettings) : Restores (ofJson? s.toJson) s s.Writable := by
  have hpatterns := Json.restores_list Json.restores_text s.modePatterns
  rw [ofJson?, toJson, Json.fields?_obj]
  · -- no field is left out, so no default is read
    refine ((Json.restores_text s.method).bind <|
      (restores_map Rate.named?_name Json.restores_float s.rateMap).bind <|
      (restores_map Modulation.named?_name Json.restores_float s.bitSymbolMap).bind <|
      (restores_map Modulation.named?_name Json.restores_float s.powerSpectralMap).bind <|
      s.noiseFigures.restores.bind <| s.effectiveArea.restores.bind <|
      s.nonlinearIndex.restores.bind <| s.dispersion.restores.bind <|
      s.launchPower.restores.bind <| (Json.restores_float s.preAmpPower).bind <|
      (Json.restores_float s.planckConstant).bind <| (Json.restores_float s.speedOfLight).bind <|
      (Json.restores_float s.noiseBandwidth).bind <| (Json.restores_float s.userFrequency).bind <|
      hpatterns.bind <| (restores_qConstants s.qConstants).bind <|
      (restores_qThresholds s.qThresholds).bind <| (Json.restores_text s.workingDirectory).bind <|
      (Json.restores_text s.command).bind <| (Json.restores_natural s.timeoutSecs).bind <|
      (Json.restores_natural s.pollIntervalMs).bind (.pure s)).congr ?_
    simp [writable_iff]
  · rfl
  · decide

end Lightpath.QualitySettings

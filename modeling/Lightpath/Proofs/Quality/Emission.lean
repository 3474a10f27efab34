import Lightpath.Quality.NoiseModel
import Mathlib.Data.List.Basic
import Mathlib.Data.List.Find

/-!
# Spontaneous emission — which stretch an amplifier is weighed against

Amplifiers and launching stretches are numbered separately, and an amplifier is weighed against the
stretch of its own number (`launchOfRank`). That is the stretch that it feeds (`nextLaunch`) as long as
the two kinds come in step, as they do where a chain starts with an amplifier and alternates
(`Alternates`). A chain that starts with a span is out of step, and its closing amplifier is weighed
against a span before it (`closing_amp_against_span`).
-/

namespace Lightpath

/-! ## Counting in lists -/

section Rank

variable {α β : Type} {p : α → Bool}

/-- Of the places where a predicate holds, the first one from a place on is the one whose number is the
count of those before. -/
theorem find?_findIdxs_le (l : List α) (start i : Nat) :
    (l.findIdxs p start).find? (fun j => decide (start + i ≤ j)) =
      (l.findIdxs p start)[(l.take i).countP p]? := by
  induction l generalizing start i with
  | nil => rfl
  | cons x rest ih =>
    cases i with
    | zero =>
      -- all places lie from the start on, so the first one is meant
      cases hplaces : (x :: rest).findIdxs p start with
      | nil => rfl
      | cons j _ =>
        have hj : start ≤ j := List.ge_of_mem_findIdxs j (by rw [hplaces]; exact List.mem_cons_self)
        simp [hj]
    | succ i =>
      have hrest := ih (start + 1) i
      rw [Nat.add_right_comm, Nat.add_assoc] at hrest
      by_cases hx : p x = true
      · simp [List.findIdxs_cons, hx, hrest]
      · simp [List.findIdxs_cons, hx, hrest]

/-- The number of a place where a predicate holds is the count of those before it. -/
theorem countP_take_getElem_findIdxs (l : List α) {k : Nat} (hk : k < (l.findIdxs p).length) :
    (l.take (l.findIdxs p)[k]).countP p = k := by
  have hfind := find?_findIdxs_le (p := p) l 0 (l.findIdxs p)[k]
  have hself : (l.findIdxs p).find? (fun j => decide (0 + (l.findIdxs p)[k] ≤ j)) =
      (l.findIdxs p)[k]? := by
    rw [List.getElem?_eq_getElem hk, List.find?_eq_some_iff_getElem]
    refine ⟨by simp, k, hk, rfl, fun j hj => ?_⟩
    have hascending : (l.findIdxs p).Pairwise (· < ·) := List.pairwise_findIdxs
    have hlt := List.pairwise_iff_getElem.1 hascending j k (Nat.lt_trans hj hk) hk hj
    simpa using hlt
  rw [hself] at hfind
  exact ((List.getElem?_inj hk List.nodup_findIdxs).1 hfind).symm

/-- What a partial function keeps of a list stands at the places where it is defined. -/
theorem getElem?_filterMap_eq {f : α → Option β} (h : ∀ x, (f x).isSome = p x) (l : List α) (k : Nat) :
    (l.filterMap f)[k]? = (l.findIdxs p)[k]?.bind fun i => l[i]?.bind f := by
  induction l generalizing k with
  | nil => rfl
  | cons x rest ih =>
    -- the places in the rest are counted from its own start
    have hrest : ∀ k : Nat, (rest.findIdxs p 1)[k]?.bind (fun (i : Nat) => (x :: rest)[i]?.bind f) =
        (rest.filterMap f)[k]? := by
      intro k
      rw [ih k, List.findIdxs_start, List.getElem?_map, Option.bind_map]
      rfl
    have hx := h x
    cases hfx : f x with
    | none =>
      rw [hfx] at hx
      rw [List.filterMap_cons_none hfx, List.findIdxs_cons, if_neg (by simp [← hx])]
      exact (hrest k).symm
    | some y =>
      rw [hfx] at hx
      rw [List.filterMap_cons_some hfx, List.findIdxs_cons, if_pos (by simp [← hx])]
      cases k with
      | zero => exact hfx.symm
      | succ k => exact (hrest k).symm

end Rank

/-! ## Places -/

namespace SectionElement

variable {elements : List SectionElement} {place : Nat}

/-- Whether an element is a stretch that an amplifier launches into. -/
def isLaunch (e : SectionElement) : Bool := !e.isAmp

/-- The places of the amplifiers of a chain. -/
def ampPlaces (elements : List SectionElement) : List Nat := elements.findIdxs isAmp

/-- The places of the launching stretches of a chain. -/
def launchPlaces (elements : List SectionElement) : List Nat := elements.findIdxs isLaunch

/-- The number of amplifiers before a place. -/
def ampsBefore (elements : List SectionElement) (place : Nat) : Nat :=
  (elements.take place).countP isAmp

/-- The number of launching stretches before a place. -/
def launchesBefore (elements : List SectionElement) (place : Nat) : Nat :=
  (elements.take place).countP isLaunch

/-- The place of the first launching stretch behind a place, which an amplifier there feeds. -/
def nextLaunch (elements : List SectionElement) (place : Nat) : Option Nat :=
  (launchPlaces elements).find? fun i => decide (place < i)

/-- The place of the launching stretch that has the number of the amplifier at a place. -/
def launchOfRank (elements : List SectionElement) (place : Nat) : Option Nat :=
  (launchPlaces elements)[ampsBefore elements place]?

theorem isAmp_of_mem_ampPlaces (h : place ∈ ampPlaces elements) :
    ∃ hlt : place < elements.length, elements[place].isAmp = true :=
  List.mem_findIdxs_iff_exists_getElem_pos.1 h

/-- The stretch behind an amplifier is the one whose number is the count of the stretches before. -/
theorem nextLaunch_eq (h : place ∈ ampPlaces elements) :
    nextLaunch elements place = (launchPlaces elements)[launchesBefore elements place]? := by
  rw [launchesBefore, launchPlaces, ← find?_findIdxs_le elements 0 place, Nat.zero_add]
  refine List.find?_congr fun i hi => decide_eq_decide.2 ⟨Nat.le_of_lt, fun hle => ?_⟩
  -- no stretch stands where an amplifier does
  refine Nat.lt_of_le_of_ne hle fun heq => ?_
  subst heq
  obtain ⟨hlt, hamp⟩ := isAmp_of_mem_ampPlaces h
  obtain ⟨_, hlaunch⟩ := List.mem_findIdxs_iff_exists_getElem_pos.1 hi
  simp [isLaunch, hamp] at hlaunch

/-- An amplifier has the number of the stretch that it feeds exactly if as many stretches as amplifiers
stand before it, or if its number exceeds those of all stretches and none follows. -/
theorem launchOfRank_eq_nextLaunch_iff (h : place ∈ ampPlaces elements) :
    launchOfRank elements place = nextLaunch elements place ↔
      ampsBefore elements place = launchesBefore elements place ∨
        elements.countP isLaunch ≤ ampsBefore elements place ∧
          elements.countP isLaunch ≤ launchesBefore elements place := by
  have hlength : (launchPlaces elements).length = elements.countP isLaunch := List.length_findIdxs
  rw [nextLaunch_eq h, launchOfRank, ← hlength]
  by_cases hamps : ampsBefore elements place < (launchPlaces elements).length
  · rw [List.getElem?_inj hamps List.nodup_findIdxs]
    omega
  · have hle := Nat.le_of_not_lt hamps
    rw [List.getElem?_eq_none hle, eq_comm, List.getElem?_eq_none_iff]
    omega

/-! ## Chains that alternate -/

/-- A chain consists of amplifiers each followed by a stretch. -/
inductive Alternates : List SectionElement → Prop
  | nil : Alternates []
  | cons {amp launch : SectionElement} {rest : List SectionElement} (hamp : amp.isAmp = true)
      (hlaunch : launch.isLaunch = true) (hrest : Alternates rest) :
      Alternates (amp :: launch :: rest)

/-- Where a chain alternates, as many stretches as amplifiers stand before each amplifier. -/
theorem Alternates.ampsBefore_eq (halternates : Alternates elements)
    (h : place ∈ ampPlaces elements) :
    ampsBefore elements place = launchesBefore elements place := by
  obtain ⟨hlt, hplace⟩ := isAmp_of_mem_ampPlaces h
  clear h
  induction halternates generalizing place with
  | nil => exact absurd hlt (Nat.not_lt_zero _)
  | @cons amp launch rest hamp hlaunch hrest ih =>
    match place with
    | 0 => rfl
    | 1 => exact absurd hplace (by simpa [isLaunch] using hlaunch)
    | i + 2 =>
      have hbefore := ih (Nat.lt_of_succ_lt_succ (Nat.lt_of_succ_lt_succ hlt)) hplace
      have hsecond : launch.isAmp = false := by simpa [isLaunch] using hlaunch
      simpa [ampsBefore, launchesBefore, hamp, hlaunch, hsecond, isLaunch] using hbefore

end SectionElement

/-! ## Figures -/

/-- The tables that the noise model asks have entries. -/
structure QualitySettings.HasTables (q : QualitySettings) : Prop where
  noiseFigures : q.noiseFigures.isEmpty = false
  launchPower : q.launchPower.isEmpty = false
  effectiveArea : q.effectiveArea.isEmpty = false
  nonlinearIndex : q.nonlinearIndex.isEmpty = false
  dispersion : q.dispersion.isEmpty = false

/-- A table with entries has a value for every name. -/
theorem ParameterTable.exists_getOrFirst? {t : ParameterTable} (h : t.isEmpty = false)
    (name : String) : ∃ v, t.getOrFirst? name = some v := by
  rw [getOrFirst?]
  cases t.get? name with
  | some v => exact ⟨v, rfl⟩
  | none =>
    obtain ⟨e, rest, hentries⟩ := List.exists_cons_of_ne_nil (List.isEmpty_eq_false_iff.1 h)
    exact ⟨e.2, by rw [first?, hentries]; rfl⟩

namespace NoiseModel

open SectionElement

variable {q : QualitySettings} {elements : List SectionElement} {figures : ChainFigures}

/-- What the model takes from an element that is an amplifier. -/
def amp? (q : QualitySettings) : SectionElement → Option AmpFigures
  | .amp type gain => ampFigures? q type gain
  | _ => none

/-- What the model takes from an element that is a launching stretch. -/
def launch? (q : QualitySettings) : SectionElement → Option SpanFigures
  | .amp _ _ => none
  | .preAmpFiber => some (.preAmp q.preAmpPower)
  | .span type loss length => spanFigures? q type loss length

theorem isSome_amp? (h : q.HasTables) (e : SectionElement) : (amp? q e).isSome = e.isAmp := by
  cases e with
  | amp type gain =>
    obtain ⟨noise, hnoise⟩ := ParameterTable.exists_getOrFirst? h.noiseFigures type
    simp [amp?, ampFigures?, hnoise, isAmp]
  | _ => rfl

theorem isSome_launch? (h : q.HasTables) (e : SectionElement) :
    (launch? q e).isSome = e.isLaunch := by
  cases e with
  | span type loss length =>
    obtain ⟨power, hpower⟩ := ParameterTable.exists_getOrFirst? h.launchPower type
    obtain ⟨area, harea⟩ := ParameterTable.exists_getOrFirst? h.effectiveArea type
    obtain ⟨index, hindex⟩ := ParameterTable.exists_getOrFirst? h.nonlinearIndex type
    obtain ⟨dispersion, hdispersion⟩ := ParameterTable.exists_getOrFirst? h.dispersion type
    simp [launch?, spanFigures?, hpower, harea, hindex, hdispersion, isLaunch, isAmp]
  | _ => rfl

/-- Every chain has figures if the tables have entries: those of its amplifiers and those of its
launching stretches, each in the order of the chain. -/
theorem exists_chainFigures (h : q.HasTables) (elements : List SectionElement) :
    ∃ figures, chainFigures? q elements = some figures ∧
      figures.amps = elements.filterMap (amp? q) ∧
      figures.launches = elements.filterMap (launch? q) := by
  induction elements with
  | nil => exact ⟨_, rfl, rfl, rfl⟩
  | cons e rest ih =>
    obtain ⟨figures, hfigures, hamps, hlaunches⟩ := ih
    have hamp := isSome_amp? h e
    have hlaunch := isSome_launch? h e
    cases e with
    | amp type gain =>
      obtain ⟨a, ha⟩ := Option.isSome_iff_exists.1 hamp
      refine ⟨{ figures with amps := a :: figures.amps }, ?_, ?_, ?_⟩
      · rw [amp?] at ha
        rw [chainFigures?, ha, hfigures]
        rfl
      · rw [List.filterMap_cons_some ha, hamps]
      · rw [List.filterMap_cons_none rfl, hlaunches]
    | preAmpFiber =>
      refine ⟨{ figures with launches := .preAmp q.preAmpPower :: figures.launches }, ?_, ?_, ?_⟩
      · rw [chainFigures?, hfigures]
        rfl
      · rw [List.filterMap_cons_none rfl, hamps]
      · rw [hlaunches]
        rfl
    | span type loss length =>
      obtain ⟨s, hs⟩ := Option.isSome_iff_exists.1 hlaunch
      refine ⟨{ figures with launches := s :: figures.launches, spans := s :: figures.spans },
        ?_, ?_, ?_⟩
      · rw [launch?] at hs
        rw [chainFigures?, hs, hfigures]
        rfl
      · rw [List.filterMap_cons_none rfl, hamps]
      · rw [List.filterMap_cons_some hs, hlaunches]

/-! ## Weighing -/

/-- The noise power of the amplifier at a place. -/
def noiseAt (q : QualitySettings) (signal : SignalFigures) (elements : List SectionElement)
    (place : Nat) : Float :=
  ((elements[place]?.bind (amp? q)).map (ampNoise q signal)).getD 0.0

/-- The stretch at a place, or that behind a closing amplifier where there is none. -/
def launchAt (q : QualitySettings) (elements : List SectionElement) (place : Option Nat) :
    SpanFigures :=
  (place.bind fun i => elements[i]?.bind (launch? q)).getD (.preAmp q.preAmpPower)

/-- The noise-to-signal ratio of a chain in which the amplifier at each place is weighed against the
stretch that `fed` assigns to the place. -/
def weighed (q : QualitySettings) (signal : SignalFigures) (elements : List SectionElement)
    (fed : Nat → Option Nat) : Float :=
  sum ((ampPlaces elements).map fun place =>
    noiseAt q signal elements place / (launchAt q elements (fed place)).watt)

/-- Each amplifier is weighed against the stretch of its own number. -/
theorem noiseToSignal_eq_weighed (h : q.HasTables)
    (hamps : figures.amps = elements.filterMap (amp? q))
    (hlaunches : figures.launches = elements.filterMap (launch? q)) (signal : SignalFigures) :
    noiseToSignal q signal figures = weighed q signal elements (launchOfRank elements) := by
  have hlength : figures.amps.length = (ampPlaces elements).length := by
    rw [hamps, List.length_filterMap_eq_countP, ampPlaces, List.length_findIdxs]
    exact List.countP_congr fun e _ => by rw [isSome_amp? h]
  refine congrArg sum (List.ext_getElem (by simp [launchPowers, hlength]) fun k hk hk' => ?_)
  have hplace : k < (ampPlaces elements).length := by simpa using hk'
  have hamp : figures.amps[k]? = elements[(ampPlaces elements)[k]]?.bind (amp? q) := by
    rw [hamps, getElem?_filterMap_eq (isSome_amp? h)]
    exact congrArg (Option.bind · _) (List.getElem?_eq_getElem hplace)
  have hlaunch : figures.launches[k]? =
      (launchPlaces elements)[k]?.bind fun i => elements[i]?.bind (launch? q) := by
    rw [hlaunches, getElem?_filterMap_eq (isSome_launch? h)]
    rfl
  have hrank : ampsBefore elements (ampPlaces elements)[k] = k :=
    countP_take_getElem_findIdxs elements hplace
  have hk : k < figures.amps.length := hlength ▸ hplace
  simp only [List.getElem_map, List.getElem_zip, launchPowers, List.getElem_range, noiseAt, ← hamp,
    launchAt, launchOfRank, hrank, hlaunch, List.getElem?_eq_getElem hk, Option.map_some,
    Option.getD_some]

/-- The OSNR of a chain with these figures whose spontaneous emission has a noise-to-signal ratio. -/
def estimate? (q : QualitySettings) (m : Mode) (figures : ChainFigures) (ratio : Float) :
    Option Float :=
  let signal := signalFigures q m
  let emission := sum (figures.amps.map (ampNoise q signal))
  let total := toDb (1.0 / ratio * emission / (emission + nonlinearNoise q signal figures.spans))
  if total.isFinite then some total else none

/-- How the spontaneous emission of a chain with these figures is weighed. -/
structure WeighsByRank (q : QualitySettings) (elements : List SectionElement)
    (figures : ChainFigures) : Prop where
  /-- Each amplifier, in the order of the chain, is weighed against the stretch of its own number, or
  against the pre-amplifier power if there is no such stretch. -/
  weighs : ∀ signal,
    noiseToSignal q signal figures = weighed q signal elements (launchOfRank elements)
  /-- The OSNR of the chain rests on this ratio. -/
  estimate : ∀ m, totalOsnr? q elements m =
    estimate? q m figures (weighed q (signalFigures q m) elements (launchOfRank elements))
  /-- That is the stretch that the amplifier feeds exactly if as many stretches as amplifiers stand before
  it, or if its number exceeds those of all stretches and none follows. -/
  feeds_iff : ∀ place ∈ ampPlaces elements,
    (launchOfRank elements place = nextLaunch elements place ↔
      ampsBefore elements place = launchesBefore elements place ∨
        elements.countP isLaunch ≤ ampsBefore elements place ∧
          elements.countP isLaunch ≤ launchesBefore elements place)
  /-- Where the chain alternates, each amplifier is weighed against the stretch that it feeds. -/
  alternating : Alternates elements → ∀ signal,
    noiseToSignal q signal figures = weighed q signal elements (nextLaunch elements)

/-- If the tables have entries, every chain of elements has figures, and the noise of each amplifier is
weighed against the launching stretch of the same number. -/
theorem weighsByRank_chainFigures (h : q.HasTables) (elements : List SectionElement) :
    ∃ figures, chainFigures? q elements = some figures ∧ WeighsByRank q elements figures := by
  obtain ⟨figures, hfigures, hamps, hlaunches⟩ := exists_chainFigures h elements
  have hweighs := noiseToSignal_eq_weighed h hamps hlaunches
  refine ⟨figures, hfigures, ?_⟩
  constructor
  case weighs => exact hweighs
  case estimate =>
    intro m
    rw [← hweighs, totalOsnr?, hfigures]
    rfl
  case feeds_iff => exact fun _ => launchOfRank_eq_nextLaunch_iff
  case alternating =>
    intro halternates signal
    rw [hweighs]
    refine congrArg sum (List.map_congr_left fun place hplace => ?_)
    have hsame :=
      (launchOfRank_eq_nextLaunch_iff hplace).2 (.inl (halternates.ampsBefore_eq hplace))
    rw [hsame]

/-- A chain of two amplifiers with a span between them, in normal form. -/
def ampFirst : List SectionElement :=
  closed [.amp "HighGainAmp" 20.0, .span "smf" 20.0 80000.0, .amp "HighGainAmp" 20.0]

/-- The default settings have tables, and with them this chain is weighed as described. -/
theorem weighsByRank_default : QualitySettings.default.HasTables ∧ Alternates ampFirst ∧
    ∃ figures, chainFigures? .default ampFirst = some figures ∧
      WeighsByRank .default ampFirst figures := by
  have htables : QualitySettings.default.HasTables := by constructor <;> rfl
  refine ⟨htables, .cons rfl rfl (.cons rfl rfl .nil), ?_⟩
  exact weighsByRank_chainFigures htables ampFirst

/-- A chain of a span and an amplifier, in normal form. -/
def spanFirst : List SectionElement :=
  closed [.span "smf" 10.0 40000.0, .amp "LowGainAmp" 10.0]

/-- The closing amplifier of a chain that starts with a span is weighed against the 1 dBm of this span,
although the first stretch behind it, which is the one of the pre-amplifier, has 4 dBm. -/
theorem closing_amp_against_span :
    ampPlaces spanFirst = [1] ∧
    launchOfRank spanFirst 1 = some 0 ∧ nextLaunch spanFirst 1 = some 2 ∧
    (launchAt .default spanFirst (some 0)).power.toBits = (1.0 : Float).toBits ∧
    (launchAt .default spanFirst (some 2)).power.toBits = (4.0 : Float).toBits := by
  decide +kernel

end NoiseModel

end Lightpath

import Lightpath.Proofs.Optimizer.Reservable
import Mathlib.Algebra.Order.Group.Unbundled.Int

/-!
# The origin of the ids — which channel has the id 1

The lowest frequency of the settings is taken as a number of 50 GHz spacings from the anchor, without its
fraction (`originChannel`). The channel of this number has the id 1, and ids ascend with the frequency by one
for each channel (`FrequencyPlan.NumberedFrom`). It is the lowest channel that is not below the lowest
frequency, unless this lies between two channels above the anchor; then it is the one below
(`channel_below_lowest_offered`).

Ids are words of 32 bits. Channels that are so far from the origin that they are not counted by a word
(`CountedFrom`) are left out here.
-/

namespace Lightpath

/-! ## The origin -/

/-- The centre frequency of the 50 GHz channel `m` in MHz. -/
def centreMhz (m : Int) : Int := anchorMhz + channelMhz * m

/-- The channel at a frequency in MHz, or the next one toward the anchor if there is none. -/
def originChannel (lowest : Int) : Int := Int.tdiv (lowest - anchorMhz) channelMhz

theorem centreMhz_le_iff {m m' : Int} : centreMhz m ≤ centreMhz m' ↔ m ≤ m' := by
  unfold centreMhz channelMhz
  omega

/-- Up to the anchor the next channel is the one above. -/
theorem centreMhz_originChannel_of_le {lowest : Int} (h : lowest ≤ anchorMhz) :
    lowest ≤ centreMhz (originChannel lowest) ∧
      centreMhz (originChannel lowest) < lowest + channelMhz := by
  have hup : originChannel lowest = -((anchorMhz - lowest) / channelMhz) := by
    rw [originChannel, ← Int.neg_sub, Int.neg_tdiv, Int.tdiv_eq_ediv_of_nonneg (by omega)]
  rw [hup]
  unfold centreMhz channelMhz
  omega

/-- Beyond the anchor the next channel is the one below. -/
theorem centreMhz_originChannel_of_ge {lowest : Int} (h : anchorMhz ≤ lowest) :
    centreMhz (originChannel lowest) ≤ lowest ∧
      lowest < centreMhz (originChannel lowest) + channelMhz := by
  have hdown : originChannel lowest = (lowest - anchorMhz) / channelMhz := by
    rw [originChannel, Int.tdiv_eq_ediv_of_nonneg (by omega)]
  rw [hdown]
  unfold centreMhz channelMhz
  omega

/-- A frequency at which there is a channel is the centre of this channel. -/
theorem centreMhz_originChannel_of_dvd {lowest : Int} (h : channelMhz ∣ lowest - anchorMhz) :
    centreMhz (originChannel lowest) = lowest := by
  obtain ⟨m, hm⟩ := h
  have horigin : originChannel lowest = m := by
    rw [originChannel, hm]
    exact Int.mul_tdiv_cancel_left m (by decide)
  rw [horigin]
  unfold centreMhz
  omega

namespace FrequencyPlan

/-! ## Ids -/

/-- Counted from the channel at a lowest frequency in MHz as 1, the channel `m` has a word as its number. -/
def CountedFrom (lowest m : Int) : Prop := IsWord (m - originChannel lowest + 1)

/-- The numbers that a plan gives to the channels if it starts at a lowest frequency in MHz. -/
structure NumberedFrom (plan : FrequencyPlan) (lowest : Int) : Prop where
  first : plan.idOf (originChannel lowest) = 1
  /-- Nothing wraps around on the way to an id that fits. -/
  counts : ∀ m, CountedFrom lowest m → plan.idOf m = m - originChannel lowest + 1
  ascending : ∀ m, CountedFrom lowest m → CountedFrom lowest (m + 1) →
    plan.idOf (m + 1) = plan.idOf m + 1
  /-- Positive ids are those of the channels from the origin on. -/
  positive_iff : ∀ m, CountedFrom lowest m →
    (0 < plan.idOf m ↔ centreMhz (originChannel lowest) ≤ centreMhz m)
  /-- If there is a channel at the lowest frequency, or if it is not above the anchor, positive ids are
  those of the channels that are not below it. -/
  lowest_iff : lowest ≤ anchorMhz ∨ channelMhz ∣ lowest - anchorMhz →
    ∀ m, CountedFrom lowest m → (0 < plan.idOf m ↔ lowest ≤ centreMhz m)
  /-- If it lies between two channels above the anchor, the lower one of these has a positive id too. -/
  between_iff : anchorMhz < lowest → ¬ channelMhz ∣ lowest - anchorMhz →
    centreMhz (originChannel lowest) < lowest ∧
      lowest < centreMhz (originChannel lowest) + channelMhz ∧
      ∀ m, CountedFrom lowest m →
        (0 < plan.idOf m ↔ m = originChannel lowest ∨ lowest ≤ centreMhz m)

/-- Ids count the channels from the origin on, as words. -/
theorem idOf_ofMhz (lowest m : Int) :
    (ofMhz lowest).idOf m = word (m - originChannel lowest + 1) := by
  have horigin := dvd_word_sub (originChannel lowest)
  show word (m + word (-word (originChannel lowest) + 1)) = _
  rw [word_add_word, word_eq_word_iff]
  omega

/-- A plan numbers the channels from its lowest frequency on. -/
theorem numberedFrom_ofMhz (lowest : Int) : (ofMhz lowest).NumberedFrom lowest := by
  have hid (m : Int) (hm : CountedFrom lowest m) :
      (ofMhz lowest).idOf m = m - originChannel lowest + 1 := by
    rw [idOf_ofMhz, word_of_isWord hm]
  have hpositive (m : Int) (hm : CountedFrom lowest m) :
      0 < (ofMhz lowest).idOf m ↔ originChannel lowest ≤ m := by
    rw [hid m hm]
    omega
  constructor
  case first =>
    rw [idOf_ofMhz, Int.sub_self]
    decide
  case counts => exact hid
  case ascending =>
    intro m hm hnext
    rw [hid m hm, hid (m + 1) hnext]
    omega
  case positive_iff =>
    intro m hm
    rw [hpositive m hm, centreMhz_le_iff]
  case lowest_iff =>
    intro hcase m hm
    rw [hpositive m hm, ← centreMhz_le_iff]
    rcases hcase with hle | hdvd
    · have hnext := centreMhz_originChannel_of_le hle
      unfold centreMhz channelMhz at hnext ⊢
      omega
    · rw [centreMhz_originChannel_of_dvd hdvd]
  case between_iff =>
    intro hgt hnot
    have hnext := centreMhz_originChannel_of_ge hgt.le
    have hne : centreMhz (originChannel lowest) ≠ lowest := by
      intro heq
      refine hnot ⟨originChannel lowest, ?_⟩
      unfold centreMhz at heq
      omega
    refine ⟨lt_of_le_of_ne hnext.1 hne, hnext.2, fun m hm => ?_⟩
    rw [hpositive m hm]
    unfold centreMhz channelMhz at hnext hne ⊢
    omega

end FrequencyPlan

/-! ## The settings -/

/-- The lowest frequency that settings keep, in whole MHz. -/
def Settings.lowestMhz (s : Settings) : Int := FrequencyPlan.mhzOfThz s.validated.lowestFrequency

namespace Optimizer

/-- Planning offers no channel below the origin of the ids. -/
def OffersFrom (o : Optimizer) (lowest : Int) : Prop :=
  ∀ pairs force candidates, (o.calculateWavelengthPaths pairs force).result = .ok candidates →
    ∀ c ∈ candidates, ∀ x ∈ c.offers, ∀ id s, x.signals.find? id = some s →
      ∃ m, s = .dwdm .ghz50 m ∧ o.frequencies.idOf m = id ∧
        (FrequencyPlan.CountedFrom lowest m → centreMhz (originChannel lowest) ≤ centreMhz m)

theorem offersFrom_of_numberedFrom {o : Optimizer} {lowest : Int}
    (h : o.frequencies.NumberedFrom lowest) : o.OffersFrom lowest := by
  intro pairs force candidates hplan c hc x hx id s hs
  obtain ⟨-, hplanned, -⟩ := calculateWavelengthPaths_eq_ok hplan
  obtain ⟨e, found, -, hfound, hmem⟩ := Outlook.mem_offers_of_candidates hplanned hc hx
  rw [(Outlook.checked_of_mem_offers hfound hmem).signals, FrequencyPlan.find?_offered] at hs
  obtain ⟨hchannel, hid, hpos⟩ := hs
  obtain ⟨-, -, m, -, rfl, -⟩ := Signal.mem_channelsOf.1 hchannel
  have heq : o.frequencies.idOf m = id := Except.ok.inj hid
  exact ⟨m, rfl, heq, fun hm => (h.positive_iff m hm).1 (heq ▸ hpos)⟩

theorem settings_ofNetwork {n : NetworkDocument} {s : Settings} {machine : Machine}
    {autoInstall : Bool} {start : Optimizer} (h : ofNetwork n s machine autoInstall = .ok start) :
    start.settings = s.validated := by
  obtain ⟨t, -, rfl⟩ := ofNetwork_eq_ok h
  rfl

/-- Whatever lowest frequency the settings keep, the ids start at the channel there or at the next one toward
the anchor, and after every run on a network planning offers no channel below. -/
theorem ids_start_at_origin (s : Settings) :
    (FrequencyPlan.ofThz s.validated.lowestFrequency).NumberedFrom s.lowestMhz ∧
      ∀ n machine autoInstall start, ofNetwork n s machine autoInstall = .ok start →
        ∀ turns, (start.afterTurns turns).OffersFrom s.lowestMhz := by
  have hplan : (FrequencyPlan.ofThz s.validated.lowestFrequency).NumberedFrom s.lowestMhz :=
    FrequencyPlan.numberedFrom_ofMhz _
  refine ⟨hplan, fun n machine autoInstall start hstart turns => offersFrom_of_numberedFrom ?_⟩
  have hsettings := (provides (catalog_ofNetwork hstart).1 turns).settings
  rwa [frequencies, hsettings, settings_ofNetwork hstart]

/-- The lowest frequency of the sample is 35 channels below the anchor, and both channels of its line are
counted from there. -/
theorem ids_start_at_origin_sample :
    sampleSettings.lowestMhz = 191350000 ∧ originChannel 191350000 = -35 ∧
      FrequencyPlan.CountedFrom 191350000 0 ∧ FrequencyPlan.CountedFrom 191350000 1 ∧
      (FrequencyPlan.ofThz sampleSettings.validated.lowestFrequency).NumberedFrom
        sampleSettings.lowestMhz ∧
      ∀ turns, (sampleStart.afterTurns turns).OffersFrom sampleSettings.lowestMhz := by
  obtain ⟨hnumbered, hoffers⟩ := ids_start_at_origin sampleSettings
  have hword : IsWord 36 ∧ IsWord 37 := by decide
  exact ⟨by decide +kernel, by decide +kernel, hword.1, hword.2, hnumbered,
    hoffers _ _ _ _ ofNetwork_sample⟩

/-- Settings whose lowest frequency lies between the anchor and the next channel. -/
def betweenSettings : Settings := { sampleSettings with lowestFrequency := 193.12 }

/-- The optimizer of the sample network with these settings. -/
def betweenStart : Optimizer :=
  match ofNetwork sampleNetwork betweenSettings default true with
  | .ok o => o
  | .error _ => default

/-- Planning with these settings, once the catalog is calculated. -/
def betweenPlanning : Outcome (List Candidate) :=
  (betweenStart.after [.calculateWdmPathsBy sampleMethod none none]).calculateWavelengthPaths
    [⟨⟨"X", 1⟩, ⟨"Y", 1⟩⟩] false

/-- Settings whose lowest frequency lies 2 ^ 32 channels above the anchor. -/
def farSettings : Settings := { sampleSettings with lowestFrequency := 214748557.9 }

/-- The settings keep these frequencies. In both cases the channel at the anchor, which is below, has the
positive id 1: in the first one the origin is the next channel toward the anchor, and planning offers the
channel; in the second one the number of the origin is cut to a word of 32 bits. -/
theorem channel_below_lowest_offered :
    betweenSettings.validated.lowestFrequency.toBits = betweenSettings.lowestFrequency.toBits ∧
      betweenSettings.lowestMhz = 193120000 ∧ centreMhz 0 = 193100000 ∧
      ¬ (0 < (FrequencyPlan.ofThz betweenSettings.validated.lowestFrequency).idOf 0 ↔
        betweenSettings.lowestMhz ≤ centreMhz 0) ∧
      (planned betweenPlanning).map (fun c => c.offers.map fun x => x.signals.entries) =
        [[[(1, .dwdm .ghz50 0), (2, .dwdm .ghz50 1)]]] ∧
      farSettings.validated.lowestFrequency.toBits = farSettings.lowestFrequency.toBits ∧
      farSettings.lowestMhz = 214748557900000 ∧
      (FrequencyPlan.ofThz farSettings.validated.lowestFrequency).idOf 0 = 1 := by
  decide +kernel

end Optimizer

end Lightpath

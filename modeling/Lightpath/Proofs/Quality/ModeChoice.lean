import Lightpath.Proofs.Numeric.Bits
import Lightpath.Quality.ModeChoice

/-!
# The chosen mode — usable both ways, and none better

What a transponder can use in one direction is read off the settings (`QualitySettings.IsUsable`). A mode
that is usable there and back has the lower of both qualities, and no look-up on the way loses or adds
one (`find?_usableBothWays`). The choice goes through them in one pass; the pass keeps the most preferred
mode because preference is a total preorder (`bestMode?_eq_some`).
-/

namespace Lightpath

/-! ## The lower quality -/

theorem QValue.lower_eq (v w : QValue) : v.lower w = v ∨ v.lower w = w := by
  unfold lower
  split
  · exact .inr rfl
  · exact .inl rfl

/-- Of two values that reach their thresholds, the lower one has the smaller Q. -/
theorem QValue.lower_le {v w : QValue} (hv : v.threshold ≤ v.q) (hw : w.threshold ≤ w.q) :
    (v.lower w).q ≤ v.q ∧ (v.lower w).q ≤ w.q := by
  have hnumber := isNaN_eq_false_of_le hv
  have hnumber' := isNaN_eq_false_of_le hw
  unfold lower
  split
  next hlt => exact ⟨float_le_of_lt hlt, float_le_self hnumber'⟩
  next hle => exact ⟨float_le_self hnumber, float_le_of_not_lt hnumber hnumber' hle⟩

namespace QualitySettings

variable {s : QualitySettings} {d : Device} {osnr there back : OsnrMap} {m : Mode} {v : QValue}

/-! ## One direction -/

/-- A device can use a mode at given OSNR values: it supports the mode, an OSNR, a polynomial and a
threshold are given for it, and its Q reaches the threshold. -/
structure IsUsable (s : QualitySettings) (d : Device) (osnr : OsnrMap) (m : Mode) (v : QValue) :
    Prop where
  supported : ∃ c, d.capability = some c ∧ c.supports m = true
  computed : ∃ x constants, osnr.find? m = some x ∧
    s.constants? d.manufacturer m = some constants ∧ v.q = QValue.polynomial constants x
  threshold : s.threshold? d.manufacturer m = some v.threshold
  meets : v.threshold ≤ v.q

theorem usable?_eq_some_iff {c : Capability} {vendor : String} {x : Float} :
    s.usable? c vendor m x = some v ↔ c.supports m = true ∧
      ∃ constants, s.constants? vendor m = some constants ∧
        s.threshold? vendor m = some v.threshold ∧ v.q = QValue.polynomial constants x ∧
        v.threshold ≤ v.q := by
  obtain ⟨q, threshold⟩ := v
  unfold usable?
  constructor
  · intro h
    split at h
    next hsupports =>
      split at h
      next constants t hconstants ht =>
        simp only at h
        split at h
        next hmeets =>
          cases h
          exact ⟨hsupports, constants, hconstants, ht, rfl, of_decide_eq_true hmeets⟩
        next => cases h
      next => cases h
    next => cases h
  · rintro ⟨hsupports, constants, hconstants, ht, rfl, hmeets⟩
    have hreaches : (⟨QValue.polynomial constants x, threshold⟩ : QValue).meetsThreshold = true :=
      decide_eq_true hmeets
    rw [if_pos hsupports, hconstants, ht]
    exact if_pos hreaches

/-- The usable modes of one direction are those that the device can use. -/
theorem find?_usableModes : (s.usableModes d osnr).find? m = some v ↔ s.IsUsable d osnr m v := by
  unfold usableModes
  constructor
  · intro h
    split at h
    next => cases h
    next c hc =>
      rw [SortedMap.find?_filterMap, Option.bind_eq_some_iff] at h
      obtain ⟨x, hx, hv⟩ := h
      obtain ⟨hsupports, constants, hconstants, ht, hq, hmeets⟩ := usable?_eq_some_iff.1 hv
      exact ⟨⟨c, hc, hsupports⟩, ⟨x, constants, hx, hconstants, hq⟩, ht, hmeets⟩
  · intro h
    obtain ⟨c, hc, hsupports⟩ := h.supported
    obtain ⟨x, constants, hx, hconstants, hq⟩ := h.computed
    rw [hc]
    show (osnr.filterMap (s.usable? c d.manufacturer)).find? m = some v
    rw [SortedMap.find?_filterMap, hx]
    exact usable?_eq_some_iff.2 ⟨hsupports, constants, hconstants, h.threshold, hq, h.meets⟩

/-! ## Both directions -/

/-- A device can use a mode there and back, and `v` is the lower of both qualities. -/
def IsUsableBothWays (s : QualitySettings) (d : Device) (there back : OsnrMap) (m : Mode)
    (v : QValue) : Prop :=
  ∃ v₁ v₂, s.IsUsable d there m v₁ ∧ s.IsUsable d back m v₂ ∧ v = v₁.lower v₂

theorem find?_usableBothWays :
    (bothDirections (s.usableModes d there) (s.usableModes d back)).find? m = some v ↔
      s.IsUsableBothWays d there back m v := by
  rw [bothDirections, SortedMap.find?_filterMap, Option.bind_eq_some_iff]
  constructor
  · rintro ⟨v₁, hthere, hlower⟩
    obtain ⟨v₂, hback, rfl⟩ := Option.map_eq_some_iff.1 hlower
    exact ⟨v₁, v₂, find?_usableModes.1 hthere, find?_usableModes.1 hback, rfl⟩
  · rintro ⟨v₁, v₂, hthere, hback, rfl⟩
    exact ⟨v₁, find?_usableModes.2 hthere,
      Option.map_eq_some_iff.2 ⟨v₂, find?_usableModes.2 hback, rfl⟩⟩

/-- The Q of a mode that is usable both ways is the smaller one of both directions, which reach the
threshold of the mode. -/
theorem IsUsableBothWays.smaller (h : s.IsUsableBothWays d there back m v) :
    ∃ v₁ v₂, s.IsUsable d there m v₁ ∧ s.IsUsable d back m v₂ ∧ (v = v₁ ∨ v = v₂) ∧
      v.q ≤ v₁.q ∧ v.q ≤ v₂.q := by
  obtain ⟨v₁, v₂, hthere, hback, rfl⟩ := h
  exact ⟨v₁, v₂, hthere, hback, v₁.lower_eq v₂, QValue.lower_le hthere.meets hback.meets⟩

/-! ## The choice -/

instance (s : QualitySettings) : Std.TransCmp s.preference :=
  inferInstanceAs (Std.TransCmp (compareLex
    (compareOn fun a : Mode × QValue => totalKey (s.rateValue a.1.rate))
    (compareOn fun a : Mode × QValue => totalKey a.2.q)))

/-- The pass through a list keeps a member that is preferred to no other one less. -/
theorem preference_foldl_better (rest : List (Mode × QValue)) (first : Mode × QValue) :
    rest.foldl s.better first ∈ first :: rest ∧
      ∀ y ∈ first :: rest, (s.preference y (rest.foldl s.better first)).isLE = true := by
  induction rest generalizing first with
  | nil =>
    refine ⟨List.mem_singleton_self first, ?_⟩
    intro y hy
    rw [List.mem_singleton.1 hy]
    exact Std.ReflCmp.isLE_rfl
  | cons second rest ih =>
    obtain ⟨hmem, hbest⟩ := ih (s.better first second)
    -- the better of the first two is one of them, and both are at most as preferred as it
    have hone : s.better first second = first ∨ s.better first second = second := by
      unfold better
      split
      · exact .inl rfl
      · exact .inr rfl
    have hfirst : (s.preference first (s.better first second)).isLE = true := by
      unfold better
      split
      next => exact Std.ReflCmp.isLE_rfl
      next hne => exact Ordering.isLE_iff_ne_gt.2 hne
    have hsecond : (s.preference second (s.better first second)).isLE = true := by
      unfold better
      split
      next hgt => exact Ordering.isLE_of_eq_lt (Std.OrientedCmp.gt_iff_lt.1 hgt)
      next => exact Std.ReflCmp.isLE_rfl
    have hhead := hbest _ List.mem_cons_self
    rw [List.foldl_cons]
    refine ⟨?_, ?_⟩
    · rcases List.mem_cons.1 hmem with heq | hrest
      · rw [heq]
        rcases hone with h | h <;> simp [h]
      · exact List.mem_cons_of_mem _ (List.mem_cons_of_mem _ hrest)
    · intro y hy
      rcases List.mem_cons.1 hy with rfl | hy
      · exact Std.TransCmp.isLE_trans hfirst hhead
      · rcases List.mem_cons.1 hy with rfl | hy
        · exact Std.TransCmp.isLE_trans hsecond hhead
        · exact hbest y (List.mem_cons_of_mem _ hy)

theorem bestMode?_eq_none_iff {modes : QualityMap} :
    s.bestMode? modes = none ↔ ∀ m v, modes.find? m ≠ some v := by
  unfold bestMode?
  split
  next hnil =>
    refine iff_of_true rfl fun m v h => ?_
    rw [SortedMap.find?_eq_some_iff, hnil] at h
    cases h
  next first rest hcons =>
    refine iff_of_false (by simp) fun h => ?_
    refine h first.1 first.2 (SortedMap.find?_eq_some_iff.2 ?_)
    rw [hcons]
    exact List.mem_cons_self

/-- The most preferred mode is one of the modes, and no mode is preferred to it. -/
theorem bestMode?_eq_some {modes : QualityMap} (h : s.bestMode? modes = some (m, v)) :
    modes.find? m = some v ∧
      ∀ m' v', modes.find? m' = some v' → s.preference (m', v') (m, v) ≠ .gt := by
  unfold bestMode? at h
  split at h
  next => cases h
  next first rest hcons =>
    obtain ⟨hmem, hbest⟩ := preference_foldl_better (s := s) rest first
    rw [Option.some.inj h, ← hcons] at hmem hbest
    refine ⟨SortedMap.find?_eq_some_iff.2 hmem, ?_⟩
    intro m' v' hfind
    exact Ordering.isLE_iff_ne_gt.1 (hbest _ (SortedMap.find?_eq_some_iff.1 hfind))

/-- A mode is usable both ways, none that is usable both ways has a higher rate, and none of the same
rate has a higher quality. -/
structure IsBest (s : QualitySettings) (d : Device) (there back : OsnrMap) (m : Mode) (v : QValue) :
    Prop where
  usable : s.IsUsableBothWays d there back m v
  rate : ∀ m' v', s.IsUsableBothWays d there back m' v' →
    totalOrder (s.rateValue m'.rate) (s.rateValue m.rate) ≠ .gt
  quality : ∀ m' v', s.IsUsableBothWays d there back m' v' →
    totalOrder (s.rateValue m'.rate) (s.rateValue m.rate) = .eq → totalOrder v'.q v.q ≠ .gt

/-- The chosen mode is the best one. -/
theorem chooseMode?_eq_some (h : s.chooseMode? d there back = some (m, v)) :
    s.IsBest d there back m v := by
  obtain ⟨hfind, hbest⟩ := bestMode?_eq_some h
  have hpreference (m' : Mode) (v' : QValue) (husable : s.IsUsableBothWays d there back m' v') :
      (totalOrder (s.rateValue m'.rate) (s.rateValue m.rate)).then (totalOrder v'.q v.q) ≠ .gt :=
    hbest m' v' (find?_usableBothWays.2 husable)
  constructor
  case usable => exact find?_usableBothWays.1 hfind
  case rate =>
    intro m' v' husable hgt
    exact hpreference m' v' husable (by rw [hgt]; rfl)
  case quality =>
    intro m' v' husable heq
    have hquality := hpreference m' v' husable
    rwa [heq] at hquality

/-- No mode is chosen exactly if none is usable both ways. -/
theorem chooseMode?_eq_none_iff :
    s.chooseMode? d there back = none ↔ ∀ m v, ¬ s.IsUsableBothWays d there back m v := by
  rw [chooseMode?, bestMode?_eq_none_iff]
  exact forall_congr' fun m => forall_congr' fun v => not_congr find?_usableBothWays

end QualitySettings

end Lightpath

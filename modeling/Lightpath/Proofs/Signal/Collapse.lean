import Lightpath.Proofs.Signal.Channels

/-!
# Collapse — the channels of a list of slots, exactly and in order

The slots of a channel are a block of odd steps, and the blocks of different channels of one spacing do
not meet (`slotMultipliers_unique`). As long as no sum on the way wraps around (`SlotFits`, `ChannelFits`),
the first slots of complete blocks ascend with their channels, so collapsing lists the channels in
ascending order (`pairwise_channelsOf`), and collapsing the slots of some channels gives these channels
back (`channelsOf_expanded`).
-/

namespace Lightpath

namespace Signal

variable {spacing : Spacing} {slots : List Signal} {m m' x : Int}

/-! ## Within words -/

/-- Collapsing keeps a slot multiplier within words: the centre of a channel that it starts is one too. -/
def SlotFits (spacing : Spacing) (x : Int) : Prop := IsWord x ∧ IsWord (x - 1 + spacing.slotCount)

/-- Expanding keeps a channel within words: its centre and its first slot are words. -/
def ChannelFits (spacing : Spacing) (m : Int) : Prop :=
  OnGrid spacing m ∧ IsWord (1 - (spacing.slotCount : Int) + m * (spacing.steps : Int))

instance (spacing : Spacing) : DecidablePred (SlotFits spacing) :=
  fun _ => inferInstanceAs (Decidable (IsWord _ ∧ IsWord _))

instance (spacing : Spacing) : DecidablePred (ChannelFits spacing) :=
  fun _ => inferInstanceAs (Decidable (IsWord _ ∧ IsWord _))

/-- Nothing wraps around when a channel is expanded that fits, and its slots fit again. -/
theorem ChannelFits.slotFits (h : ChannelFits spacing m) {i : Nat} (hi : i < spacing.slotCount) :
    word (1 - (spacing.slotCount : Int) + m * (spacing.steps : Int) + 2 * (i : Int)) =
        1 - (spacing.slotCount : Int) + m * (spacing.steps : Int) + 2 * (i : Int) ∧
      SlotFits spacing (1 - (spacing.slotCount : Int) + m * (spacing.steps : Int) + 2 * (i : Int)) := by
  have hfits : SlotFits spacing
      (1 - (spacing.slotCount : Int) + m * (spacing.steps : Int) + 2 * (i : Int)) := by
    unfold ChannelFits OnGrid IsWord at h
    unfold SlotFits IsWord
    cases spacing <;> simp only [Spacing.slotCount, Spacing.steps] at h hi ⊢ <;> omega
  exact ⟨word_of_isWord hfits.1, hfits⟩

/-! ## Blocks -/

/-- No slot lies in two channels of one spacing. -/
theorem slotMultipliers_unique (hm : OnGrid spacing m) (hm' : OnGrid spacing m')
    (h : x ∈ slotMultipliers spacing m) (h' : x ∈ slotMultipliers spacing m') : m = m' :=
  hm.eq_of_word_eq hm' (word_eq_of_mem_slotMultipliers h h')

/-! ## Order -/

/-- Channels of one spacing are ordered by their multipliers. -/
theorem compare_dwdm (spacing : Spacing) (m m' : Int) :
    compare (dwdm spacing m) (dwdm spacing m') = compare m m' := by
  show order (dwdm spacing m) (dwdm spacing m') = compare m m'
  simp [order, compareLex, compareOn, dwdm, Std.ReflCmp.compare_self]

/-- Numbers that a positive step divides keep their order when they are counted in steps. -/
theorem tdiv_lt_tdiv_of_dvd {a b n : Int} (hn : 0 < n) (ha : n ∣ a) (hb : n ∣ b) (h : a < b) :
    Int.tdiv a n < Int.tdiv b n := by
  obtain ⟨i, rfl⟩ := ha
  obtain ⟨j, rfl⟩ := hb
  rw [Int.mul_tdiv_cancel_left i (Int.ne_of_gt hn), Int.mul_tdiv_cancel_left j (Int.ne_of_gt hn)]
  exact Int.lt_of_mul_lt_mul_left h (Int.le_of_lt hn)

/-- The channels of some slots strictly ascend. -/
theorem pairwise_channelsOf (h : ∀ x ∈ flexMultipliers slots, SlotFits spacing x) :
    (channelsOf slots spacing).Pairwise fun a b => a.multiplier < b.multiplier := by
  have hsteps : 0 < (spacing.steps : Int) := by cases spacing <;> decide
  have hfits (start : Int) (hstart : start ∈ (flexMultipliers slots).toList) :
      word (start - 1 + spacing.slotCount) = start - 1 + spacing.slotCount :=
    word_of_isWord (h start (SortedSet.mem_def.2 hstart)).2
  unfold channelsOf
  rw [List.pairwise_map]
  refine ((flexMultipliers slots).sorted.filter _).imp_of_mem ?_
  intro a b ha hb hlt
  obtain ⟨hastart, ha⟩ := List.mem_filter.1 ha
  obtain ⟨hbstart, hb⟩ := List.mem_filter.1 hb
  -- both start a block, so their distance is a whole number of channels
  obtain ⟨hgrid, -⟩ := Bool.and_eq_true_iff.1 ha
  obtain ⟨hgrid', -⟩ := Bool.and_eq_true_iff.1 hb
  have hdvd := Int.dvd_of_emod_eq_zero (of_decide_eq_true hgrid)
  have hdvd' := Int.dvd_of_emod_eq_zero (of_decide_eq_true hgrid')
  have horder : a < b := Int.compare_eq_lt.1 hlt
  refine tdiv_lt_tdiv_of_dvd hsteps hdvd hdvd' ?_
  rw [hfits a hastart, hfits b hbstart]
  omega

/-- In the order of signals the channels of some slots ascend as well. -/
theorem pairwise_compare_channelsOf (h : ∀ x ∈ flexMultipliers slots, SlotFits spacing x) :
    (channelsOf slots spacing).Pairwise fun a b => compare a b = .lt := by
  refine (pairwise_channelsOf h).imp_of_mem ?_
  intro a b ha hb hlt
  obtain ⟨-, -, m, -, rfl, -⟩ := mem_channelsOf.1 ha
  obtain ⟨-, -, m', -, rfl, -⟩ := mem_channelsOf.1 hb
  rw [compare_dwdm]
  exact Int.compare_eq_lt.2 hlt

/-! ## The channels -/

/-- Among slots that fit, the collapsed channels are those that fit and all of whose slots occur. -/
theorem mem_channelsOf_of_fits (h : ∀ x ∈ flexMultipliers slots, SlotFits spacing x) {s : Signal} :
    s ∈ channelsOf slots spacing ↔ ∃ m, ChannelFits spacing m ∧ s = dwdm spacing m ∧
      ∀ x ∈ slotMultipliers spacing m, x ∈ flexMultipliers slots := by
  rw [mem_channelsOf_of_isWord fun x hx => (h x hx).1]
  constructor
  · rintro ⟨m, hgrid, rfl, hall⟩
    refine ⟨m, ⟨hgrid, ?_⟩, rfl, hall⟩
    -- wrapped around, the first slot would lie beyond the centre and not fit
    have hfirst := h _ (hall _ (mem_slotMultipliers.2 ⟨0, spacing.slotCount_pos, rfl⟩))
    have hdvd := dvd_word_sub (1 - (spacing.slotCount : Int) + m * spacing.steps + 2 * ((0 : Nat) : Int))
    unfold SlotFits at hfirst
    unfold OnGrid at hgrid
    unfold IsWord at *
    have hpos := spacing.slotCount_pos
    omega
  · rintro ⟨m, hfits, rfl, hall⟩
    exact ⟨m, hfits.1, rfl, hall⟩

/-! ## There and back -/

/-- The slots of some channels of one spacing. -/
def expanded (spacing : Spacing) (ms : List Int) : List Signal :=
  ms.flatMap fun m => (dwdm spacing m).flexSlots

theorem mem_flexMultipliers_expanded {ms : List Int} :
    x ∈ flexMultipliers (expanded spacing ms) ↔ ∃ m ∈ ms, x ∈ slotMultipliers spacing m := by
  rw [mem_flexMultipliers]
  constructor
  · rintro ⟨slot, hslot, -, rfl⟩
    obtain ⟨m, hm, hslot⟩ := List.mem_flatMap.1 hslot
    rw [flexSlots_dwdm] at hslot
    obtain ⟨y, hy, rfl⟩ := List.mem_map.1 hslot
    exact ⟨m, hm, hy⟩
  · rintro ⟨m, hm, hx⟩
    refine ⟨flexSlot x, List.mem_flatMap.2 ⟨m, hm, ?_⟩, rfl, rfl⟩
    rw [flexSlots_dwdm]
    exact List.mem_map_of_mem hx

/-- The slots of channels that fit do so too. -/
theorem slotFits_of_mem_expanded {ms : List Int} (hms : ∀ m ∈ ms, ChannelFits spacing m) :
    ∀ x ∈ flexMultipliers (expanded spacing ms), SlotFits spacing x := by
  intro x hx
  obtain ⟨m, hm, hx⟩ := mem_flexMultipliers_expanded.1 hx
  obtain ⟨i, hi, rfl⟩ := mem_slotMultipliers.1 hx
  obtain ⟨heq, hfits⟩ := (hms m hm).slotFits hi
  rwa [heq]

/-- Collapsing the slots of some channels gives these channels, each once and in order. -/
theorem channelsOf_expanded {ms : List Int} (hms : ∀ m ∈ ms, ChannelFits spacing m) :
    channelsOf (expanded spacing ms) spacing = (SortedSet.ofList ms).toList.map (dwdm spacing) := by
  have hslots := slotFits_of_mem_expanded hms
  refine SortedSet.toList_eq_of_mem (pairwise_compare_channelsOf hslots) ?_ fun s => ?_
  · rw [List.pairwise_map]
    refine (SortedSet.ofList ms).sorted.imp ?_
    intro m m' hlt
    rwa [compare_dwdm]
  · rw [mem_channelsOf_of_fits hslots, List.mem_map]
    constructor
    · rintro ⟨m, hfits, rfl, hall⟩
      -- the first slot of the channel was given, and only the channel itself has it
      have hfirst : _ ∈ slotMultipliers spacing m :=
        mem_slotMultipliers.2 ⟨0, spacing.slotCount_pos, rfl⟩
      obtain ⟨m', hm', hfirst'⟩ := mem_flexMultipliers_expanded.1 (hall _ hfirst)
      obtain rfl := slotMultipliers_unique hfits.1 (hms m' hm').1 hfirst hfirst'
      exact ⟨m, SortedSet.mem_ofList.2 hm', rfl⟩
    · rintro ⟨m, hm, rfl⟩
      have hm := SortedSet.mem_ofList.1 hm
      refine ⟨m, hms m hm, rfl, fun x hx => ?_⟩
      exact mem_flexMultipliers_expanded.2 ⟨m, hm, hx⟩

/-! ## The inverse -/

/-- A list of channels is what a list of slots collapses to: they ascend, and they are the fixed-grid
channels of the spacing within words each of whose slots has the multiplier of some flex-grid slot of the
list. -/
structure CollapsesTo (slots : List Signal) (spacing : Spacing) (channels : List Signal) : Prop where
  ascending : channels.Pairwise fun a b => a.multiplier < b.multiplier
  mem_iff : ∀ s, s ∈ channels ↔ ∃ m, ChannelFits spacing m ∧ s = dwdm spacing m ∧
    ∀ slot ∈ s.flexSlots, ∃ t ∈ slots, t.grid = .flex ∧ t.multiplier = slot.multiplier

theorem collapsesTo_channelsOf (h : ∀ t ∈ slots, t.grid = .flex → SlotFits spacing t.multiplier) :
    CollapsesTo slots spacing (channelsOf slots spacing) := by
  have hslots : ∀ x ∈ flexMultipliers slots, SlotFits spacing x := by
    intro x hx
    obtain ⟨t, ht, hflex, rfl⟩ := mem_flexMultipliers.1 hx
    exact h t ht hflex
  refine ⟨pairwise_channelsOf hslots, fun s => ?_⟩
  rw [mem_channelsOf_of_fits hslots]
  constructor
  · rintro ⟨m, hfits, rfl, hall⟩
    refine ⟨m, hfits, rfl, fun slot hslot => ?_⟩
    obtain ⟨x, hx, rfl⟩ := List.mem_map.1 (flexSlots_dwdm spacing m ▸ hslot)
    exact mem_flexMultipliers.1 (hall x hx)
  · rintro ⟨m, hfits, rfl, hall⟩
    refine ⟨m, hfits, rfl, fun x hx => ?_⟩
    rw [flexSlots_dwdm] at hall
    exact mem_flexMultipliers.2 (hall (flexSlot x) (List.mem_map_of_mem hx))

/-- Expanding and collapsing are inverse, for every spacing, as long as the arithmetic stays within words:
collapsing lists the complete channels in ascending order, whatever the order and the number of the slots
and whatever other signals there are; it gives back the channels whose slots it is given; and no slot lies
in two channels. -/
theorem expansion_inverse (spacing : Spacing) :
    (∀ slots : List Signal, (∀ t ∈ slots, t.grid = .flex → SlotFits spacing t.multiplier) →
      CollapsesTo slots spacing (channelsOf slots spacing)) ∧
    (∀ slots slots' : List Signal,
      (∀ x, (∃ t ∈ slots, t.grid = .flex ∧ t.multiplier = x) ↔
        ∃ t ∈ slots', t.grid = .flex ∧ t.multiplier = x) →
      channelsOf slots spacing = channelsOf slots' spacing) ∧
    (∀ ms : List Int, (∀ m ∈ ms, ChannelFits spacing m) →
      channelsOf (expanded spacing ms) spacing =
        (SortedSet.ofList ms).toList.map (dwdm spacing)) ∧
    ∀ m m', ChannelFits spacing m → ChannelFits spacing m' → ∀ slot,
      slot ∈ (dwdm spacing m).flexSlots → slot ∈ (dwdm spacing m').flexSlots → m = m' := by
  refine ⟨fun slots => collapsesTo_channelsOf, ?_, fun ms => channelsOf_expanded, ?_⟩
  · intro slots slots' hsame
    have hset : flexMultipliers slots = flexMultipliers slots' :=
      SortedSet.ext_mem fun x => by rw [mem_flexMultipliers, mem_flexMultipliers, hsame x]
    unfold channelsOf
    rw [hset]
  · intro m m' hm hm' slot h h'
    rw [flexSlots_dwdm] at h h'
    obtain ⟨x, hx, rfl⟩ := List.mem_map.1 h
    obtain ⟨y, hy, heq⟩ := List.mem_map.1 h'
    obtain rfl := flexSlot_injective heq
    exact slotMultipliers_unique hm.1 hm'.1 hx hy

/-- The slots of two channels of 50 GHz, and three of a third one. -/
def sampleSlots : List Signal := expanded .ghz50 [2, -1] ++ (expanded .ghz50 [5]).take 3

/-- Channels below the anchor come first, and one that lacks its last slot is left out. The outermost
channels within words collapse and expand as well. -/
theorem expansion_inverse_sample :
    CollapsesTo sampleSlots .ghz50 [dwdm .ghz50 (-1), dwdm .ghz50 2] ∧
      channelsOf (expanded .ghz50 [268435455, -268435455]) .ghz50 =
        [dwdm .ghz50 (-268435455), dwdm .ghz50 268435455] := by
  obtain ⟨hcollapse, -, hexpanded, -⟩ := expansion_inverse .ghz50
  have hchannels : channelsOf sampleSlots .ghz50 = [dwdm .ghz50 (-1), dwdm .ghz50 2] := by
    decide +kernel
  refine ⟨?_, ?_⟩
  · rw [← hchannels]
    exact hcollapse sampleSlots (by decide +kernel)
  · rw [hexpanded _ (by decide +kernel)]
    decide +kernel

end Signal

end Lightpath

import Lightpath.Signal.Grid
import Mathlib.Data.List.Nodup

/-!
# Channels — expanding a channel and collapsing slots fit together

The slots of a fixed-grid channel are a block of neighbours that starts on the grid of first slots. Numbers
of channels whose centres are the same word of 32 bits stand for one block; one of them is on the grid
(`Signal.OnGrid`), and collapsing a list of slots gives exactly the channels on the grid all of whose slots
are in the list (`mem_channelsOf_iff`). Slots that come in whole channels of 50 GHz lose nothing by
collapsing (`InWholeChannels.mem_iff`).
-/

namespace Lightpath

theorem Spacing.slotCount_pos (spacing : Spacing) : 0 < spacing.slotCount :=
  Nat.lt_of_lt_of_le Nat.one_pos (Nat.le_max_right _ _)

theorem Spacing.steps_ne_zero (spacing : Spacing) : (spacing.steps : Int) ≠ 0 := by
  cases spacing <;> decide

namespace Signal

variable {spacing : Spacing} {slots : List Signal} {m m' x : Int} {s : Signal}

theorem flexSlot_injective : Function.Injective flexSlot := fun _ _ h => congrArg multiplier h

/-! ## The grid -/

/-- The centre of the fixed-grid channel `m` lies a word of 32 bits of steps of 6.25 GHz from the anchor. -/
def OnGrid (spacing : Spacing) (m : Int) : Prop := IsWord (m * (spacing.steps : Int))

/-- The number of a channel on the grid is a word. -/
theorem OnGrid.isWord (h : OnGrid spacing m) : IsWord m := by
  unfold OnGrid IsWord at *
  cases spacing <;> simp only [Spacing.steps] at h <;> omega

/-- Whatever its number, a channel has the centre of one on the grid. -/
theorem exists_onGrid (spacing : Spacing) (m : Int) :
    ∃ m', OnGrid spacing m' ∧ m' * (spacing.steps : Int) = word (m * (spacing.steps : Int)) := by
  have hdvd := dvd_word_sub (m * (spacing.steps : Int))
  have hsteps : (spacing.steps : Int) ∣ word (m * (spacing.steps : Int)) := by
    cases spacing <;> simp only [Spacing.steps] at hdvd ⊢ <;> omega
  obtain ⟨m', hm'⟩ := hsteps
  have hcentre : m' * (spacing.steps : Int) = word (m * (spacing.steps : Int)) := by
    rw [hm', Int.mul_comm]
  refine ⟨m', ?_, hcentre⟩
  rw [OnGrid, hcentre]
  exact isWord_word _

/-- Channels on the grid with the same centre are the same. -/
theorem OnGrid.eq_of_word_eq (h : OnGrid spacing m) (h' : OnGrid spacing m')
    (heq : word (m * (spacing.steps : Int)) = word (m' * (spacing.steps : Int))) : m = m' := by
  rw [word_of_isWord h, word_of_isWord h'] at heq
  exact Int.eq_of_mul_eq_mul_right spacing.steps_ne_zero heq

/-! ## Expanding -/

theorem mem_slotMultipliers :
    x ∈ slotMultipliers spacing m ↔ ∃ i : Nat, i < spacing.slotCount ∧
      x = word (1 - (spacing.slotCount : Int) + m * (spacing.steps : Int) + 2 * (i : Int)) := by
  unfold slotMultipliers
  rw [List.mem_map]
  constructor
  · rintro ⟨i, hi, rfl⟩
    exact ⟨i, List.mem_range.1 hi, rfl⟩
  · rintro ⟨i, hi, rfl⟩
    exact ⟨i, List.mem_range.2 hi, rfl⟩

/-- A channel is expanded from the word of its centre. -/
theorem slotMultipliers_eq_of_word_eq
    (h : word (m * (spacing.steps : Int)) = word (m' * (spacing.steps : Int))) :
    slotMultipliers spacing m = slotMultipliers spacing m' := by
  unfold slotMultipliers
  refine List.map_congr_left fun i _ => ?_
  rw [word_eq_word_iff] at h ⊢
  omega

/-- Two channels of one spacing with a common slot have the same centre. -/
theorem word_eq_of_mem_slotMultipliers (h : x ∈ slotMultipliers spacing m)
    (h' : x ∈ slotMultipliers spacing m') :
    word (m * (spacing.steps : Int)) = word (m' * (spacing.steps : Int)) := by
  obtain ⟨i, hi, rfl⟩ := mem_slotMultipliers.1 h
  obtain ⟨j, hj, heq⟩ := mem_slotMultipliers.1 h'
  rw [word_eq_word_iff] at heq ⊢
  -- a block is shorter than the distance of two channels, whatever the spacing
  cases spacing <;> simp only [Spacing.slotCount, Spacing.steps] at hi hj heq ⊢ <;> omega

theorem nodup_slotMultipliers (spacing : Spacing) (m : Int) : (slotMultipliers spacing m).Nodup := by
  have hcount : spacing.slotCount ≤ 8 := by cases spacing <;> decide
  refine List.Nodup.map_on ?_ List.nodup_range
  intro i hi j hj hij
  have hi := List.mem_range.1 hi
  have hj := List.mem_range.1 hj
  rw [word_eq_word_iff] at hij
  omega

/-- The slots of a fixed-grid channel lie on the flex grid. -/
theorem flexSlots_dwdm (spacing : Spacing) (m : Int) :
    (dwdm spacing m).flexSlots = (slotMultipliers spacing m).map flexSlot := rfl

/-- No slot occurs twice in a channel. -/
theorem nodup_flexSlots (s : Signal) : s.flexSlots.Nodup := by
  unfold flexSlots
  split
  · exact List.nodup_singleton s
  · exact (nodup_slotMultipliers s.spacing s.multiplier).map flexSlot_injective

/-- Every channel has a slot. -/
theorem flexSlots_ne_nil (s : Signal) : s.flexSlots ≠ [] := by
  unfold flexSlots
  split
  · exact List.cons_ne_nil s []
  · have hpos := s.spacing.slotCount_pos
    simp only [slotMultipliers, ne_eq, List.map_eq_nil_iff, List.range_eq_nil]
    omega

/-! ## Collapsing -/

theorem mem_flexMultipliers :
    x ∈ flexMultipliers slots ↔ ∃ s ∈ slots, s.grid = .flex ∧ s.multiplier = x := by
  simp [flexMultipliers, and_assoc]

/-- The collapsed channels are those that a slot starts: its block lies on the grid of first slots, and
the other slots of the block occur. -/
theorem mem_channelsOf : s ∈ channelsOf slots spacing ↔
    ∃ start ∈ flexMultipliers slots, ∃ m, OnGrid spacing m ∧ s = dwdm spacing m ∧
      word (start - 1 + spacing.slotCount) = m * spacing.steps ∧
      ∀ i < spacing.slotCount, i = 0 ∨ word (start + 2 * (i : Int)) ∈ flexMultipliers slots := by
  have hsteps := spacing.steps_ne_zero
  unfold channelsOf
  simp only [List.mem_map, List.mem_filter, Bool.and_eq_true, decide_eq_true_eq,
    List.all_eq_true, List.mem_range, Bool.or_eq_true, beq_iff_eq, SortedSet.contains_iff]
  constructor
  · rintro ⟨start, ⟨hstart, hgrid, hrest⟩, rfl⟩
    have hcentre := Int.tdiv_mul_cancel (Int.dvd_of_emod_eq_zero hgrid)
    refine ⟨start, hstart, _, ?_, rfl, hcentre.symm, hrest⟩
    rw [OnGrid, hcentre]
    exact isWord_word _
  · rintro ⟨start, hstart, m, -, rfl, hcentre, hrest⟩
    refine ⟨start, ⟨hstart, ?_, hrest⟩, ?_⟩
    · rw [hcentre]
      exact Int.mul_emod_left m spacing.steps
    · rw [hcentre, Int.mul_tdiv_cancel m hsteps]

/-- Among slots whose multipliers are words, the collapsed channels are those on the grid all of whose
slots occur. -/
theorem mem_channelsOf_of_isWord (hwords : ∀ x ∈ flexMultipliers slots, IsWord x) :
    s ∈ channelsOf slots spacing ↔ ∃ m, OnGrid spacing m ∧ s = dwdm spacing m ∧
      ∀ x ∈ slotMultipliers spacing m, x ∈ flexMultipliers slots := by
  rw [mem_channelsOf]
  constructor
  · rintro ⟨start, hstart, m, hgrid, rfl, hcentre, hrest⟩
    refine ⟨m, hgrid, rfl, ?_⟩
    intro x hx
    obtain ⟨i, hi, rfl⟩ := mem_slotMultipliers.1 hx
    -- the block of the channel starts at `start` again
    have hblock : word (1 - (spacing.slotCount : Int) + m * spacing.steps + 2 * (i : Int)) =
        word (start + 2 * (i : Int)) := by
      have hdvd := dvd_word_sub (start - 1 + spacing.slotCount)
      rw [word_eq_word_iff]
      omega
    rw [hblock]
    rcases hrest i hi with rfl | hmem
    · rwa [show start + 2 * ((0 : Nat) : Int) = start by omega, word_of_isWord (hwords start hstart)]
    · exact hmem
  · rintro ⟨m, hgrid, rfl, hall⟩
    have hslot (i : Nat) (hi : i < spacing.slotCount) :
        word (1 - (spacing.slotCount : Int) + m * spacing.steps + 2 * (i : Int)) ∈
          flexMultipliers slots :=
      hall _ (mem_slotMultipliers.2 ⟨i, hi, rfl⟩)
    have hdvd := dvd_word_sub (1 - (spacing.slotCount : Int) + m * spacing.steps)
    refine ⟨word (1 - (spacing.slotCount : Int) + m * spacing.steps), ?_, m, hgrid, rfl, ?_, ?_⟩
    · have hfirst := hslot 0 spacing.slotCount_pos
      rwa [show 2 * ((0 : Nat) : Int) = 0 from rfl, Int.add_zero] at hfirst
    · refine Eq.trans (word_eq_word_iff.2 ?_) (word_of_isWord hgrid)
      omega
    · intro i hi
      have heq : word (word (1 - (spacing.slotCount : Int) + m * spacing.steps) + 2 * (i : Int)) =
          word (1 - (spacing.slotCount : Int) + m * spacing.steps + 2 * (i : Int)) := by
        rw [word_eq_word_iff]
        omega
      exact .inr (heq ▸ hslot i hi)

/-- A slot of the flex grid, with a word as its multiplier. -/
def IsFlexSlot (s : Signal) : Prop := s = flexSlot (word s.multiplier)

theorem isFlexSlot_flexSlot (h : IsWord x) : IsFlexSlot (flexSlot x) :=
  congrArg flexSlot (word_of_isWord h).symm

theorem IsFlexSlot.isWord (h : IsFlexSlot s) : IsWord s.multiplier := by
  rw [h]
  exact isWord_word _

theorem IsFlexSlot.eq_flexSlot (h : IsFlexSlot s) : s = flexSlot s.multiplier := by
  have hslot : s = flexSlot (word s.multiplier) := h
  rwa [word_of_isWord h.isWord] at hslot

/-- Channels are expanded to slots of the flex grid. -/
theorem isFlexSlot_of_mem_flexSlots (h : s ∈ (dwdm spacing m).flexSlots) : IsFlexSlot s := by
  rw [flexSlots_dwdm] at h
  obtain ⟨x, hx, rfl⟩ := List.mem_map.1 h
  obtain ⟨i, -, rfl⟩ := mem_slotMultipliers.1 hx
  exact isFlexSlot_flexSlot (isWord_word _)

/-- Collapsing slots of the flex grid gives the channels on the grid all of whose slots are there. -/
theorem mem_channelsOf_iff (hslots : ∀ slot ∈ slots, IsFlexSlot slot) :
    s ∈ channelsOf slots spacing ↔
      ∃ m, OnGrid spacing m ∧ s = dwdm spacing m ∧ ∀ slot ∈ s.flexSlots, slot ∈ slots := by
  have hwords : ∀ x ∈ flexMultipliers slots, IsWord x := by
    intro x hx
    obtain ⟨slot, hslot, -, rfl⟩ := mem_flexMultipliers.1 hx
    exact (hslots slot hslot).isWord
  rw [mem_channelsOf_of_isWord hwords]
  constructor
  · rintro ⟨m, hgrid, rfl, hall⟩
    refine ⟨m, hgrid, rfl, ?_⟩
    rw [flexSlots_dwdm]
    intro slot hslot
    obtain ⟨x, hx, rfl⟩ := List.mem_map.1 hslot
    obtain ⟨found, hfound, -, hmultiplier⟩ := mem_flexMultipliers.1 (hall x hx)
    rw [(hslots found hfound).eq_flexSlot, hmultiplier] at hfound
    exact hfound
  · rintro ⟨m, hgrid, rfl, hall⟩
    rw [flexSlots_dwdm] at hall
    refine ⟨m, hgrid, rfl, fun x hx => ?_⟩
    exact mem_flexMultipliers.2 ⟨flexSlot x, hall _ (List.mem_map_of_mem hx), rfl, rfl⟩

/-! ## Slots in whole channels -/

/-- The four slots of the 50 GHz channel `m`, as words. -/
def channelSlots (m : Int) : List Signal :=
  [flexSlot (word (8 * m - 3)), flexSlot (word (8 * m - 1)), flexSlot (word (8 * m + 1)),
    flexSlot (word (8 * m + 3))]

/-- If they are words anyway, they lie one and three steps to either side of the centre. -/
theorem channelSlots_of_isWord (hlow : IsWord (8 * m - 3)) (hhigh : IsWord (8 * m + 3)) :
    channelSlots m =
      [flexSlot (8 * m - 3), flexSlot (8 * m - 1), flexSlot (8 * m + 1), flexSlot (8 * m + 3)] := by
  have hbelow : IsWord (8 * m - 1) := by
    unfold IsWord at *
    omega
  have habove : IsWord (8 * m + 1) := by
    unfold IsWord at *
    omega
  rw [channelSlots, word_of_isWord hlow, word_of_isWord hbelow, word_of_isWord habove,
    word_of_isWord hhigh]

theorem flexSlots_ghz50 (m : Int) : (dwdm .ghz50 m).flexSlots = channelSlots m := by
  have hmultipliers : slotMultipliers .ghz50 m =
      [word (8 * m - 3), word (8 * m - 1), word (8 * m + 1), word (8 * m + 3)] := by
    show (List.range 4).map _ = _
    simp only [List.range_succ, List.range_zero, List.nil_append, List.map_cons,
      List.map_nil, List.cons_append, List.cons.injEq, and_true]
    refine ⟨?_, ?_, ?_, ?_⟩ <;> congr 1 <;> simp only [Spacing.slotCount, Spacing.steps] <;> omega
  rw [flexSlots_dwdm, hmultipliers]
  rfl

/-- Channels of 50 GHz with a common slot have all slots in common. -/
theorem channelSlots_eq_of_mem (h : s ∈ channelSlots m) (h' : s ∈ channelSlots m') :
    channelSlots m = channelSlots m' := by
  rw [← flexSlots_ghz50, flexSlots_dwdm] at h h' ⊢
  obtain ⟨x, hx, rfl⟩ := List.mem_map.1 h
  obtain ⟨y, hy, heq⟩ := List.mem_map.1 h'
  obtain rfl := flexSlot_injective heq
  rw [← flexSlots_ghz50, flexSlots_dwdm,
    slotMultipliers_eq_of_word_eq (word_eq_of_mem_slotMultipliers hx hy)]

/-- Whatever its number, a channel of 50 GHz has the slots of one on the grid. -/
theorem exists_onGrid_channelSlots (m : Int) :
    ∃ m', OnGrid .ghz50 m' ∧ channelSlots m' = channelSlots m := by
  obtain ⟨m', hgrid, hcentre⟩ := exists_onGrid .ghz50 m
  have heq : word (m' * (Spacing.ghz50.steps : Int)) = word (m * (Spacing.ghz50.steps : Int)) := by
    rw [hcentre, word_word]
  refine ⟨m', hgrid, ?_⟩
  rw [← flexSlots_ghz50, ← flexSlots_ghz50, flexSlots_dwdm, flexSlots_dwdm,
    slotMultipliers_eq_of_word_eq heq]

/-- The slots that pass `p` come in whole channels of 50 GHz. -/
def InWholeChannels (p : Signal → Prop) : Prop :=
  ∀ s, p s → ∃ m, s ∈ channelSlots m ∧ ∀ x ∈ channelSlots m, p x

/-- If one slot of a channel passes, the whole channel does. -/
theorem InWholeChannels.all {p : Signal → Prop} (h : InWholeChannels p) (hs : s ∈ channelSlots m)
    (hp : p s) : ∀ x ∈ channelSlots m, p x := by
  obtain ⟨m', hs', hall⟩ := h s hp
  rwa [channelSlots_eq_of_mem hs hs']

/-- Collapsing slots that come in whole channels drops none of them. -/
theorem InWholeChannels.mem_iff (h : InWholeChannels (· ∈ slots)) :
    s ∈ slots ↔ ∃ c ∈ channelsOf slots .ghz50, s ∈ c.flexSlots := by
  have hslots : ∀ slot ∈ slots, IsFlexSlot slot := by
    intro slot hslot
    obtain ⟨m, hm, -⟩ := h slot hslot
    rw [← flexSlots_ghz50] at hm
    exact isFlexSlot_of_mem_flexSlots hm
  constructor
  · intro hs
    obtain ⟨m, hm, hall⟩ := h s hs
    obtain ⟨m', hgrid, heq⟩ := exists_onGrid_channelSlots m
    rw [← heq, ← flexSlots_ghz50] at hm hall
    exact ⟨dwdm .ghz50 m', (mem_channelsOf_iff hslots).2 ⟨m', hgrid, rfl, hall⟩, hm⟩
  · rintro ⟨c, hc, hs⟩
    obtain ⟨m, -, -, hall⟩ := (mem_channelsOf_iff hslots).1 hc
    exact hall s hs

end Signal

end Lightpath

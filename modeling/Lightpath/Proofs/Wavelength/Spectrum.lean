import Lightpath.Proofs.Wavelength.Offered

/-!
# Spectrum on the ledger — slots that are registered and held in whole channels

The slots of a spectrum are registered in whole channels of 50 GHz (`Ledger.RegistersChannels`). If they
are held in whole channels as well (`Ledger.HoldsChannels`), then every channel of a port is free, held
by one consumer, or not there (`Ledger.channel_cases`), and what is free on some ports comes in whole
channels too.
-/

namespace Lightpath

open Signal

namespace Ledger

variable {l : Ledger} {cp : ConnectPoint}

/-! ## Registered channels -/

/-- On every port the slots are registered in whole channels. -/
def RegistersChannels (l : Ledger) : Prop := ∀ cp, InWholeChannels (· ∈ l.registered cp)

theorem registersChannels_empty : ({} : Ledger).RegistersChannels :=
  fun _ _ h => absurd h SortedSet.not_mem_empty

theorem RegistersChannels.registerLambdas (h : l.RegistersChannels) (cp : ConnectPoint)
    {slots : List Signal} (hslots : InWholeChannels (· ∈ slots)) :
    (l.registerLambdas cp slots).RegistersChannels := by
  intro cp' s hs
  rcases mem_registered_registerLambdas.1 hs with hold | ⟨rfl, hnew⟩
  · obtain ⟨m, hm, hall⟩ := h cp' s hold
    exact ⟨m, hm, fun x hx => mem_registered_registerLambdas.2 (.inl (hall x hx))⟩
  · obtain ⟨m, hm, hall⟩ := hslots s hnew
    exact ⟨m, hm, fun x hx => mem_registered_registerLambdas.2 (.inr ⟨rfl, hall x hx⟩)⟩

theorem inWholeChannels_spectrumSlots (s : Spectrum) : InWholeChannels (· ∈ spectrumSlots s) := by
  intro slot hslot
  obtain ⟨m, hm, hslot⟩ := List.mem_flatMap.1 hslot
  refine ⟨m, flexSlots_ghz50 m ▸ hslot, fun x hx => ?_⟩
  exact List.mem_flatMap.2 ⟨m, hm, (flexSlots_ghz50 m).symm ▸ hx⟩

/-- Registering a spectrum registers whole channels. -/
theorem RegistersChannels.registerSpectrum (h : l.RegistersChannels) (t : Topology) (s : Spectrum) :
    (l.registerSpectrum t s).RegistersChannels := by
  unfold Ledger.registerSpectrum
  generalize Ledger.lambdaPorts t = ports
  induction ports generalizing l with
  | nil => exact h
  | cons cp rest ih => exact ih (h.registerLambdas cp (inWholeChannels_spectrumSlots s))

theorem RegistersChannels.of_slots_eq {l' : Ledger} (h : l.RegistersChannels)
    (hslots : l'.slots = l.slots) : l'.RegistersChannels := by
  intro cp
  rw [registered, hslots]
  exact h cp

/-! ## Held channels -/

/-- A list of resources names the slots of every port in whole channels. -/
def NamesChannels (rs : List Resource) : Prop := ∀ cp, InWholeChannels fun s => .lambda cp s ∈ rs

/-- Every consumer holds slots in whole channels. -/
def HoldsChannels (l : Ledger) : Prop := ∀ key, NamesChannels (l.allocations key)

theorem namesChannels_nil : NamesChannels [] := fun _ _ h => nomatch h

theorem NamesChannels.append {rs rs' : List Resource} (h : NamesChannels rs)
    (h' : NamesChannels rs') : NamesChannels (rs ++ rs') := by
  intro cp s hs
  rcases List.mem_append.1 hs with hs | hs
  · obtain ⟨m, hm, hall⟩ := h cp s hs
    exact ⟨m, hm, fun x hx => List.mem_append_left _ (hall x hx)⟩
  · obtain ⟨m, hm, hall⟩ := h' cp s hs
    exact ⟨m, hm, fun x hx => List.mem_append_right _ (hall x hx)⟩

theorem NamesChannels.flatMap {α : Type} {f : α → List Resource} {xs : List α}
    (h : ∀ x ∈ xs, NamesChannels (f x)) : NamesChannels (xs.flatMap f) := by
  induction xs with
  | nil => exact namesChannels_nil
  | cons x rest ih =>
    rw [List.flatMap_cons]
    exact (h x List.mem_cons_self).append (ih fun y hy => h y (List.mem_cons_of_mem _ hy))

theorem namesChannels_ports (cps : List ConnectPoint) : NamesChannels (cps.map .port) := by
  intro cp s hs
  obtain ⟨cp', -, heq⟩ := List.mem_map.1 hs
  cases heq

/-- The slots of a channel along a route are whole channels on its ports. -/
theorem namesChannels_lambdaResources (t : Topology) (r : Route) (m : Int) :
    NamesChannels (t.lambdaResources r (dwdm .ghz50 m)) := by
  intro cp s hs
  obtain ⟨cp', hcp, hs⟩ := List.mem_flatMap.1 hs
  obtain ⟨slot, hslot, heq⟩ := List.mem_map.1 hs
  cases heq
  rw [flexSlots_ghz50] at hslot
  refine ⟨m, hslot, fun x hx => List.mem_flatMap.2 ⟨cp, hcp, ?_⟩⟩
  exact List.mem_map_of_mem ((flexSlots_ghz50 m).symm ▸ hx)

/-! ## Free channels -/

/-- A channel of a port is free, held by one consumer, or not there. -/
theorem channel_cases (hregistered : l.RegistersChannels) (hheld : l.HoldsChannels) (h : l.Exact)
    (cp : ConnectPoint) (m : Int) :
    (∀ s ∈ channelSlots m, l.isAvailable (.lambda cp s) = true) ∨
      (∃ key, ∀ s ∈ channelSlots m, s ∈ l.registered cp ∧ l.owner? (.lambda cp s) = some key) ∨
        ∀ s ∈ channelSlots m, s ∉ l.registered cp := by
  by_cases hthere : ∃ s ∈ channelSlots m, s ∈ l.registered cp
  · obtain ⟨s, hs, hregisters⟩ := hthere
    have hall := (hregistered cp).all hs hregisters
    by_cases howned : ∃ x ∈ channelSlots m, l.owner? (.lambda cp x) ≠ none
    · obtain ⟨x, hx, hsome⟩ := howned
      obtain ⟨key, hkey⟩ := Option.ne_none_iff_exists'.1 hsome
      refine .inr (.inl ⟨key, fun y hy => ⟨hall y hy, ?_⟩⟩)
      have hlisted := (h.owner_iff _ _).1 hkey
      exact (h.owner_iff _ _).2 ((hheld key cp).all hx hlisted y hy)
    · refine .inl fun x hx => isAvailable_lambda_iff.2 ⟨hall x hx, ?_⟩
      by_contra hne
      exact howned ⟨x, hx, hne⟩
  · refine .inr (.inr fun s hs hregisters => ?_)
    exact hthere ⟨s, hs, hregisters⟩

/-- What is free on a port comes in whole channels. -/
theorem inWholeChannels_available (hregistered : l.RegistersChannels) (hheld : l.HoldsChannels)
    (h : l.Exact) (cp : ConnectPoint) :
    InWholeChannels fun s => l.isAvailable (.lambda cp s) = true := by
  intro s hs
  obtain ⟨hthere, hfree⟩ := isAvailable_lambda_iff.1 hs
  obtain ⟨m, hm, -⟩ := hregistered cp s hthere
  refine ⟨m, hm, ?_⟩
  rcases channel_cases hregistered hheld h cp m with hall | ⟨key, hall⟩ | hnone
  · exact hall
  · have howner := (hall s hm).2
    rw [hfree] at howner
    cases howner
  · exact absurd hthere (hnone s hm)

/-- What is free on each of some ports comes in whole channels. -/
theorem inWholeChannels_common (hregistered : l.RegistersChannels) (hheld : l.HoldsChannels)
    (h : l.Exact) (cps : List ConnectPoint) : InWholeChannels (· ∈ l.commonLambdas cps) := by
  intro s hs
  obtain ⟨hne, hall⟩ := mem_commonLambdas.1 hs
  obtain ⟨cp, hcp⟩ := List.exists_mem_of_ne_nil _ hne
  obtain ⟨m, hm, -⟩ := inWholeChannels_available hregistered hheld h cp s (hall cp hcp)
  refine ⟨m, hm, fun x hx => mem_commonLambdas.2 ⟨hne, fun cp' hcp' => ?_⟩⟩
  exact (inWholeChannels_available hregistered hheld h cp').all hm (hall cp' hcp') x hx

end Ledger

end Lightpath

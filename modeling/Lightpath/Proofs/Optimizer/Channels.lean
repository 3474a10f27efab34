import Lightpath.Proofs.Optimizer.Turns
import Lightpath.Proofs.Wavelength.Spectrum

/-!
# Channels — spectrum is taken and given back in whole channels

Slots are registered for the channels of a spectrum, planning offers channels only
(`OffersChannels`), and a reservation takes the slots of its channels on whole routes. So in every state
that a run reaches, each 50 GHz channel of a port is free, held by one group, or not there, and
collapsing what is free to channels drops no slot (`keepsChannels_afterTurns`).
-/

namespace Lightpath

/-- Every frequency of the candidates stands for a channel of 50 GHz. -/
def OffersChannels (candidates : List Candidate) : Prop :=
  ∀ c ∈ candidates, ∀ x ∈ c.offers, ∀ id s, x.signals.find? id = some s → ∃ m, s = .dwdm .ghz50 m

theorem offersChannels_nil : OffersChannels [] := fun _ h => nomatch h

namespace Outlook

variable {o : Outlook}

/-- Planning offers channels only. -/
theorem offersChannels_candidates {pairs : List Ends} {candidates : List Candidate}
    (h : o.candidates pairs = .ok candidates) : OffersChannels candidates := by
  intro c hc x hx id s hs
  obtain ⟨e, found, -, hfound, hmem⟩ := mem_offers_of_candidates h hc hx
  rw [(checked_of_mem_offers hfound hmem).signals, FrequencyPlan.find?_offered] at hs
  obtain ⟨-, -, m, -, rfl, -⟩ := Signal.mem_channelsOf.1 hs.1
  exact ⟨m, rfl⟩

end Outlook

/-! ## What a reservation takes -/

/-- Stored paths keep their channels. -/
theorem PathStore.signal_of_mem_putAll {paths : List WavelengthPath} (s : PathStore)
    {p : WavelengthPath} (hp : p ∈ (s.putAll paths).2) : ∃ q ∈ paths, p.signal = q.signal := by
  induction paths generalizing s with
  | nil => exact nomatch hp
  | cons q rest ih =>
    rcases List.mem_cons.1 hp with rfl | hp
    · exact ⟨q, List.mem_cons_self, rfl⟩
    · obtain ⟨q', hq', heq⟩ := ih _ hp
      exact ⟨q', List.mem_cons_of_mem _ hq', heq⟩

namespace Optimizer

variable {o : Optimizer}

/-- Reserved paths use channels that were offered. -/
theorem signal_of_reserve (hoffers : OffersChannels o.candidates) {index : Nat} {ids : List Int}
    {names : List String} {paths : List WavelengthPath}
    (h : (o.reserve index ids names).result = .ok paths) {p : WavelengthPath} (hp : p ∈ paths) :
    ∃ m, p.signal = .dwdm .ghz50 m := by
  obtain ⟨c, d, hc, hd, hput⟩ := reserve_eq_ok h
  have hstored : (o.paths.issueGroup.2.putAll _).2 = paths := congrArg Prod.snd hput
  rw [← hstored] at hp
  obtain ⟨q, hq, hsignal⟩ := PathStore.signal_of_mem_putAll _ hp
  obtain ⟨x, hx, id, hfind⟩ :=
    Candidate.offered_of_demand hd q.signal (Candidate.signal_mem_of_mem_paths hq)
  have hmem := List.mem_of_getElem? (Candidate.getElem?_of_choose hc).2
  obtain ⟨m, hm⟩ := hoffers c hmem x hx id q.signal hfind
  exact ⟨m, hsignal.trans hm⟩

/-! ## Candidates over a run -/

theorem candidates_foldl_dropGroup (o : Optimizer) (events : List IntentEvent) :
    (events.foldl (fun o e => o.dropGroup e.intent.group) o).candidates = o.candidates := by
  induction events generalizing o with
  | nil => rfl
  | cons e rest ih => exact ih (o.dropGroup e.intent.group)

theorem candidates_withdraw (o : Optimizer) (key : IntentKey) :
    (o.withdraw key).optimizer.candidates = o.candidates := by
  unfold withdraw
  split
  next => rfl
  next => exact candidates_foldl_dropGroup _ _

/-- Planning candidates gives new ones, or none, or is refused and keeps the old ones. -/
theorem candidates_calculateWavelengthPaths (o : Optimizer) (pairs : List Ends) (force : Bool) :
    (o.calculateWavelengthPaths pairs force).optimizer.candidates = o.candidates ∨
      (o.calculateWavelengthPaths pairs force).optimizer.candidates = [] ∨
        ∃ candidates, o.outlook.candidates pairs = .ok candidates ∧
          (o.calculateWavelengthPaths pairs force).optimizer.candidates = candidates := by
  unfold calculateWavelengthPaths
  split
  next => exact .inl rfl
  next =>
    split
    next => exact .inl rfl
    next =>
      split
      next => exact .inr (.inl rfl)
      next candidates hcandidates => exact .inr (.inr ⟨candidates, hcandidates, rfl⟩)

/-- No other call changes the candidates. -/
theorem candidates_run (c : Call) (o : Optimizer) :
    (c.run o).optimizer.candidates = o.candidates ∨
      ∃ pairs force, c = .calculateWavelengthPaths pairs force := by
  cases c with
  | calculateWdmPaths ingress egress =>
    left
    simp only [Call.run, Outcome.void, calculateWdmPaths, calculateWdmPathsBy]
    split
    next => rfl
    next => split <;> rfl
  | calculateWdmPathsBy method ingress egress =>
    left
    simp only [Call.run, Outcome.void, calculateWdmPathsBy]
    split
    next => rfl
    next => split <;> rfl
  | calculateWavelengthPaths pairs force => exact .inr ⟨pairs, force, rfl⟩
  | reserve index ids names =>
    left
    simp only [Call.run, Outcome.void, reserve, reserveBy]
    split
    next => rfl
    next =>
      split
      next => rfl
      next =>
        simp only [reserveDemand]
        split <;> rfl
  | submit group =>
    left
    simp only [Call.run, Outcome.void, submit]
    split
    next => rfl
    next =>
      split
      next => rfl
      next => split <;> rfl
  | remove group =>
    left
    simp only [Call.run, Outcome.void, remove]
    split
    next => rfl
    next =>
      split
      next => rfl
      next => exact o.candidates_withdraw _
      next => rfl
  | setLinkState ends state =>
    left
    simp only [Call.run, setLinkState]
    split <;> rfl
  | removeLink ends =>
    left
    simp only [Call.run, removeLink]
    split <;> rfl
  | removeDevice id =>
    left
    simp only [Call.run, removeDevice]
    split <;> rfl
  | install key =>
    left
    simp only [Call.run, install]
    split <;> rfl
  | withdraw key => exact .inl (o.candidates_withdraw key)

/-- No turn makes candidates offer anything but channels. -/
theorem offersChannels_turn (h : OffersChannels o.candidates) (x : Turn) :
    OffersChannels (x.run o).candidates := by
  cases x with
  | network t d => exact h
  | call c =>
    show OffersChannels (c.run o).optimizer.candidates
    rcases candidates_run c o with hsame | ⟨pairs, force, rfl⟩
    · exact hsame ▸ h
    · show OffersChannels (o.calculateWavelengthPaths pairs force).optimizer.candidates
      rcases o.candidates_calculateWavelengthPaths pairs force with
        hsame | hnone | ⟨candidates, hok, hnew⟩
      · exact hsame ▸ h
      · exact hnone ▸ offersChannels_nil
      · exact hnew ▸ Outlook.offersChannels_candidates hok

/-! ## Holders over a run -/

/-- Candidates offer channels, and only groups hold anything, slots in whole channels. -/
structure TakesChannels (o : Optimizer) : Prop where
  offers : OffersChannels o.candidates
  groups : ∀ key, o.ledger.allocations key ≠ [] → ∃ g, key = intentKey g
  holds : o.ledger.HoldsChannels

theorem takesChannels_of_idle (h : o.Idle) (hcandidates : o.candidates = []) : o.TakesChannels := by
  have hnothing (key : IntentKey) : o.ledger.allocations key = [] := by
    rw [Ledger.allocations, h.held]
    rfl
  constructor
  case offers => exact hcandidates ▸ offersChannels_nil
  case groups => exact fun key hne => absurd (hnothing key) hne
  case holds =>
    intro key
    rw [hnothing key]
    exact Ledger.namesChannels_nil

/-- What a new group takes are whole channels. -/
theorem namesChannels_of_reserved {t : Topology} {held : Holding} (h : held.Reserved t)
    (hsignals : ∀ p ∈ held.legs, ∃ m, p.signal = .dwdm .ghz50 m) :
    Ledger.NamesChannels held.resources := by
  rw [h.resources]
  refine Ledger.NamesChannels.flatMap fun p hp => ?_
  obtain ⟨m, hm⟩ := hsignals p hp
  rw [WavelengthPath.resources, hm]
  exact (Ledger.namesChannels_ports _).append (Ledger.namesChannels_lambdaResources t _ m)

/-- Each turn of a consistent optimizer takes and gives back whole channels. -/
theorem TakesChannels.turn (h : o.TakesChannels) (hconsistent : o.Consistent fun _ _ => True)
    (x : Turn) : (x.run o).TakesChannels := by
  have hoffers := offersChannels_turn h.offers x
  cases x with
  | network t d => exact ⟨hoffers, h.groups, h.holds⟩
  | call c =>
    rcases hconsistent.run_cases c with hsame | ⟨g, held, -, htouches, hheld⟩
    · have hledger : (Turn.run (.call c) o).ledger = o.ledger := hsame.ledger
      exact ⟨hoffers, hledger ▸ h.groups, hledger ▸ h.holds⟩
    · have hnames : Ledger.NamesChannels held.resources := by
        rcases hheld with ⟨rfl, -⟩ | ⟨t, -, -, hkept⟩ | ⟨-, index, ids, names, -, hok, -, hreserved⟩
        · exact Ledger.namesChannels_nil
        · exact hkept ▸ h.holds (intentKey g)
        · exact namesChannels_of_reserved hreserved fun p hp => signal_of_reserve h.offers hok hp
      have hresources (key : IntentKey) : (Turn.run (.call c) o).ledger.allocations key =
          if key = intentKey g then held.resources else o.ledger.allocations key :=
        htouches.resources key
      constructor
      case offers => exact hoffers
      case groups =>
        intro key hne
        by_cases hkey : key = intentKey g
        · exact ⟨g, hkey⟩
        · rw [hresources, if_neg hkey] at hne
          exact h.groups key hne
      case holds =>
        intro key
        rw [hresources]
        split
        · exact hnames
        · exact h.holds key

theorem TakesChannels.afterTurns {start : Optimizer} (h : start.TakesChannels) (hidle : start.Idle)
    (turns : List Turn) : (start.afterTurns turns).TakesChannels := by
  induction turns using List.reverseRecOn with
  | nil => exact h
  | append_singleton turns x ih =>
    rw [afterTurns_append_singleton]
    exact ih.turn (consistent_afterTurns hidle turns) x

/-! ## Channels in every state -/

/-- The spectrum of every port is kept in whole channels of 50 GHz. -/
structure KeepsChannels (o : Optimizer) : Prop where
  /-- The four slots of a channel are registered and free, or registered and held by one group that
  has stored paths, or none of them is registered. -/
  channel : ∀ cp m,
    (∀ s ∈ Signal.channelSlots m, o.ledger.isAvailable (.lambda cp s) = true) ∨
    (∃ g, o.paths.getGroup g ≠ [] ∧ ∀ s ∈ Signal.channelSlots m,
      s ∈ o.ledger.registered cp ∧ o.ledger.owner? (.lambda cp s) = some (intentKey g)) ∨
    ∀ s ∈ Signal.channelSlots m, s ∉ o.ledger.registered cp
  /-- No other slot is registered. -/
  registered : ∀ cp, ∀ s ∈ o.ledger.registered cp, ∃ m, s ∈ Signal.channelSlots m
  /-- No slot is held that is not registered. -/
  held : ∀ cp s, o.ledger.owner? (.lambda cp s) ≠ none → s ∈ o.ledger.registered cp
  /-- The channels that are free on a port have all its free slots. -/
  available : ∀ cp s, s ∈ o.ledger.availableLambdas cp ↔
    ∃ c ∈ Signal.channelsOf (o.ledger.availableLambdas cp).toList .ghz50, s ∈ c.flexSlots
  /-- The channels that are free on several ports have all their common slots. -/
  common : ∀ cps s, s ∈ o.ledger.commonLambdas cps ↔
    ∃ c ∈ Signal.channelsOf (o.ledger.commonLambdas cps).toList .ghz50, s ∈ c.flexSlots

theorem TakesChannels.keepsChannels (h : o.TakesChannels)
    (hregistered : o.ledger.RegistersChannels) (hsound : o.ledger.Sound)
    (hconsistent : o.Consistent fun _ _ => True) : o.KeepsChannels where
  channel := by
    intro cp m
    rcases Ledger.channel_cases hregistered h.holds hsound.toExact cp m with
      hfree | ⟨key, hall⟩ | hnone
    · exact .inl hfree
    · -- the holder of a slot is a group, and a group that holds something has paths
      obtain ⟨s, hs⟩ := List.exists_mem_of_ne_nil (Signal.channelSlots m) (List.cons_ne_nil _ _)
      have hlisted := (hsound.owner_iff _ _).1 (hall s hs).2
      obtain ⟨g, rfl⟩ := h.groups key (List.ne_nil_of_mem hlisted)
      obtain ⟨p, hp, hgroup⟩ := (hconsistent.inStep g).held_iff.2 (List.ne_nil_of_mem hlisted)
      refine .inr (.inl ⟨g, ?_, hall⟩)
      rw [(hconsistent.inStep g).found]
      exact List.ne_nil_of_mem (List.mem_filter.2 ⟨hp, beq_iff_eq.2 hgroup⟩)
    · exact .inr (.inr hnone)
  registered := by
    intro cp s hs
    obtain ⟨m, hm, -⟩ := hregistered cp s hs
    exact ⟨m, hm⟩
  held := by
    intro cp s hne
    obtain ⟨key, hkey⟩ := Option.ne_none_iff_exists'.1 hne
    exact SortedSet.contains_iff.1 (hsound.knows_of_owner _ _ hkey)
  available := by
    intro cp s
    refine Signal.InWholeChannels.mem_iff fun x hx => ?_
    obtain ⟨m, hm, hall⟩ := Ledger.inWholeChannels_available hregistered h.holds hsound.toExact cp x
      (Ledger.mem_availableLambdas.1 hx)
    exact ⟨m, hm, fun y hy => Ledger.mem_availableLambdas.2 (hall y hy)⟩
  common := by
    intro cps s
    exact Signal.InWholeChannels.mem_iff
      (Ledger.inWholeChannels_common hregistered h.holds hsound.toExact cps)

/-- A new optimizer has registered whole channels and has no candidates. -/
theorem registersChannels_ofNetwork {n : NetworkDocument} {settings : Settings}
    {machine : Machine} {autoInstall : Bool} {start : Optimizer}
    (h : ofNetwork n settings machine autoInstall = .ok start) :
    start.ledger.RegistersChannels ∧ start.candidates = [] := by
  obtain ⟨t, -, rfl⟩ := ofNetwork_eq_ok h
  exact ⟨Ledger.registersChannels_empty.registerSpectrum t _, rfl⟩

/-- In every state that a run on a network reaches, the spectrum of every port is kept in whole
channels, and collapsing free slots to channels drops none of them. -/
theorem keepsChannels_afterTurns {n : NetworkDocument} {settings : Settings}
    {machine : Machine} {autoInstall : Bool} {start : Optimizer}
    (h : ofNetwork n settings machine autoInstall = .ok start) (turns : List Turn) :
    (start.afterTurns turns).KeepsChannels := by
  have hidle : start.Idle := idle_ofNetwork h
  obtain ⟨hregistered, hcandidates⟩ := registersChannels_ofNetwork h
  have htakes : (start.afterTurns turns).TakesChannels :=
    (takesChannels_of_idle hidle hcandidates).afterTurns hidle turns
  exact htakes.keepsChannels (hregistered.of_slots_eq (start.slots_afterTurns turns))
    (sound_afterTurns hidle turns) (consistent_afterTurns hidle turns)

/-- In the sample run the second group holds the first channel at an end of the line; the channel above
it is not registered there. -/
theorem keepsChannels_afterTurns_sample :
    ofNetwork sampleNetwork sampleSettings default true = .ok sampleStart ∧
    (sampleStart.afterTurns (sampleRun.map .call)).KeepsChannels ∧
    (Signal.channelSlots 1).map (fun s =>
        (sampleStart.afterTurns (sampleRun.map .call)).ledger.owner? (.lambda ⟨"A", 1⟩ s)) =
      List.replicate 4 (some (intentKey 2)) ∧
    (Signal.channelSlots 2).map (fun s =>
        ((sampleStart.afterTurns (sampleRun.map .call)).ledger.registered ⟨"A", 1⟩).contains s) =
      List.replicate 4 false :=
  ⟨ofNetwork_sample, keepsChannels_afterTurns ofNetwork_sample _, by decide +kernel,
    by decide +kernel⟩

end Optimizer

end Lightpath

import Lightpath.Proofs.Optimizer.Calls
import Lightpath.Proofs.Resource.Ownership
import Lightpath.Proofs.Wavelength.Demand
import Lightpath.Proofs.Wavelength.Legs

/-!
# Holdings — what the three stores know of one group

A group of wavelength paths lives in the path store, in the ledger and in the intent book. Its
`Holding` collects what these know of it. A group is free, reserved or submitted, and in a
`Consistent` optimizer every group is in one of these stages in all three stores at once.

An operation on groups either fails and leaves the state as it was, or touches one group and leaves
the holding of every other one (`Touches`): there is one such case lemma for each of them
(`reserve_cases`, `submit_cases`, `install_cases`, `withdraw_cases`, `remove_cases`).
-/

namespace Lightpath

/-- What is known of a group: its stored paths, what its key holds, and its intent. -/
structure Holding where
  legs : List WavelengthPath
  resources : List Resource
  intent : Option (Intent × IntentState)

namespace Holding

/-- Nothing is known of the group. -/
def free : Holding := ⟨[], [], none⟩

/-- What holds of a group in use, `t` being the topology in which it was reserved. -/
structure InUse (t : Topology) (x : Holding) : Prop where
  legs : x.legs ≠ []
  resources : x.resources = x.legs.flatMap (WavelengthPath.resources t)

/-- The group waits for its submission. -/
structure Reserved (t : Topology) (x : Holding) : Prop extends InUse t x where
  unsubmitted : ∀ p ∈ x.legs, p.submitted = false
  intent : x.intent = none

/-- The group has an intent that asks for every leg and lists all that the group holds. -/
structure Submitted (t : Topology) (g : Nat) (x : Holding) : Prop extends InUse t x where
  submitted : ∀ p ∈ x.legs, p.submitted = true
  intent : ∃ state, (state = .installed ∨ state = .installRequested) ∧
    x.intent = some (⟨intentKey g, g, x.legs.map Optimizer.connectionOf, x.resources⟩, state)

/-- The group is in use, before or after its submission. -/
def Taken (t : Topology) (g : Nat) (x : Holding) : Prop := x.Reserved t ∨ x.Submitted t g

theorem Taken.inUse {t : Topology} {g : Nat} {x : Holding} (h : x.Taken t g) : x.InUse t := by
  rcases h with h | h
  · exact h.toInUse
  · exact h.toInUse

/-- A group in use holds something: at least the boundary ports of its first leg. -/
theorem InUse.resources_ne_nil {t : Topology} {x : Holding} (h : x.InUse t) :
    x.resources ≠ [] := by
  rw [h.resources]
  obtain ⟨p, rest, hlegs⟩ := List.exists_cons_of_ne_nil h.legs
  rw [hlegs]
  simp [WavelengthPath.resources, Leg.boundary]

theorem Taken.ne_free {t : Topology} {g : Nat} {x : Holding} (h : x.Taken t g) : x ≠ .free :=
  fun hfree => h.inUse.legs (congrArg Holding.legs hfree)

end Holding

namespace Optimizer

/-- What is known of a group at present. -/
def holding (o : Optimizer) (g : Nat) : Holding :=
  ⟨o.paths.legs g, o.ledger.allocations (intentKey g), o.intents.entries.find? (intentKey g)⟩

/-- The stores are consistent in themselves and with each other. `reservedOn g t` tells in which
topologies a group may have been reserved. -/
structure Consistent (reservedOn : Nat → Topology → Prop) (o : Optimizer) : Prop where
  coherent : o.paths.Coherent
  exact : o.ledger.Exact
  /-- Every intent belongs to some group. -/
  named : ∀ key, o.intents.entries.find? key ≠ none → ∃ g, key = intentKey g
  /-- Nothing is known of groups whose ids were not given out. -/
  fresh : ∀ g, o.paths.lastGroupId < g → o.holding g = .free
  stage : ∀ g, o.holding g = .free ∨ ∃ t, reservedOn g t ∧ (o.holding g).Taken t g

/-- Of all groups and keys only `g` and its key may know a change from `o` to `o'`, and the holding of
`g` is `held` then. -/
structure Touches (o : Optimizer) (g : Nat) (held : Holding) (o' : Optimizer) : Prop where
  coherent : o'.paths.Coherent
  exact : o'.ledger.Exact
  topology : o'.topology = o.topology
  issued : o'.paths.lastGroupId = max g o.paths.lastGroupId
  legs : ∀ g', o'.paths.legs g' = if g' = g then held.legs else o.paths.legs g'
  resources : ∀ key, o'.ledger.allocations key =
    if key = intentKey g then held.resources else o.ledger.allocations key
  intent : ∀ key, o'.intents.entries.find? key =
    if key = intentKey g then held.intent else o.intents.entries.find? key

variable {reservedOn reservedOn' : Nat → Topology → Prop} {o o' : Optimizer}

theorem consistent_of_idle (h : o.Idle) (reservedOn : Nat → Topology → Prop) :
    o.Consistent reservedOn := by
  have hfree : ∀ g, o.holding g = .free := by
    intro g
    unfold holding
    rw [h.paths, h.intents, Ledger.allocations, h.held]
    rfl
  refine ⟨PathStore.coherent_of_empty ?_ ?_, Ledger.exact_of_unheld h.owners h.held,
    fun key hkey => ?_, fun g _ => hfree g, fun g => .inl (hfree g)⟩
  · rw [h.paths]
  · rw [h.paths]
  · rw [h.intents] at hkey
    exact absurd rfl hkey

theorem SameGroups.holding (h : SameGroups o o') : o'.holding = o.holding := by
  funext g
  unfold Optimizer.holding
  rw [h.paths, h.ledger, h.intents]

/-- A call that concerns no group keeps the stores consistent. -/
theorem Consistent.sameGroups (h : o.Consistent reservedOn) (hsame : SameGroups o o')
    (hon : ∀ g t, reservedOn g t → reservedOn' g t) : o'.Consistent reservedOn' := by
  refine ⟨hsame.paths ▸ h.coherent, hsame.ledger ▸ h.exact, hsame.intents ▸ h.named, ?_, ?_⟩
  · rw [hsame.paths, hsame.holding]
    exact h.fresh
  · intro g
    rw [hsame.holding]
    exact (h.stage g).imp_right fun ⟨t, ht, htaken⟩ => ⟨t, hon g t ht, htaken⟩

theorem Touches.group {g : Nat} {held : Holding} (h : o.Touches g held o') : o'.holding g = held := by
  unfold holding
  rw [h.legs, h.resources, h.intent, if_pos rfl, if_pos rfl, if_pos rfl]

/-- Every group other than the touched one keeps its paths, what it holds and its intent. -/
theorem Touches.others {g : Nat} {held : Holding} (h : o.Touches g held o') {g' : Nat}
    (hg : g' ≠ g) : o'.holding g' = o.holding g' := by
  have hkey : intentKey g' ≠ intentKey g := fun hk => hg (intentKey_injective hk)
  unfold holding
  rw [h.legs, h.resources, h.intent, if_neg hg, if_neg hkey, if_neg hkey]

theorem Touches.named {g : Nat} {held : Holding} (h : o.Touches g held o')
    (hnamed : ∀ key, o.intents.entries.find? key ≠ none → ∃ g, key = intentKey g) (key : IntentKey)
    (hkey : o'.intents.entries.find? key ≠ none) : ∃ g, key = intentKey g := by
  by_cases hg : key = intentKey g
  · exact ⟨g, hg⟩
  · rw [h.intent, if_neg hg] at hkey
    exact hnamed key hkey

/-- A call that touches one group keeps the stores consistent if the group is free or taken after
it. -/
theorem Consistent.touches (h : o.Consistent reservedOn) {g : Nat} {held : Holding}
    (ht : o.Touches g held o') (hstage : held = .free ∨ ∃ t, reservedOn' g t ∧ held.Taken t g)
    (hon : ∀ g t, reservedOn g t → reservedOn' g t) : o'.Consistent reservedOn' := by
  refine ⟨ht.coherent, ht.exact, ht.named h.named, ?_, ?_⟩
  · intro g' hg'
    rw [ht.issued] at hg'
    rw [ht.others (by omega), h.fresh g' (by omega)]
  · intro g'
    by_cases hg : g' = g
    · rw [hg, ht.group]
      exact hstage
    · rw [ht.others hg]
      exact (h.stage g').imp_right fun ⟨t, ht, htaken⟩ => ⟨t, hon g' t ht, htaken⟩

namespace Consistent

/-- A group of which something is known has an id that was given out. -/
theorem issued_of_ne_free (h : o.Consistent reservedOn) {g : Nat} (hg : o.holding g ≠ .free) :
    max g o.paths.lastGroupId = o.paths.lastGroupId := by
  have hle : g ≤ o.paths.lastGroupId := by
    apply Nat.le_of_not_lt
    intro hlt
    exact hg (h.fresh g hlt)
  omega

end Consistent

/-! ## Reserving -/

/-- An id that was just given out can be handed back without a trace. -/
theorem releaseGroup_issueGroup (s : PathStore) :
    s.issueGroup.2.releaseGroup s.issueGroup.1 = s := by
  simp [PathStore.issueGroup, PathStore.releaseGroup, PathStore.canReleaseGroup]

/-- The numbered paths of a candidate are unsubmitted legs of the group and need what was demanded for
them. -/
theorem reserved_of_demand {t : Topology} {c : Candidate} {ids : List Int} {d : Demand}
    (names : List String) (hids : ids ≠ []) (hlength : ids.length = c.offers.length)
    (hd : c.demand t ids = .ok d) (last group : Nat) :
    (∀ p ∈ PathStore.numbered last (c.paths group ids names d.signals), p.group = group) ∧
      Holding.Reserved t
        ⟨PathStore.numbered last (c.paths group ids names d.signals), d.resources, none⟩ := by
  have hmem : ∀ p ∈ PathStore.numbered last (c.paths group ids names d.signals),
      p.group = group ∧ p.submitted = false := by
    intro p hp
    have hmap := PathStore.map_numbered (f := fun p => (p.group, p.submitted)) (by intros; rfl) last
      (c.paths group ids names d.signals)
    obtain ⟨q, hq, hqp⟩ := List.mem_map.1 (hmap ▸ List.mem_map_of_mem hp)
    obtain ⟨hgroup, hsubmitted⟩ := Prod.mk.inj hqp
    have hfields := Candidate.mem_paths hq
    exact ⟨hgroup.symm.trans hfields.1, hsubmitted.symm.trans hfields.2⟩
  refine ⟨fun p hp => (hmem p hp).1, ⟨?_, ?_⟩, fun p hp => (hmem p hp).2, rfl⟩
  · intro hnil
    -- there are as many legs as frequency ids
    have hmap := PathStore.map_numbered (f := WavelengthPath.label) (by intros; rfl) last
      (c.paths group ids names d.signals)
    have hlen := congrArg List.length hmap
    rw [List.length_map, List.length_map, Candidate.length_paths hd group hlength,
      show PathStore.numbered last _ = [] from hnil] at hlen
    exact hids (List.length_eq_zero_iff.1 hlen.symm)
  · show d.resources = _
    rw [← Candidate.demand_resources hd group names, List.flatMap_def, List.flatMap_def,
      PathStore.map_numbered (f := WavelengthPath.resources t) (by intros; rfl)]

/-- A demand that is refused leaves no trace, and one that is granted is held by a new group. -/
theorem Consistent.reserveDemand_cases (h : o.Consistent reservedOn) {c : Candidate}
    {ids : List Int} (names : List String) {d : Demand} (hids : ids ≠ [])
    (hlength : ids.length = c.offers.length) (hd : c.demand o.topology ids = .ok d) :
    (∃ f, o.reserveDemand Ledger.allocate c ids names d = ⟨o, .error f⟩) ∨
      ∃ held o', o.reserveDemand Ledger.allocate c ids names d = ⟨o', .ok held.legs⟩ ∧
        (∀ p ∈ held.legs, p.group = o.paths.lastGroupId + 1) ∧ held.Reserved o.topology ∧
        o.Touches (o.paths.lastGroupId + 1) held o' := by
  -- the new group is free, so that nothing stale has to be given back for it
  have hfree := h.fresh (o.paths.lastGroupId + 1) (Nat.lt_succ_self _)
  have hunheld : o.ledger.allocations (intentKey (o.paths.lastGroupId + 1)) = [] :=
    congrArg Holding.resources hfree
  have hrelease := h.exact.release_eq_self hunheld
  cases hl : o.ledger.allocate (intentKey (o.paths.lastGroupId + 1)) d.resources with
  | error f =>
    refine .inl ⟨.reservationRefused, ?_⟩
    have hback := releaseGroup_issueGroup o.paths
    simp only [PathStore.issueGroup] at hback
    simp only [reserveDemand, PathStore.issueGroup, hrelease, hl, hback]
  | ok ledger =>
    have hissue : o.paths.issueGroup.2.Coherent :=
      ⟨h.coherent.keyed, h.coherent.bounded, h.coherent.grouped⟩
    obtain ⟨s, hput, hcoherent, hlist, hlast⟩ :=
      hissue.putAll (c.paths (o.paths.lastGroupId + 1) ids names d.signals)
    obtain ⟨hgroup, hreserved⟩ := reserved_of_demand names hids hlength hd
      o.paths.issueGroup.2.lastPathId (o.paths.lastGroupId + 1)
    generalize PathStore.numbered _ _ = stored at hput hlist hgroup hreserved
    have hrun : o.reserveDemand Ledger.allocate c ids names d =
        ⟨{ o with ledger, paths := s, log := o.log ++ stored.map (PathStore.additionOf stored) },
          .ok stored⟩ := by
      simp only [PathStore.issueGroup] at hput
      simp only [reserveDemand, PathStore.issueGroup, hrelease, hl, PathStore.add, hput]
    refine .inr ⟨⟨stored, d.resources, none⟩, _, hrun, hgroup, hreserved, hcoherent,
      h.exact.allocate hl, rfl, ?_, ?_, fun key => ?_, fun key => ?_⟩
    · exact hlast.trans (Nat.max_eq_left (Nat.le_succ _)).symm
    · exact PathStore.legs_of_toList_append hlist (congrArg Holding.legs hfree) hgroup
    · split
      next hkey => rw [hkey, h.exact.allocations_allocate hunheld hl]
      next hkey => exact Ledger.allocations_allocate_of_ne hkey hl
    · split
      next hkey => rw [hkey]; exact congrArg Holding.intent hfree
      next => rfl

/-- Reserving fails without a trace, or gives a new group what its legs need. -/
theorem Consistent.reserve_cases (h : o.Consistent reservedOn) (index : Nat) (ids : List Int)
    (names : List String) :
    (∃ f, o.reserve index ids names = ⟨o, .error f⟩) ∨
      ∃ held o', o.reserve index ids names = ⟨o', .ok held.legs⟩ ∧
        (∀ p ∈ held.legs, p.group = o.paths.lastGroupId + 1) ∧ held.Reserved o.topology ∧
        o.Touches (o.paths.lastGroupId + 1) held o' := by
  cases hc : Candidate.choose o.candidates index ids names with
  | error f => exact .inl ⟨f, by simp only [reserve, reserveBy, hc]⟩
  | ok c =>
    obtain ⟨hids, hlength⟩ := Candidate.offers_of_choose hc
    cases hd : c.demand o.topology ids with
    | error f => exact .inl ⟨f, by simp only [reserve, reserveBy, hc, hd]⟩
    | ok d =>
      have hrun : o.reserve index ids names = o.reserveDemand Ledger.allocate c ids names d := by
        simp only [reserve, reserveBy, hc, hd]
      rw [hrun]
      exact h.reserveDemand_cases names hids hlength hd

/-! ## Submitting -/

/-- An intent under a new key is entered. -/
theorem submit_of_find?_eq_none {b : IntentBook} {i : Intent}
    (h : b.entries.find? i.key = none) :
    ∃ b' events state, b.submit i = .ok (b', events) ∧
      (state = .installed ∨ state = .installRequested) ∧
      b'.entries = b.entries.insert i.key (i, state) := by
  have hnew : b.entries.contains i.key = false := by
    unfold SortedMap.contains
    rw [h]
    rfl
  unfold IntentBook.submit
  rw [hnew]
  cases hauto : b.autoInstall with
  | true => exact ⟨_, _, .installed, rfl, .inl rfl, rfl⟩
  | false => exact ⟨_, _, .installRequested, rfl, .inr rfl, rfl⟩

/-- Submitting fails without a trace, or marks the legs of a reserved group and enters its intent. -/
theorem Consistent.submit_cases (h : o.Consistent reservedOn) (g : Nat) :
    (∃ f, o.submit g = ⟨o, .error f⟩) ∨
      ∃ t held o', o.submit g = ⟨o', .ok held.legs⟩ ∧ reservedOn g t ∧
        (o.holding g).Reserved t ∧ held.Submitted t g ∧
        held.legs = (o.paths.legs g).map WavelengthPath.markSubmitted ∧
        held.resources = o.ledger.allocations (intentKey g) ∧ o.Touches g held o' := by
  have hfound := h.coherent.getGroup_eq_legs g
  by_cases hnil : o.paths.legs g = []
  · exact .inl ⟨.unknownSubmission g, by simp only [submit, hfound, hnil, List.isEmpty_nil, if_true]⟩
  have hempty : (o.paths.legs g).isEmpty = false := by simpa using hnil
  by_cases hany : (o.paths.legs g).any WavelengthPath.submitted = true
  · refine .inl ⟨.alreadySubmitted, ?_⟩
    simp only [submit, hfound, hempty, hany, Bool.false_eq_true, if_false, if_true]
  -- a group with legs of which none is submitted is reserved
  have hne : o.holding g ≠ .free := fun hfree => hnil (congrArg Holding.legs hfree)
  obtain ⟨t, hon, hreserved | hsubmitted⟩ := (h.stage g).resolve_left hne
  · obtain ⟨b, events, state, henter, hstate, hentries⟩ :=
      submit_of_find?_eq_none (i := o.intentFor g (o.paths.legs g)) hreserved.intent
    obtain ⟨s, updates, hmark, hcoherent, hlegs, hlast⟩ :=
      h.coherent.updateGroup (f := WavelengthPath.markSubmitted) (fun _ => rfl)
        (fun _ => rfl) g
    have hrun : o.submit g = ⟨{ o with intents := b, paths := s, log := o.log ++ updates },
        .ok ((o.paths.legs g).map WavelengthPath.markSubmitted)⟩ := by
      simp only [submit, hfound, hempty, hany, Bool.false_eq_true, if_false, henter, hmark]
      rfl
    refine .inr ⟨t, ⟨(o.paths.legs g).map WavelengthPath.markSubmitted,
      o.ledger.allocations (intentKey g), some (o.intentFor g (o.paths.legs g), state)⟩, _, hrun, hon,
      hreserved, ⟨⟨?_, ?_⟩, ?_, state, hstate, ?_⟩, rfl, rfl, hcoherent, h.exact, rfl, ?_, hlegs,
      fun key => ?_, fun key => ?_⟩
    · simpa using hnil
    · rw [List.flatMap_map]
      exact hreserved.resources
    · intro p hp
      obtain ⟨q, -, rfl⟩ := List.mem_map.1 hp
      rfl
    · rw [List.map_map]
      rfl
    · exact hlast.trans (h.issued_of_ne_free hne).symm
    · split
      next hkey => rw [hkey]
      next => rfl
    · rw [hentries]
      exact SortedMap.find?_insert ..
  · obtain ⟨p, rest, hlegs⟩ := List.exists_cons_of_ne_nil hnil
    have hp : p.submitted = true := hsubmitted.submitted p (by simp [holding, hlegs])
    exact absurd (by simp [hlegs, hp]) hany

/-! ## Installing and withdrawing -/

/-- Whose intent a known key is: that of a submitted group. -/
theorem Consistent.submitted_of_find? (h : o.Consistent reservedOn) {key : IntentKey} {i : Intent}
    {state : IntentState} (hkey : o.intents.entries.find? key = some (i, state)) :
    ∃ g t, key = intentKey g ∧ reservedOn g t ∧ (o.holding g).Submitted t g ∧ i.group = g := by
  obtain ⟨g, rfl⟩ := h.named key (by simp [hkey])
  have hintent : (o.holding g).intent = some (i, state) := hkey
  have hne : o.holding g ≠ .free := fun hfree => by
    rw [hfree] at hintent
    cases hintent
  obtain ⟨t, hon, hreserved | hsubmitted⟩ := (h.stage g).resolve_left hne
  · rw [hreserved.intent] at hintent
    cases hintent
  · obtain ⟨state', -, heq⟩ := hsubmitted.intent
    rw [hintent] at heq
    cases heq
    exact ⟨g, t, rfl, hon, hsubmitted, rfl⟩

theorem ready_eq_ok_iff {b : IntentBook} {key : IntentKey} {states : List IntentState}
    {target : IntentState} {i : Intent} :
    b.ready key states target = .ok i ↔ ∃ state ∈ states, b.entries.find? key = some (i, state) := by
  unfold IntentBook.ready
  split
  next hnone => simp [hnone]
  next i' state hsome =>
    rw [hsome]
    split
    next hmem =>
      constructor
      · intro heq
        cases heq
        exact ⟨state, hmem, rfl⟩
      · rintro ⟨state', -, heq⟩
        cases heq
        rfl
    next hmem =>
      refine iff_of_false (by simp) ?_
      rintro ⟨state', hstate', heq⟩
      cases heq
      exact hmem hstate'

/-- Installing fails without a trace, or moves the intent of a submitted group on. -/
theorem Consistent.install_cases (h : o.Consistent reservedOn) (key : IntentKey) :
    (∃ f, o.install key = ⟨o, .error f⟩) ∨
      ∃ g t i o', o.install key = ⟨o', .ok ()⟩ ∧ key = intentKey g ∧ reservedOn g t ∧
        (o.holding g).Submitted t g ∧ (o.holding g).intent = some (i, .installRequested) ∧
        o.Touches g { o.holding g with intent := some (i, .installed) } o' := by
  cases hready : o.intents.ready key [.installRequested] .installed with
  | error f => exact .inl ⟨f, by simp only [install, IntentBook.install, hready]⟩
  | ok i =>
    obtain ⟨state, hstate, hkey⟩ := ready_eq_ok_iff.1 hready
    rw [List.mem_singleton] at hstate
    subst hstate
    obtain ⟨g, t, rfl, hon, hsubmitted, -⟩ := h.submitted_of_find? hkey
    refine .inr ⟨g, t, i, { o with intents := { o.intents with
        entries := o.intents.entries.insert (intentKey g) (i, .installed) } }, ?_, rfl, hon,
      hsubmitted, hkey, h.coherent, h.exact, rfl, ?_, fun g' => ?_, fun key => ?_, fun key => ?_⟩
    · simp only [install, IntentBook.install, hready]
    · exact (h.issued_of_ne_free (Holding.Taken.ne_free (.inr hsubmitted))).symm
    · split
      next hg => rw [hg]; rfl
      next => rfl
    · split
      next hk => rw [hk]; rfl
      next => rfl
    · exact SortedMap.find?_insert ..

/-- Deleting the paths of a group whose key holds nothing and has no intent frees the group. -/
theorem Consistent.touches_dropGroup (h : o.Consistent reservedOn) {g : Nat} {b : IntentBook}
    (hissued : max g o.paths.lastGroupId = o.paths.lastGroupId)
    (hb : ∀ key, b.entries.find? key =
      if key = intentKey g then none else o.intents.entries.find? key) :
    o.Touches g .free
      ({ o with intents := b, ledger := o.ledger.release (intentKey g) }.dropGroup g) := by
  obtain ⟨hcoherent, hlegs, hlast⟩ := h.coherent.removeGroup g
  exact ⟨hcoherent, h.exact.release _, rfl, hlast.trans hissued.symm, hlegs,
    fun key => Ledger.allocations_release .., hb⟩

/-- Withdrawing fails without a trace, or frees a submitted group. -/
theorem Consistent.withdraw_cases (h : o.Consistent reservedOn) (key : IntentKey) :
    (∃ f, o.withdraw key = ⟨o, .error f⟩) ∨
      ∃ g t o', o.withdraw key = ⟨o', .ok ()⟩ ∧ key = intentKey g ∧
        (o.holding g).Submitted t g ∧ o.Touches g .free o' := by
  cases hready : o.intents.ready key [.installed, .failed] .withdrawRequested with
  | error f => exact .inl ⟨f, by simp only [withdraw, IntentBook.withdraw, hready]⟩
  | ok i =>
    obtain ⟨state, -, hkey⟩ := ready_eq_ok_iff.1 hready
    obtain ⟨g, t, rfl, -, hsubmitted, hgroup⟩ := h.submitted_of_find? hkey
    have hissued := h.issued_of_ne_free (Holding.Taken.ne_free (.inr hsubmitted))
    have htouches := h.touches_dropGroup hissued
      (b := { o.intents with entries := o.intents.entries.erase (intentKey g) })
      fun key => SortedMap.find?_erase ..
    refine .inr ⟨g, t, _, ?_, rfl, hsubmitted, htouches⟩
    -- of the two events only the last one says that the intent is withdrawn
    have hevents : [IntentEvent.mk .withdrawRequested i, ⟨.withdrawn, i⟩].filter
        (fun e => e.state == .withdrawn) = [⟨.withdrawn, i⟩] := rfl
    simp only [withdraw, IntentBook.withdraw, hready, hevents, List.foldl_cons, List.foldl_nil, hgroup]

/-! ## Removing -/

/-- Removing a group fails without a trace, or frees the group and gives back its paths. -/
theorem Consistent.remove_cases (h : o.Consistent reservedOn) (g : Nat) :
    (∃ f, o.remove g = ⟨o, .error f⟩) ∨
      ∃ o', o.remove g = ⟨o', .ok (o.paths.legs g)⟩ ∧ o.holding g ≠ .free ∧
        o.Touches g .free o' := by
  have hfound := h.coherent.getGroup_eq_legs g
  by_cases hnil : o.paths.legs g = []
  · exact .inl ⟨.unknownRemoval g, by simp only [remove, hfound, hnil, List.isEmpty_nil, if_true]⟩
  have hempty : (o.paths.legs g).isEmpty = false := by simpa using hnil
  have hne : o.holding g ≠ .free := fun hfree => hnil (congrArg Holding.legs hfree)
  have hissued := h.issued_of_ne_free hne
  cases hstate : o.intents.state? (intentKey g) with
  | none =>
    have hnone : o.intents.entries.find? (intentKey g) = none := Option.map_eq_none_iff.1 hstate
    have htouches := h.touches_dropGroup hissued (b := o.intents) fun key => by
      split
      next hkey => rw [hkey, hnone]
      next => rfl
    refine .inr ⟨_, ?_, hne, htouches⟩
    simp only [remove, hfound, hempty, hstate, Bool.false_eq_true, if_false]
  | some state =>
    by_cases hinstalled : state = .installed
    · subst hinstalled
      have hrun : o.remove g = ⟨(o.withdraw (intentKey g)).optimizer,
          (o.withdraw (intentKey g)).result.map fun _ => o.paths.legs g⟩ := by
        simp only [remove, hfound, hempty, hstate, Bool.false_eq_true, if_false]
      rw [hrun]
      rcases h.withdraw_cases (intentKey g) with ⟨f, hf⟩ | ⟨g', t, o', hok, hkey, -, htouches⟩
      · rw [hf]
        exact .inl ⟨f, rfl⟩
      · rw [hok, intentKey_injective hkey]
        exact .inr ⟨o', rfl, intentKey_injective hkey ▸ hne, htouches⟩
    · refine .inl ⟨.notInstalled state, ?_⟩
      simp only [remove, hfound, hempty, hstate, Bool.false_eq_true, if_false]

end Optimizer

end Lightpath

import Lightpath.Proofs.Resource.Ownership
import Lightpath.Proofs.Signal.Channels
import Lightpath.Proofs.Wavelength.Candidates
import Lightpath.Proofs.Wdm.Catalog
import Lightpath.Wavelength.Assignment
import Lightpath.Wavelength.Reservation

/-!
# Offers — what planning checks and what a reservation asks for

Planning collapses the slots that are free on every hop to channels; a reservation expands the chosen
channel again and asks for its slots hop by hop. On a ledger that registers slots of the flex grid only
(`Ledger.OnFlexGrid`), everything that is asked for is free (`Outlook.Checked.slots_free`). It is asked
for once exactly if the route meets no port with spectrum twice (`nodup_request_iff`): planning does not
check that.
-/

namespace Lightpath

/-! ## Free slots -/

namespace Ledger

variable {l : Ledger}

/-- Every slot that exists on a port is a slot of the flex grid. -/
def OnFlexGrid (l : Ledger) : Prop :=
  ∀ cp, ∀ slot ∈ l.registered cp, slot.IsFlexSlot

theorem mem_foldl_inter {cps : List ConnectPoint} {common : SortedSet Signal} {slot : Signal} :
    slot ∈ cps.foldl (fun common cp => common.inter (l.availableLambdas cp)) common ↔
      slot ∈ common ∧ ∀ cp ∈ cps, l.isAvailable (.lambda cp slot) = true := by
  induction cps generalizing common with
  | nil => simp
  | cons cp rest ih =>
    rw [List.foldl_cons, ih, SortedSet.mem_inter, mem_availableLambdas, List.forall_mem_cons, and_assoc]

/-- The common slots of some ports are those that are available on each of them. -/
theorem mem_commonLambdas {cps : List ConnectPoint} {slot : Signal} :
    slot ∈ l.commonLambdas cps ↔
      cps ≠ [] ∧ ∀ cp ∈ cps, l.isAvailable (.lambda cp slot) = true := by
  cases cps with
  | nil => exact iff_of_false SortedSet.not_mem_empty fun h => h.1 rfl
  | cons cp rest =>
    show slot ∈ rest.foldl _ (l.availableLambdas cp) ↔ _
    rw [mem_foldl_inter, mem_availableLambdas, List.forall_mem_cons]
    exact ⟨fun h => ⟨List.cons_ne_nil cp rest, h⟩, fun h => h.2⟩

/-! ## Registered slots -/

theorem onFlexGrid_empty : ({} : Ledger).OnFlexGrid := fun _ _ h => absurd h SortedSet.not_mem_empty

theorem OnFlexGrid.registerLambdas (h : l.OnFlexGrid) (cp : ConnectPoint) {slots : List Signal}
    (hslots : ∀ slot ∈ slots, slot.IsFlexSlot) : (l.registerLambdas cp slots).OnFlexGrid := by
  intro cp' slot hslot
  rcases Ledger.mem_registered_registerLambdas.1 hslot with hold | ⟨-, hnew⟩
  · exact h cp' slot hold
  · exact hslots slot hnew

theorem isFlexSlot_of_mem_spectrumSlots (s : Spectrum) :
    ∀ slot ∈ spectrumSlots s, slot.IsFlexSlot := by
  intro slot hslot
  obtain ⟨m, -, hm⟩ := List.mem_flatMap.1 hslot
  exact Signal.isFlexSlot_of_mem_flexSlots hm

/-- Registering a spectrum registers slots of the flex grid. -/
theorem OnFlexGrid.registerSpectrum (h : l.OnFlexGrid) (t : Topology) (s : Spectrum) :
    (l.registerSpectrum t s).OnFlexGrid := by
  unfold Ledger.registerSpectrum
  generalize Ledger.lambdaPorts t = ports
  induction ports generalizing l with
  | nil => exact h
  | cons cp rest ih => exact ih (h.registerLambdas cp (isFlexSlot_of_mem_spectrumSlots s))

/-- The slots that are free on some ports in common lie on the flex grid. -/
theorem OnFlexGrid.commonLambdas (h : l.OnFlexGrid) (cps : List ConnectPoint) :
    ∀ slot ∈ (l.commonLambdas cps).toList, slot.IsFlexSlot := by
  intro slot hslot
  obtain ⟨hne, hall⟩ := mem_commonLambdas.1 (SortedSet.mem_def.2 hslot)
  obtain ⟨cp, hcp⟩ := List.exists_mem_of_ne_nil _ hne
  exact h cp slot (isAvailable_lambda_iff.1 (hall cp hcp)).1

end Ledger

/-! ## Offered frequencies -/

namespace FrequencyPlan

variable {plan : FrequencyPlan} {id : Int}

/-- No two channels of 50 GHz have the same id: adding a word is injective on words. -/
theorem channelId_injective {m m' : Int} (hm : IsWord m) (hm' : IsWord m')
    (h : plan.channelId (.dwdm .ghz50 m) = .ok id)
    (h' : plan.channelId (.dwdm .ghz50 m') = .ok id) : m = m' := by
  have hid : plan.idOf m = id := Except.ok.inj h
  have hid' : plan.idOf m' = id := Except.ok.inj h'
  have hdvd : 4294967296 ∣ m + plan.idDelta - (m' + plan.idDelta) :=
    word_eq_word_iff.1 (hid.trans hid'.symm)
  unfold IsWord at hm hm'
  omega

/-- The offered frequencies are the positive ids of the channels that are made of the slots. -/
theorem find?_offered {slots : SortedSet Signal} {s : Signal} :
    (plan.offered slots).find? id = some s ↔
      s ∈ Signal.channelsOf slots.toList .ghz50 ∧ plan.channelId s = .ok id ∧ 0 < id := by
  obtain ⟨entries, hoffered, hentry⟩ : ∃ entries : List (Int × Signal),
      plan.offered slots = SortedMap.ofList entries ∧ ∀ id s, (id, s) ∈ entries ↔
        s ∈ Signal.channelsOf slots.toList .ghz50 ∧ plan.channelId s = .ok id ∧ 0 < id := by
    refine ⟨_, rfl, ?_⟩
    intro id s
    rw [List.mem_filterMap]
    constructor
    · rintro ⟨c, hc, hsome⟩
      split at hsome
      next hid =>
        split at hsome
        next hpos =>
          cases hsome
          exact ⟨hc, hid, hpos⟩
        next => cases hsome
      next => cases hsome
    · rintro ⟨hs, hid, hpos⟩
      exact ⟨s, hs, by rw [hid]; exact if_pos hpos⟩
  rw [hoffered]
  constructor
  · intro h
    exact (hentry id s).1 (SortedMap.mem_of_find?_ofList h)
  · intro h
    refine SortedMap.find?_ofList_of_mem ((hentry id s).2 h) ?_
    -- a second channel with the id would be the same one
    intro c hc
    obtain ⟨hc, hcid, -⟩ := (hentry id c).1 hc
    obtain ⟨-, -, m, hm, rfl, -⟩ := Signal.mem_channelsOf.1 h.1
    obtain ⟨-, -, m', hm', rfl, -⟩ := Signal.mem_channelsOf.1 hc
    rw [channelId_injective hm'.isWord hm.isWord hcid h.2.1]

end FrequencyPlan

/-! ## What is offered -/

namespace Outlook

variable {o : Outlook} {e : Ends} {x : Offer} {ingressEdge egressEdge : Link} {d : Device}
  {p : WdmPath}

/-- The slots that are free along a route. -/
def freeSlots (o : Outlook) (r : Route) : SortedSet Signal :=
  o.ledger.commonLambdas (o.topology.lambdaHops r)

/-- A path gives an offer if it has a way back, a slot is free along it and a mode can be chosen. -/
theorem offer?_eq_some_iff : o.offer? ingressEdge egressEdge d p = some x ↔
    ∃ back, o.catalog.getReverse? p = some back ∧ (o.freeSlots p.route).isEmpty = false ∧
      ∃ mode v, o.quality.chooseMode? d p.osnr back.osnr = some (mode, v) ∧
        x = ⟨⟨ingressEdge, egressEdge, p.route, mode, v⟩,
          o.frequencies.offered (o.freeSlots p.route)⟩ := by
  unfold offer?
  cases o.catalog.getReverse? p with
  | none => simp
  | some back =>
    simp only [freeSlots, Option.some.injEq, exists_eq_left']
    split
    next h => simp [h]
    next h =>
      rw [Option.map_eq_some_iff]
      constructor
      · rintro ⟨⟨mode, v⟩, hchoice, rfl⟩
        exact ⟨Bool.not_eq_true _ ▸ h, mode, v, hchoice, rfl⟩
      · rintro ⟨-, mode, v, hchoice, rfl⟩
        exact ⟨(mode, v), hchoice, rfl⟩

/-- What planning makes sure of for an offer between two transponder ports. -/
structure Checked (o : Outlook) (e : Ends) (x : Offer) : Prop where
  src : x.leg.src = e.src
  dst : x.leg.dst = e.dst
  /-- Nobody holds one of the boundary ports. -/
  ports : ∀ cp ∈ x.leg.boundary, o.ledger.isAvailable (.port cp) = true
  /-- The frequencies are those of the slots that are free on every hop. -/
  signals : x.signals =
    o.frequencies.offered (o.ledger.commonLambdas (o.topology.lambdaHops x.leg.route))
  /-- The route is that of a computed path from the add port to the drop port. -/
  path : ∃ p ∈ o.catalog.getPaths (some x.leg.addPort) (some x.leg.dropPort),
    x.leg.route = p.route

theorem onlyActive_eq_ok_iff {links : List Link} {cp : ConnectPoint} {l : Link} :
    onlyActive links cp = .ok l ↔ links.filter Link.isActive = [l] := by
  unfold onlyActive
  constructor
  · intro h
    split at h
    next found hfound =>
      cases h
      exact hfound
    next => cases h
  · intro h
    rw [h]

/-- The edges of a pair of ports are the only active links out of the source port and into the
destination port. -/
structure HasEdges (o : Outlook) (e : Ends) (ingressEdge egressEdge : Link) : Prop where
  ingress : (o.topology.egressLinks e.src).filter Link.isActive = [ingressEdge]
  egress : (o.topology.ingressLinks e.dst).filter Link.isActive = [egressEdge]

theorem edges_eq_ok (h : o.edges e = .ok (ingressEdge, egressEdge)) :
    o.HasEdges e ingressEdge egressEdge := by
  unfold edges at h
  split at h
  next => cases h
  next hingress =>
    split at h
    next => cases h
    next hegress =>
      cases h
      exact ⟨onlyActive_eq_ok_iff.1 hingress, onlyActive_eq_ok_iff.1 hegress⟩

/-- The ingress edge starts at the source port. -/
theorem HasEdges.src (h : o.HasEdges e ingressEdge egressEdge) : ingressEdge.src = e.src := by
  have hmem : ingressEdge ∈ (o.topology.egressLinks e.src).filter Link.isActive := by
    rw [h.ingress]
    exact List.mem_singleton_self ingressEdge
  exact beq_iff_eq.1 (List.mem_filter.1 (List.mem_filter.1 hmem).1).2

/-- The egress edge ends at the destination port. -/
theorem HasEdges.dst (h : o.HasEdges e ingressEdge egressEdge) : egressEdge.dst = e.dst := by
  have hmem : egressEdge ∈ (o.topology.ingressLinks e.dst).filter Link.isActive := by
    rw [h.egress]
    exact List.mem_singleton_self egressEdge
  exact beq_iff_eq.1 (List.mem_filter.1 (List.mem_filter.1 hmem).1).2

/-- Nobody holds a port of the edges if there is a device to receive over them. -/
theorem receiver_eq_ok (h : o.receiver ingressEdge egressEdge = .ok d) :
    (∀ cp ∈ [ingressEdge.src, ingressEdge.dst, egressEdge.src, egressEdge.dst],
      o.ledger.isAvailable (.port cp) = true) ∧
      o.topology.device? egressEdge.dst.device = some d := by
  unfold receiver at h
  simp only at h
  split at h
  next => cases h
  next hnone =>
    split at h
    next => cases h
    next hdevice =>
      cases h
      refine ⟨fun cp hcp => ?_, hdevice⟩
      simpa using List.find?_eq_none.1 hnone cp hcp

/-- The offers between two ports are those of the paths between the add and the drop port of the edges,
in the order of the catalog. -/
theorem offers_eq_ok {found : List Offer} (h : o.offers e = .ok found) :
    ∃ ingressEdge egressEdge d, o.edges e = .ok (ingressEdge, egressEdge) ∧
      o.receiver ingressEdge egressEdge = .ok d ∧
      found = (o.catalog.getPaths (some ingressEdge.dst) (some egressEdge.src)).filterMap
        (o.offer? ingressEdge egressEdge d) := by
  unfold offers at h
  split at h
  next => cases h
  next ingressEdge egressEdge hedges =>
    split at h
    next => cases h
    next d hreceiver =>
      simp only at h
      split at h
      next => cases h
      next =>
        cases h
        exact ⟨ingressEdge, egressEdge, d, hedges, hreceiver, rfl⟩

theorem checked_of_mem_offers {found : List Offer} (h : o.offers e = .ok found) (hx : x ∈ found) :
    o.Checked e x := by
  obtain ⟨ingressEdge, egressEdge, d, hedges, hreceiver, rfl⟩ := offers_eq_ok h
  obtain ⟨p, hp, hoffer⟩ := List.mem_filterMap.1 hx
  obtain ⟨back, -, -, mode, v, -, rfl⟩ := offer?_eq_some_iff.1 hoffer
  constructor
  case src => exact (edges_eq_ok hedges).src
  case dst => exact (edges_eq_ok hedges).dst
  case ports =>
    -- the same four ports in another order
    intro cp hcp
    apply (receiver_eq_ok hreceiver).1
    simp only [Leg.boundary, Leg.src, Leg.dst, Leg.addPort, Leg.dropPort, List.mem_cons,
      List.not_mem_nil, or_false] at hcp ⊢
    tauto
  case signals => rfl
  case path => exact ⟨p, hp, rfl⟩

/-- The path of a checked offer runs between its add and its drop port. -/
theorem Checked.exists_path (h : o.Checked e x) (hcoherent : o.catalog.Coherent) :
    ∃ p ∈ o.catalog.toList, p.ends = ⟨x.leg.addPort, x.leg.dropPort⟩ ∧ x.leg.route = p.route := by
  obtain ⟨p, hp, hroute⟩ := h.path
  rw [hcoherent.getPaths_eq, List.mem_filter] at hp
  exact ⟨p, hp.1, WdmPath.runs_pair_iff.1 hp.2, hroute⟩

/-- One pair of ports has its offers as single candidates, two pairs have theirs as pairs. -/
theorem candidates_cases {ends : List Ends} {candidates : List Candidate}
    (h : o.candidates ends = .ok candidates) :
    (∃ e found, ends = [e] ∧ o.offers e = .ok found ∧ candidates = Offer.singles found) ∨
      ∃ main tributary mains tributaries, ends = [main, tributary] ∧ o.offers main = .ok mains ∧
        o.offers tributary = .ok tributaries ∧ candidates = Offer.pairs mains tributaries := by
  unfold Outlook.candidates at h
  split at h
  next e =>
    split at h
    next => cases h
    next found hfound =>
      cases h
      exact .inl ⟨e, found, rfl, hfound, rfl⟩
  next main tributary =>
    split at h
    next => cases h
    next mains hmains =>
      split at h
      next => cases h
      next tributaries htributaries =>
        cases h
        exact .inr ⟨main, tributary, mains, tributaries, rfl, hmains, htributaries, rfl⟩
  next => cases h

/-- Every offer of a candidate is one between some pair of ports. -/
theorem mem_offers_of_candidates {ends : List Ends} {candidates : List Candidate}
    (h : o.candidates ends = .ok candidates) {c : Candidate} (hc : c ∈ candidates)
    (hx : x ∈ c.offers) : ∃ e found, e ∈ ends ∧ o.offers e = .ok found ∧ x ∈ found := by
  rcases candidates_cases h with ⟨e, found, rfl, hfound, rfl⟩ |
    ⟨main, tributary, mains, tributaries, rfl, hmains, htributaries, rfl⟩
  · obtain ⟨y, hy, rfl⟩ := Offer.mem_singles.1 hc
    obtain rfl := List.mem_singleton.1 hx
    exact ⟨e, found, List.mem_cons_self, hfound, hy⟩
  · obtain ⟨m, hm, t, ht, -, rfl⟩ := Offer.mem_pairs.1 hc
    simp only [Candidate.offers, List.mem_cons, List.not_mem_nil, or_false] at hx
    rcases hx with rfl | rfl
    · exact ⟨main, mains, List.mem_cons_self, hmains, hm⟩
    · exact ⟨tributary, tributaries, by simp, htributaries, ht⟩

/-- Every candidate for one pair of ports is a single checked offer. -/
theorem checked_of_mem_candidates {candidates : List Candidate}
    (h : o.candidates [e] = .ok candidates) {c : Candidate} (hc : c ∈ candidates) :
    ∃ x, c = .single x ∧ o.Checked e x := by
  rcases candidates_cases h with ⟨e', found, heq, hfound, rfl⟩ | ⟨_, _, _, _, heq, -⟩
  · obtain rfl := List.singleton_inj.1 heq
    obtain ⟨x, hx, rfl⟩ := Offer.mem_singles.1 hc
    exact ⟨x, rfl, checked_of_mem_offers hfound hx⟩
  · cases heq

/-- Every slot of an offered channel is free on every hop. -/
theorem Checked.slots_free (h : o.Checked e x) (hgrid : o.ledger.OnFlexGrid) {id : Int} {s : Signal}
    (hs : x.signals.find? id = some s) :
    ∀ r ∈ o.topology.lambdaResources x.leg.route s, o.ledger.isAvailable r = true := by
  rw [h.signals, FrequencyPlan.find?_offered] at hs
  obtain ⟨m, -, -, hall⟩ := (Signal.mem_channelsOf_iff (hgrid.commonLambdas _)).1 hs.1
  intro r hr
  obtain ⟨cp, hcp, hr⟩ := List.mem_flatMap.1 hr
  obtain ⟨slot, hslot, rfl⟩ := List.mem_map.1 hr
  have hcommon := hall slot hslot
  exact (Ledger.mem_commonLambdas.1 (SortedSet.mem_def.2 hcommon)).2 cp hcp

end Outlook

/-! ## What is asked for -/

/-- The slots of a channel along a route are different exactly if the ports are. -/
theorem Topology.nodup_lambdaResources_iff {t : Topology} {r : Route} {s : Signal} :
    (t.lambdaResources r s).Nodup ↔ (t.lambdaHops r).Nodup := by
  obtain ⟨slot, hslot⟩ := List.exists_mem_of_ne_nil _ s.flexSlots_ne_nil
  have hport : ∀ cp : ConnectPoint, (s.flexSlots.map fun slot => Resource.lambda cp slot).Nodup :=
    fun cp => s.nodup_flexSlots.map fun _ _ h => (Resource.lambda.inj h).2
  unfold Topology.lambdaResources
  rw [List.nodup_flatMap]
  constructor
  · rintro ⟨-, hpairwise⟩
    refine hpairwise.imp ?_
    intro a b hdisjoint hab
    subst hab
    exact hdisjoint (List.mem_map_of_mem hslot) (List.mem_map_of_mem hslot)
  · intro hnodup
    refine ⟨fun cp _ => hport cp, hnodup.imp ?_⟩
    intro a b hab r hra hrb
    obtain ⟨_, -, rfl⟩ := List.mem_map.1 hra
    obtain ⟨_, -, heq⟩ := List.mem_map.1 hrb
    exact hab (Resource.lambda.inj heq).1.symm

namespace Offer

variable {t : Topology} {x : Offer} {s : Signal}

/-- What the reservation of an offer at a channel asks for. -/
def request (t : Topology) (x : Offer) (s : Signal) : List Resource :=
  x.leg.boundary.map .port ++ t.lambdaResources x.leg.route s

/-- Nothing is asked for twice exactly if the boundary ports are different and the route meets no port
with spectrum twice. -/
theorem nodup_request_iff :
    (x.request t s).Nodup ↔ x.leg.boundary.Nodup ∧ (t.lambdaHops x.leg.route).Nodup := by
  have hports : (x.leg.boundary.map Resource.port).Nodup ↔ x.leg.boundary.Nodup :=
    List.nodup_map_iff fun _ _ h => Resource.port.inj h
  unfold request
  rw [List.nodup_append, hports, Topology.nodup_lambdaResources_iff]
  constructor
  · exact fun h => ⟨h.1, h.2.1⟩
  · rintro ⟨hboundary, hhops⟩
    refine ⟨hboundary, hhops, ?_⟩
    -- a port is no slot
    intro a ha b hb hab
    obtain ⟨_, -, rfl⟩ := List.mem_map.1 ha
    obtain ⟨_, -, hb⟩ := List.mem_flatMap.1 hb
    obtain ⟨_, -, rfl⟩ := List.mem_map.1 hb
    exact nomatch hab

/-- An offer whose ports are enabled has a demand at an offered frequency exactly if its route meets no
port with spectrum twice. -/
theorem demand_single_iff {id : Int} (henabled : ∀ cp ∈ x.leg.boundary, t.isEnabled cp = true)
    (hs : x.signals.find? id = some s) {d : Demand} :
    (Candidate.single x).demand t [id] = .ok d ↔
      (t.lambdaHops x.leg.route).Nodup ∧ d = ⟨x.request t s, [s]⟩ := by
  have hports : x.leg.boundary.find? (fun cp => !t.isEnabled cp) = none := by
    rw [List.find?_eq_none]
    intro cp hcp
    rw [henabled cp hcp]
    decide
  rw [← Topology.nodup_lambdaResources_iff (s := s), ← firstRepeat?_eq_none_iff]
  simp only [Candidate.demand, Candidate.offers, List.zip_cons_cons, List.zip_nil_right, demands,
    demand, hports, hs]
  cases hrepeat : firstRepeatAfter? [] (t.lambdaResources x.leg.route s) with
  | some r => simp [firstRepeat?, hrepeat]
  | none => simp [firstRepeat?, hrepeat, request, eq_comm]

end Offer

end Lightpath

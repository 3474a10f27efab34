import Lightpath.Wavelength.Reservation

/-!
# Demands — what the paths of a candidate need

A demand that is computed for a candidate names exactly what the paths made from it need, path by
path (`demand_resources`).
-/

namespace Lightpath

/-- What a path needs: its boundary ports, then the slots of its channel on every hop that carries
spectrum in a topology. -/
def WavelengthPath.resources (t : Topology) (p : WavelengthPath) : List Resource :=
  p.leg.boundary.map .port ++ t.lambdaResources p.leg.route p.signal

/-- The demand of one offer names what the offer needs at a channel that it has. -/
theorem Offer.demand_eq_ok {t : Topology} {taken : List Resource} {o : Offer} {id : Int} {d : Demand}
    (h : o.demand t taken id = .ok d) :
    ∃ signal, o.signals.find? id = some signal ∧
      d = ⟨o.leg.boundary.map .port ++ t.lambdaResources o.leg.route signal, [signal]⟩ := by
  simp only [demand] at h
  split at h
  · cases h
  · split at h
    · cases h
    next signal hsignal =>
      split at h
      · cases h
      · cases h
        exact ⟨signal, hsignal, rfl⟩

/-- The demand of several offers is that of the first one and those of the others. -/
theorem Offer.demands_cons_eq_ok {t : Topology} {taken : List Resource} {o : Offer} {id : Int}
    {rest : List (Offer × Int)} {d : Demand} (h : Offer.demands t taken ((o, id) :: rest) = .ok d) :
    ∃ signal others, o.signals.find? id = some signal ∧
      Offer.demands t (taken ++ (o.leg.boundary.map .port ++ t.lambdaResources o.leg.route signal))
        rest = .ok others ∧
      d = ⟨o.leg.boundary.map .port ++ t.lambdaResources o.leg.route signal ++ others.resources,
        signal :: others.signals⟩ := by
  simp only [demands] at h
  split at h
  · cases h
  next own hown =>
    obtain ⟨signal, hsignal, rfl⟩ := demand_eq_ok hown
    split at h
    · cases h
    next others hothers =>
      cases h
      exact ⟨signal, others, hsignal, hothers, rfl⟩

/-- A computed demand has one channel per offer and names what each offer needs at its channel. -/
theorem Offer.demands_eq {t : Topology} {taken : List Resource} {chosen : List (Offer × Int)}
    {d : Demand} (h : Offer.demands t taken chosen = .ok d) :
    d.signals.length = chosen.length ∧
      d.resources = (chosen.zip d.signals).flatMap fun e =>
        e.1.1.leg.boundary.map .port ++ t.lambdaResources e.1.1.leg.route e.2 := by
  induction chosen generalizing taken d with
  | nil =>
    cases h
    exact ⟨rfl, rfl⟩
  | cons first rest ih =>
    obtain ⟨signal, others, -, hothers, rfl⟩ := demands_cons_eq_ok h
    obtain ⟨hlength, hresources⟩ := ih hothers
    refine ⟨by simp [hlength], ?_⟩
    show _ ++ others.resources = _
    rw [hresources]
    rfl

/-- Every channel of a demand is one that its offer has at the chosen frequency. -/
theorem Offer.mem_signals_of_demands {t : Topology} {taken : List Resource}
    {chosen : List (Offer × Int)} {d : Demand} (h : Offer.demands t taken chosen = .ok d) :
    ∀ s ∈ d.signals, ∃ e ∈ chosen, e.1.signals.find? e.2 = some s := by
  induction chosen generalizing taken d with
  | nil =>
    cases h
    exact fun _ hs => nomatch hs
  | cons first rest ih =>
    obtain ⟨signal, others, hsignal, hothers, rfl⟩ := demands_cons_eq_ok h
    intro s hs
    rcases List.mem_cons.1 hs with rfl | hs
    · exact ⟨first, List.mem_cons_self, hsignal⟩
    · obtain ⟨e, he, hfind⟩ := ih hothers s hs
      exact ⟨e, List.mem_cons_of_mem _ he, hfind⟩

namespace Candidate

/-- A chosen candidate comes with one frequency id for each of its offers, and with at least one. -/
theorem offers_of_choose {candidates : List Candidate} {index : Nat} {ids : List Int}
    {names : List String} {c : Candidate} (h : choose candidates index ids names = .ok c) :
    ids ≠ [] ∧ ids.length = c.offers.length := by
  unfold choose at h
  split at h
  · cases h
  · split at h
    · cases h
    · split at h
      · cases h
      next hids =>
        split at h
        · cases h
        · split at h
          · cases h
          next hlength =>
            cases h
            exact ⟨by simpa using hids, Decidable.not_not.1 hlength⟩

/-- A candidate is chosen by its number, counted from 1. -/
theorem getElem?_of_choose {candidates : List Candidate} {index : Nat} {ids : List Int}
    {names : List String} {c : Candidate} (h : choose candidates index ids names = .ok c) :
    index ≠ 0 ∧ candidates[index - 1]? = some c := by
  unfold choose at h
  split at h
  next => cases h
  next =>
    split at h
    next => cases h
    next found hfound =>
      have hplace : index ≠ 0 ∧ candidates[index - 1]? = some found := by
        split at hfound
        next => cases hfound
        next hindex => exact ⟨hindex, hfound⟩
      split at h
      next => cases h
      next =>
        split at h
        next => cases h
        next =>
          split at h
          next => cases h
          next =>
            cases h
            exact hplace

variable {t : Topology} {c : Candidate} {ids : List Int} {names : List String} {d : Demand}

theorem length_paths (h : c.demand t ids = .ok d) (group : Nat)
    (hlength : ids.length = c.offers.length) :
    (c.paths group ids names d.signals).length = ids.length := by
  have hsignals := (Offer.demands_eq h).1
  simp [paths, hsignals, hlength]

/-- The paths of a candidate are unsubmitted legs of the group. -/
theorem mem_paths {group : Nat} {p : WavelengthPath}
    (hp : p ∈ c.paths group ids names d.signals) : p.group = group ∧ p.submitted = false := by
  obtain ⟨i, hi, rfl⟩ := List.mem_mapIdx.1 hp
  exact ⟨rfl, rfl⟩

/-- The paths of a candidate use the channels of its demand. -/
theorem signal_mem_of_mem_paths {group : Nat} {signals : List Signal} {p : WavelengthPath}
    (hp : p ∈ c.paths group ids names signals) : p.signal ∈ signals := by
  obtain ⟨i, hi, rfl⟩ := List.mem_mapIdx.1 hp
  exact (List.of_mem_zip (List.getElem_mem hi)).2

/-- A frequency that is demanded is one that the candidate offers. -/
theorem offered_of_demand (h : c.demand t ids = .ok d) :
    ∀ s ∈ d.signals, ∃ x ∈ c.offers, ∃ id, x.signals.find? id = some s := by
  intro s hs
  obtain ⟨e, he, hfind⟩ := Offer.mem_signals_of_demands h s hs
  exact ⟨e.1, (List.of_mem_zip he).1, e.2, hfind⟩

/-- Mapping what does not depend on the places forgets them. -/
theorem map_mapIdx {α β γ : Type} {f : Nat → α → β} {g : β → γ} {g' : α → γ}
    (hg : ∀ i a, g (f i a) = g' a) (l : List α) : (l.mapIdx f).map g = l.map g' := by
  induction l generalizing f with
  | nil => rfl
  | cons a rest ih =>
    rw [List.mapIdx_cons, List.map_cons, List.map_cons, hg, ih fun i a => hg (i + 1) a]

/-- A demand names what the paths of the candidate need, path by path. -/
theorem demand_resources (h : c.demand t ids = .ok d) (group : Nat) (names : List String) :
    (c.paths group ids names d.signals).flatMap (WavelengthPath.resources t) = d.resources := by
  rw [(Offer.demands_eq h).2, paths, List.flatMap_def, List.flatMap_def]
  refine congrArg List.flatten (map_mapIdx ?_ _)
  intro i e
  rfl

/-- The paths of a candidate have its legs, in their order. -/
theorem map_leg_paths (h : c.demand t ids = .ok d) (hlength : ids.length = c.offers.length)
    (group : Nat) (names : List String) :
    (c.paths group ids names d.signals).map WavelengthPath.leg = c.offers.map Offer.leg := by
  have hsignals : ((c.offers.zip ids).zip d.signals).map Prod.fst = c.offers.zip ids :=
    List.map_fst_zip (Nat.le_of_eq (Offer.demands_eq h).1.symm)
  have hids : (c.offers.zip ids).map Prod.fst = c.offers :=
    List.map_fst_zip (Nat.le_of_eq hlength.symm)
  have hoffers : ((c.offers.zip ids).zip d.signals).map (fun e => e.1.1) = c.offers := by
    have hfirst := congrArg (List.map Prod.fst) hsignals
    rw [List.map_map, hids] at hfirst
    exact hfirst
  have hlegs := congrArg (List.map Offer.leg) hoffers
  rw [List.map_map] at hlegs
  rw [← hlegs]
  apply map_mapIdx
  intro i e
  rfl

end Candidate

end Lightpath

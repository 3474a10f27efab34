import Lightpath.Resource.Ledger

/-!
# Ownership — the holders of resources and the lists of what they hold agree

What is there is free for a consumer if nobody else holds it (`isFreeFor_iff`). The ledger keeps
ownership twice: by resource (`owner?`) and by consumer (`allocations`). In a ledger that is `Exact`
both say the same. Granting and releasing keep it exact, and each has one equation for
what every consumer holds afterwards.
-/

namespace Lightpath

namespace Ledger

variable {l l' : Ledger}

/-! ## What is there and what is free -/

theorem knows_iff {r : Resource} :
    l.knows r = true ↔ ∀ cp s, r = .lambda cp s → s ∈ l.registered cp := by
  cases r <;> simp [knows]

theorem knows_congr (h : l'.slots = l.slots) (r : Resource) : l'.knows r = l.knows r := by
  unfold knows registered
  rw [h]

theorem isFreeFor_iff {c : IntentKey} {r : Resource} :
    l.isFreeFor c r = true ↔ l.knows r = true ∧ (l.owner? r = none ∨ l.owner? r = some c) := by
  unfold isFreeFor
  cases l.owner? r <;> simp

theorem isAvailable_iff {r : Resource} :
    l.isAvailable r = true ↔ l.knows r = true ∧ l.owner? r = none := by
  simp [isAvailable]

/-- A slot is available if it is registered on its port and nobody owns it. -/
theorem isAvailable_lambda_iff {cp : ConnectPoint} {slot : Signal} :
    l.isAvailable (.lambda cp slot) = true ↔
      slot ∈ l.registered cp ∧ l.owner? (.lambda cp slot) = none := by
  rw [isAvailable_iff, knows, SortedSet.contains_iff]

theorem mem_availableLambdas {cp : ConnectPoint} {slot : Signal} :
    slot ∈ l.availableLambdas cp ↔ l.isAvailable (.lambda cp slot) = true := by
  simp [availableLambdas, isAvailable, knows]

/-- What is available is free for every consumer. -/
theorem isFreeFor_of_isAvailable {r : Resource} (h : l.isAvailable r = true)
    (consumer : IntentKey) : l.isFreeFor consumer r = true := by
  obtain ⟨hknown, hfree⟩ := isAvailable_iff.1 h
  exact isFreeFor_iff.2 ⟨hknown, .inl hfree⟩

theorem mem_registered_registerLambdas {cp cp' : ConnectPoint} {slots : List Signal} {s : Signal} :
    s ∈ (l.registerLambdas cp slots).registered cp' ↔
      s ∈ l.registered cp' ∨ cp' = cp ∧ s ∈ slots := by
  unfold registerLambdas registered
  rw [SortedMap.alter, SortedMap.find?_insert]
  split
  next h =>
    rw [h, Option.getD_some, SortedSet.mem_insertAll]
    simp [or_comm]
  next h => simp [h]

/-! ## Exact ledgers -/

/-- The two records of ownership agree, no consumer holds a resource twice, and no consumer is listed
without a resource. -/
structure Exact (l : Ledger) : Prop where
  owner_iff : ∀ r c, l.owner? r = some c ↔ r ∈ l.allocations c
  nodup : ∀ c, (l.allocations c).Nodup
  listed : ∀ c, l.held.find? c ≠ some []

/-- A ledger in which nobody holds anything is exact. -/
theorem exact_of_unheld (howners : l.owners = ∅) (hheld : l.held = ∅) : l.Exact := by
  have hnone : ∀ c, l.held.find? c = none := fun c => by rw [hheld]; rfl
  have hnil : ∀ c, l.allocations c = [] := fun c => by rw [allocations, hnone c, Option.getD_none]
  refine ⟨?_, ?_, ?_⟩
  · intro r c
    rw [hnil c, owner?, howners]
    simp [show (∅ : SortedMap Resource IntentKey).find? r = none from rfl]
  · intro c
    rw [hnil c]
    exact .nil
  · intro c
    rw [hnone c]
    simp

namespace Exact

/-- A resource that two consumers hold makes them the same consumer. -/
theorem owner_unique (h : l.Exact) {r : Resource} {c c' : IntentKey} (hr : r ∈ l.allocations c)
    (hr' : r ∈ l.allocations c') : c = c' :=
  Option.some.inj (((h.owner_iff r c).2 hr).symm.trans ((h.owner_iff r c').2 hr'))

theorem find?_held_of_allocations_eq_nil (h : l.Exact) {c : IntentKey}
    (hc : l.allocations c = []) : l.held.find? c = none := by
  cases hv : l.held.find? c with
  | none => rfl
  | some rs =>
    have hrs : rs = [] := by rwa [allocations, hv, Option.getD_some] at hc
    exact absurd (hrs ▸ hv) (h.listed c)

end Exact

/-! ## Releasing -/

theorem allocations_release (l : Ledger) (c c' : IntentKey) :
    (l.release c).allocations c' = if c' = c then [] else l.allocations c' := by
  unfold release allocations
  rw [SortedMap.find?_erase]
  split <;> rfl

theorem owner?_release (l : Ledger) (c : IntentKey) (r : Resource) :
    (l.release c).owner? r = if r ∈ l.allocations c then none else l.owner? r :=
  SortedMap.find?_foldl_erase l.owners (l.allocations c) r

theorem Exact.release (h : l.Exact) (c : IntentKey) : (l.release c).Exact := by
  refine ⟨?_, ?_, ?_⟩
  · intro r c'
    rw [owner?_release, allocations_release]
    by_cases hc : c' = c
    · subst hc
      rw [if_pos rfl]
      split
      · simp
      next hr => simp [h.owner_iff, hr]
    · rw [if_neg hc]
      split
      next hr =>
        refine iff_of_false (by simp) ?_
        intro hr'
        exact hc (h.owner_unique hr' hr)
      · exact h.owner_iff r c'
  · intro c'
    rw [allocations_release]
    split
    · exact .nil
    · exact h.nodup c'
  · intro c'
    show (l.held.erase c).find? c' ≠ some []
    rw [SortedMap.find?_erase]
    split
    · simp
    · exact h.listed c'

/-- Releasing a consumer that holds nothing changes nothing. -/
theorem Exact.release_eq_self (h : l.Exact) {c : IntentKey} (hc : l.allocations c = []) :
    l.release c = l := by
  unfold Ledger.release
  rw [hc, SortedMap.erase_of_find?_eq_none (h.find?_held_of_allocations_eq_nil hc)]
  rfl

/-! ## Granting -/

theorem allocations_grant (l : Ledger) (c c' : IntentKey) (r : Resource) :
    (grant c l r).allocations c' =
      if c' = c ∧ l.owner? r = none then l.allocations c' ++ [r] else l.allocations c' := by
  unfold grant
  cases hr : l.owner? r with
  | some owner => simp
  | none =>
    show ((l.held.alter c _).find? c').getD [] = _
    rw [SortedMap.alter, SortedMap.find?_insert]
    by_cases hc : c' = c
    · subst hc
      simp [allocations]
    · simp [hc, allocations]

theorem owner?_grant (l : Ledger) (c : IntentKey) (r r' : Resource) :
    (grant c l r).owner? r' = if r' = r ∧ l.owner? r = none then some c else l.owner? r' := by
  unfold grant
  cases hr : l.owner? r with
  | some owner => simp
  | none =>
    show (l.owners.insert r c).find? r' = _
    rw [SortedMap.find?_insert]
    simp [owner?]

theorem Exact.grant (h : l.Exact) (c : IntentKey) (r : Resource) : (grant c l r).Exact := by
  refine ⟨?_, ?_, ?_⟩
  · intro r' c'
    rw [owner?_grant, allocations_grant]
    have hiff := h.owner_iff r' c'
    by_cases hr : l.owner? r = none
    · -- a resource that nobody holds stands in no list
      have hfree : r ∉ l.allocations c' := fun hmem => by
        rw [(h.owner_iff r c').2 hmem] at hr
        cases hr
      by_cases hr' : r' = r
      · subst hr'
        by_cases hc : c' = c
        · simp [hr, hc]
        · simp [hr, hc, hfree, Ne.symm hc]
      · by_cases hc : c' = c
        · simpa [hr, hr', hc] using hc ▸ hiff
        · simpa [hr', hc] using hiff
    · simpa [hr] using hiff
  · intro c'
    rw [allocations_grant]
    split
    next hcr =>
      refine List.nodup_append.2 ⟨h.nodup c', by simp, ?_⟩
      intro a ha b hb
      rintro rfl
      rw [List.mem_singleton] at hb
      subst hb
      rw [(h.owner_iff _ _).2 ha] at hcr
      exact Option.some_ne_none _ hcr.2
    · exact h.nodup c'
  · intro c'
    unfold Ledger.grant
    split
    · exact h.listed c'
    · show (l.held.alter c _).find? c' ≠ some []
      rw [SortedMap.alter, SortedMap.find?_insert]
      split
      · simp
      · exact h.listed c'

/-! ## Requests -/

/-- A request is granted exactly if it names nothing twice and everything in it is free for the
consumer. -/
theorem allocate_eq_ok_iff {c : IntentKey} {request : List Resource} :
    l.allocate c request = .ok l' ↔
      request.Nodup ∧ (∀ r ∈ request, l.isFreeFor c r = true) ∧
        request.foldl (Ledger.grant c) l = l' := by
  unfold allocate
  split
  next r hr =>
    refine iff_of_false (by simp) ?_
    intro hok
    rw [firstRepeat?_eq_none_iff.2 hok.1] at hr
    cases hr
  next hnone =>
    have hnodup := firstRepeat?_eq_none_iff.1 hnone
    split
    next r hr =>
      refine iff_of_false (by simp) ?_
      intro hok
      have hfree := hok.2.1 r (List.mem_of_find?_eq_some hr)
      simpa [hfree] using List.find?_some hr
    next hfree =>
      have hall : ∀ r ∈ request, l.isFreeFor c r = true := by simpa using hfree
      exact ⟨fun hok => ⟨hnodup, hall, Except.ok.inj hok⟩, fun hok => by rw [hok.2.2]⟩

theorem Exact.foldl_grant (h : l.Exact) (c : IntentKey) (request : List Resource) :
    (request.foldl (Ledger.grant c) l).Exact := by
  induction request generalizing l with
  | nil => exact h
  | cons r rest ih => exact ih (h.grant c r)

/-- A granted consumer holds, after what it held before, the part of the request that nobody held. -/
theorem allocations_foldl_grant (l : Ledger) (c : IntentKey) {request : List Resource}
    (hnodup : request.Nodup) :
    (request.foldl (Ledger.grant c) l).allocations c =
      l.allocations c ++ request.filter (fun r => (l.owner? r).isNone) := by
  induction request generalizing l with
  | nil => simp
  | cons r rest ih =>
    obtain ⟨hr, hrest⟩ := List.nodup_cons.1 hnodup
    rw [List.foldl_cons, ih (Ledger.grant c l r) hrest, allocations_grant]
    -- granting `r` decides nothing about the rest of the request
    have hsame : rest.filter (fun r' => ((Ledger.grant c l r).owner? r').isNone) =
        rest.filter (fun r' => (l.owner? r').isNone) := by
      apply List.filter_congr
      intro r' hr'
      have hne : r' ≠ r := fun he => hr (he ▸ hr')
      rw [owner?_grant, if_neg fun hand => hne hand.1]
    rw [hsame, List.filter_cons]
    cases hown : l.owner? r <;> simp

theorem allocations_foldl_grant_of_ne (l : Ledger) {c c' : IntentKey} (hc : c' ≠ c)
    (request : List Resource) :
    (request.foldl (Ledger.grant c) l).allocations c' = l.allocations c' := by
  induction request generalizing l with
  | nil => rfl
  | cons r rest ih =>
    rw [List.foldl_cons, ih, allocations_grant, if_neg fun hand => hc hand.1]

theorem Exact.allocate (h : l.Exact) {c : IntentKey} {request : List Resource}
    (hok : l.allocate c request = .ok l') : l'.Exact := by
  obtain ⟨-, -, rfl⟩ := allocate_eq_ok_iff.1 hok
  exact h.foldl_grant c request

/-- A consumer that held nothing holds exactly a request that it is granted. -/
theorem Exact.allocations_allocate (h : l.Exact) {c : IntentKey} {request : List Resource}
    (hc : l.allocations c = []) (hok : l.allocate c request = .ok l') :
    l'.allocations c = request := by
  obtain ⟨hnodup, hfree, rfl⟩ := allocate_eq_ok_iff.1 hok
  rw [allocations_foldl_grant l c hnodup, hc, List.nil_append, List.filter_eq_self]
  intro r hr
  rcases (isFreeFor_iff.1 (hfree r hr)).2 with hnone | hown
  · rw [hnone]
    rfl
  · -- the consumer itself holds nothing
    have hmem : r ∈ l.allocations c := (h.owner_iff r c).1 hown
    rw [hc] at hmem
    cases hmem

theorem allocations_allocate_of_ne {c c' : IntentKey} (hc : c' ≠ c) {request : List Resource}
    (hok : l.allocate c request = .ok l') : l'.allocations c' = l.allocations c' := by
  obtain ⟨-, -, rfl⟩ := allocate_eq_ok_iff.1 hok
  exact allocations_foldl_grant_of_ne l hc request

theorem slots_foldl_grant (consumer : IntentKey) (l : Ledger) (request : List Resource) :
    (request.foldl (grant consumer) l).slots = l.slots := by
  induction request generalizing l with
  | nil => rfl
  | cons r rest ih =>
    rw [List.foldl_cons, ih]
    unfold grant
    split <;> rfl

/-- A granted request leaves the registered slots as they are. -/
theorem slots_allocate {l l' : Ledger} {consumer : IntentKey} {request : List Resource}
    (h : l.allocate consumer request = .ok l') : l'.slots = l.slots := by
  obtain ⟨-, -, rfl⟩ := allocate_eq_ok_iff.1 h
  exact slots_foldl_grant consumer l request

end Ledger

end Lightpath

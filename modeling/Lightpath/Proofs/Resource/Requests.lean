import Lightpath.Proofs.Resource.Ownership

/-!
# Requests — what a ledger guarantees after any sequence of calls

A ledger is filled by three calls: registering slots on a port, granting a request and releasing a
consumer. Every ledger that such calls reach from the empty one is `Sound`: both records of ownership
agree and only registered slots are held. What the next call does to a sound ledger can then be said
exactly (`Guarantees`), whoever calls and whatever is asked for (`guarantees_after`). Once its slots are
registered a ledger is only `Worked` on, and what one consumer holds is what would be available without it
(`Sound.isAvailable_iff_of_emptied`).
-/

namespace Lightpath

namespace Ledger

variable {l l' : Ledger}

/-! ## Calls -/

/-- A call to the ledger. -/
inductive Call where
  | registerLambdas (cp : ConnectPoint) (slots : List Signal)
  | allocate (consumer : IntentKey) (request : List Resource)
  | release (consumer : IntentKey)
deriving DecidableEq, Repr

/-- What a call answers. -/
inductive Answer where
  | done
  | refused (f : Failure)
  | released (rs : List Resource)

/-- The ledger after a call and the answer. A refused request leaves the ledger as it is. -/
def Call.run (l : Ledger) : Call → Ledger × Answer
  | .registerLambdas cp slots => (l.registerLambdas cp slots, .done)
  | .allocate consumer request =>
    match l.allocate consumer request with
    | .ok l' => (l', .done)
    | .error f => (l, .refused f)
  | .release consumer => (l.release consumer, .released (l.allocations consumer))

/-- The ledger after a sequence of calls. -/
def after (l : Ledger) (calls : List Call) : Ledger := calls.foldl (fun l c => (c.run l).1) l

theorem run_allocate_done_iff {c : IntentKey} {request : List Resource} :
    (Call.run l (.allocate c request)).2 = .done ↔ ∃ l', l.allocate c request = .ok l' := by
  simp only [Call.run]
  cases l.allocate c request <;> simp

/-! ## Sound ledgers -/

/-- A ledger whose records of ownership agree and in which only what is there is held. -/
structure Sound (l : Ledger) : Prop extends l.Exact where
  knows_of_owner : ∀ r c, l.owner? r = some c → l.knows r = true

/-- A ledger in which nobody holds anything is sound, whatever slots are registered. -/
theorem sound_of_unheld (howners : l.owners = ∅) (hheld : l.held = ∅) : l.Sound := by
  refine ⟨exact_of_unheld howners hheld, ?_⟩
  intro r c hr
  rw [owner?, howners] at hr
  cases hr

theorem sound_empty : ({} : Ledger).Sound := sound_of_unheld rfl rfl

theorem Sound.registerLambdas (h : l.Sound) (cp : ConnectPoint) (slots : List Signal) :
    (l.registerLambdas cp slots).Sound := by
  refine ⟨⟨h.owner_iff, h.nodup, h.listed⟩, ?_⟩
  intro r c hr
  rw [knows_iff]
  intro cp' s hrs
  rw [mem_registered_registerLambdas]
  exact .inl (knows_iff.1 (h.knows_of_owner r c hr) cp' s hrs)

theorem Sound.release (h : l.Sound) (c : IntentKey) : (l.release c).Sound := by
  refine ⟨h.toExact.release c, ?_⟩
  intro r c' hr
  rw [owner?_release] at hr
  split at hr
  · cases hr
  · exact h.knows_of_owner r c' hr

/-- After a request everything in it that nobody held belongs to the consumer. -/
theorem owner?_foldl_grant (l : Ledger) (c : IntentKey) (request : List Resource) (r : Resource) :
    (request.foldl (grant c) l).owner? r =
      if r ∈ request ∧ l.owner? r = none then some c else l.owner? r := by
  induction request generalizing l with
  | nil => simp
  | cons r' rest ih =>
    rw [List.foldl_cons, ih, owner?_grant]
    by_cases hr : r = r'
    · subst hr
      cases hown : l.owner? r <;> simp
    · simp [hr]

theorem Sound.allocate (h : l.Sound) {c : IntentKey} {request : List Resource}
    (hok : l.allocate c request = .ok l') : l'.Sound := by
  refine ⟨h.toExact.allocate hok, ?_⟩
  have hslots := slots_allocate hok
  obtain ⟨-, hfree, rfl⟩ := allocate_eq_ok_iff.1 hok
  intro r c' hr
  rw [knows_congr hslots]
  rw [owner?_foldl_grant] at hr
  split at hr
  next hnew => exact (isFreeFor_iff.1 (hfree r hnew.1)).1
  next => exact h.knows_of_owner r c' hr

theorem Sound.run (h : l.Sound) (c : Call) : (c.run l).1.Sound := by
  cases c with
  | registerLambdas cp slots => exact h.registerLambdas cp slots
  | release consumer => exact h.release consumer
  | allocate consumer request =>
    simp only [Call.run]
    split
    next l' hok => exact h.allocate hok
    next => exact h

/-- Every call keeps a ledger sound, so every sequence of calls does. -/
theorem Sound.after (h : l.Sound) (calls : List Call) : (l.after calls).Sound := by
  induction calls generalizing l with
  | nil => exact h
  | cons c rest ih => exact ih (h.run c)

/-- The second ledger came from the first one by calls that register no slot. -/
structure Worked (l l' : Ledger) : Prop where
  slots : l'.slots = l.slots
  calls : ∃ calls, l' = l.after calls

namespace Worked

theorem refl (l : Ledger) : Worked l l := ⟨rfl, [], rfl⟩

theorem trans {l'' : Ledger} (h : Worked l l') (h' : Worked l' l'') : Worked l l'' := by
  obtain ⟨calls, rfl⟩ := h.calls
  obtain ⟨more, rfl⟩ := h'.calls
  exact ⟨h'.slots.trans h.slots, calls ++ more, List.foldl_append.symm⟩

theorem release (l : Ledger) (c : IntentKey) : Worked l (l.release c) := ⟨rfl, [.release c], rfl⟩

theorem allocate {c : IntentKey} {request : List Resource} (hok : l.allocate c request = .ok l') :
    Worked l l' := by
  refine ⟨slots_allocate hok, [.allocate c request], ?_⟩
  show l' = (Call.run l (.allocate c request)).1
  simp only [Call.run, hok]

end Worked

theorem Sound.worked (h : l.Sound) (hworked : Worked l l') : l'.Sound := by
  obtain ⟨calls, rfl⟩ := hworked.calls
  exact h.after calls

/-! ## The next call -/

/-- A granted request: the slots stay, what nobody held goes to the consumer, and its list is extended
by that part of the request. -/
theorem run_allocate_done {c : IntentKey} {request : List Resource}
    (hdone : (Call.run l (.allocate c request)).2 = .done) :
    (Call.run l (.allocate c request)).1.slots = l.slots ∧
      (∀ r, (Call.run l (.allocate c request)).1.owner? r =
        if r ∈ request ∧ l.owner? r = none then some c else l.owner? r) ∧
      ∀ c', (Call.run l (.allocate c request)).1.allocations c' =
        if c' = c then l.allocations c ++ request.filter (fun r => (l.owner? r).isNone)
        else l.allocations c' := by
  obtain ⟨l', hok⟩ := run_allocate_done_iff.1 hdone
  have hrun : (Call.run l (.allocate c request)).1 = l' := by simp only [Call.run, hok]
  rw [hrun]
  refine ⟨slots_allocate hok, ?_⟩
  obtain ⟨hnodup, -, rfl⟩ := allocate_eq_ok_iff.1 hok
  refine ⟨owner?_foldl_grant l c request, ?_⟩
  intro c'
  split
  next h => rw [h, allocations_foldl_grant l c hnodup]
  next h => exact allocations_foldl_grant_of_ne l h request

theorem run_allocate_refused {c : IntentKey} {request : List Resource}
    (hrefused : (Call.run l (.allocate c request)).2 ≠ .done) :
    (Call.run l (.allocate c request)).1 = l := by
  simp only [Call.run] at hrefused ⊢
  split
  next l' hok => simp [hok] at hrefused
  next => rfl

theorem run_allocate_done_iff_free {c : IntentKey} {request : List Resource} :
    (Call.run l (.allocate c request)).2 = .done ↔
      request.Nodup ∧ ∀ r ∈ request, (∀ cp s, r = .lambda cp s → s ∈ l.registered cp) ∧
        (l.owner? r = none ∨ l.owner? r = some c) := by
  rw [run_allocate_done_iff]
  simp only [allocate_eq_ok_iff, isFreeFor_iff, knows_iff]
  constructor
  · rintro ⟨_, hnodup, hfree, -⟩
    exact ⟨hnodup, hfree⟩
  · rintro ⟨hnodup, hfree⟩
    exact ⟨_, hnodup, hfree, rfl⟩

theorem Exact.owner?_eq_none_iff (h : l.Exact) {r : Resource} :
    l.owner? r = none ↔ ∀ c, r ∉ l.allocations c := by
  rw [Option.eq_none_iff_forall_ne_some]
  exact forall_congr' fun c => not_congr (h.owner_iff r c)

/-- If two ledgers differ in what one consumer holds, and it holds nothing in the second one, then what it
holds in the first one is available in the second one as well. -/
theorem Sound.isAvailable_iff_of_emptied (h : l.Sound) (h' : l'.Exact) (hslots : l'.slots = l.slots)
    {c : IntentKey}
    (hall : ∀ c', l'.allocations c' = if c' = c then [] else l.allocations c') (r : Resource) :
    l'.isAvailable r = true ↔ l.isAvailable r = true ∨ r ∈ l.allocations c := by
  rw [isAvailable_iff, isAvailable_iff, knows_congr hslots, h'.owner?_eq_none_iff,
    h.toExact.owner?_eq_none_iff]
  constructor
  · rintro ⟨hknown, hfree⟩
    by_cases hr : r ∈ l.allocations c
    · exact .inr hr
    · refine .inl ⟨hknown, fun c' hr' => ?_⟩
      have hne : c' ≠ c := fun he => hr (he ▸ hr')
      apply hfree c'
      rwa [hall, if_neg hne]
  · rintro (⟨hknown, hfree⟩ | hr)
    · refine ⟨hknown, fun c' hr' => ?_⟩
      rw [hall] at hr'
      split at hr'
      · cases hr'
      · exact hfree c' hr'
    · refine ⟨h.knows_of_owner r c ((h.owner_iff r c).2 hr), fun c' hr' => ?_⟩
      rw [hall] at hr'
      split at hr'
      · cases hr'
      next hne => exact hne (h.toExact.owner_unique hr' hr)

/-- What the consumer holds in the first ledger is what is available in the second one only. -/
theorem Sound.mem_allocations_iff_of_emptied (h : l.Sound) (h' : l'.Exact) (hslots : l'.slots = l.slots)
    {c : IntentKey}
    (hall : ∀ c', l'.allocations c' = if c' = c then [] else l.allocations c') (r : Resource) :
    r ∈ l.allocations c ↔ l'.isAvailable r = true ∧ l.isAvailable r = false := by
  rw [h.isAvailable_iff_of_emptied h' hslots hall r]
  constructor
  · intro hr
    refine ⟨.inr hr, ?_⟩
    -- it has a holder
    rw [← Bool.not_eq_true, isAvailable_iff, h.toExact.owner?_eq_none_iff]
    exact fun hfree => hfree.2 c hr
  · rintro ⟨havailable | hr, hnot⟩
    · rw [havailable] at hnot
      cases hnot
    · exact hr

/-- Releasing frees exactly what the consumer held. -/
theorem Sound.isAvailable_release (h : l.Sound) (c : IntentKey) (r : Resource) :
    (l.release c).isAvailable r = true ↔ l.isAvailable r = true ∨ l.owner? r = some c := by
  rw [h.owner_iff]
  exact h.isAvailable_iff_of_emptied (h.toExact.release c) rfl (l.allocations_release c) r

/-- What holds of a ledger, and what the next call does to it. -/
structure Guarantees (l : Ledger) : Prop where
  /-- The owner of a resource is the consumer that lists it. -/
  owner_iff : ∀ r c, l.owner? r = some c ↔ r ∈ l.allocations c
  /-- A listed resource is listed once, by one consumer. -/
  listed_once : ∀ r c, r ∈ l.allocations c →
    (l.allocations c).count r = 1 ∧ ∀ c', c' ≠ c → r ∉ l.allocations c'
  /-- A held slot is registered on its port. -/
  registered : ∀ cp s c, l.owner? (.lambda cp s) = some c → s ∈ l.registered cp
  /-- A request is granted exactly if it names nothing twice, and everything in it is there and held by
  nobody else. -/
  granted_iff : ∀ c request, (Call.run l (.allocate c request)).2 = .done ↔
    request.Nodup ∧ ∀ r ∈ request, (∀ cp s, r = .lambda cp s → s ∈ l.registered cp) ∧
      (l.owner? r = none ∨ l.owner? r = some c)
  /-- A granted request moves what nobody held to the end of the consumer's list, and nothing else. -/
  granted : ∀ c request, (Call.run l (.allocate c request)).2 = .done →
    (Call.run l (.allocate c request)).1.slots = l.slots ∧
    (∀ r, (Call.run l (.allocate c request)).1.owner? r =
      if r ∈ request ∧ l.owner? r = none then some c else l.owner? r) ∧
    ∀ c', (Call.run l (.allocate c request)).1.allocations c' =
      if c' = c then l.allocations c ++ request.filter (fun r => (l.owner? r).isNone)
      else l.allocations c'
  /-- A refused request changes nothing. -/
  refused : ∀ c request, (Call.run l (.allocate c request)).2 ≠ .done →
    (Call.run l (.allocate c request)).1 = l
  /-- Releasing answers the list of the consumer, and makes exactly that free. -/
  released : ∀ c, (Call.run l (.release c)).2 = .released (l.allocations c) ∧
    (Call.run l (.release c)).1.slots = l.slots ∧
    (∀ r, (Call.run l (.release c)).1.isAvailable r = true ↔
      l.isAvailable r = true ∨ l.owner? r = some c) ∧
    (∀ r, (Call.run l (.release c)).1.owner? r =
      if l.owner? r = some c then none else l.owner? r) ∧
    ∀ c', (Call.run l (.release c)).1.allocations c' = if c' = c then [] else l.allocations c'
  /-- The slots offered on a port are its registered slots that are available. -/
  available : ∀ cp s, s ∈ l.availableLambdas cp ↔
    s ∈ l.registered cp ∧ l.isAvailable (.lambda cp s) = true

theorem Sound.guarantees (h : l.Sound) : l.Guarantees where
  owner_iff := h.owner_iff
  listed_once r c hr := by
    refine ⟨?_, ?_⟩
    · rw [(h.nodup c).count, if_pos hr]
    intro c' hc hr'
    exact hc (h.toExact.owner_unique hr' hr)
  registered cp s c hown := knows_iff.1 (h.knows_of_owner _ c hown) cp s rfl
  granted_iff _ _ := run_allocate_done_iff_free
  granted _ _ := run_allocate_done
  refused _ _ := run_allocate_refused
  released c := by
    refine ⟨rfl, rfl, h.isAvailable_release c, ?_, l.allocations_release c⟩
    intro r
    simp only [Call.run, owner?_release, h.owner_iff]
  available cp s := by
    rw [mem_availableLambdas]
    exact ⟨fun h => ⟨(isAvailable_lambda_iff.1 h).1, h⟩, fun h => h.2⟩

/-- Whatever calls came before, the ledger keeps both records of ownership in step, and the next call
does exactly what is asked for. -/
theorem guarantees_after (calls : List Call) : (({} : Ledger).after calls).Guarantees :=
  (sound_empty.after calls).guarantees

end Ledger

end Lightpath

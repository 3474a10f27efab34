import Lightpath.Proofs.Optimizer.Recalculation
import Lightpath.Proofs.Optimizer.Turns

/-!
# Separation — calls on one group leave the others alone, and removing a group undoes its reservation

In every state that a run reaches, a call changes what is known of the group that it is about and of no
other one (`Consistent.holding_run`). A group holds what its reservation took until it is given up,
whatever else happens meanwhile (`Consistent.resources_afterTurns`), and then it gives exactly that back.
Both together are `groups_stay_apart`.
-/

namespace Lightpath

/-- The call gives a group up: it removes the group, or withdraws its intent. -/
def Call.GivesUp (g : Nat) (c : Call) : Prop := c = .remove g ∨ c = .withdraw (intentKey g)

namespace Optimizer

variable {reservedOn : Nat → Topology → Prop} {o o' : Optimizer} {g g' : Nat} {c : Call}

/-! ## Other groups -/

/-- A call is about one group at most. -/
theorem ActsOn.unique (h : o.ActsOn g c) (h' : o.ActsOn g' c) : g' = g := by
  cases c with
  | reserve index ids names =>
    obtain ⟨paths, hok, hne, hgroup⟩ := h
    obtain ⟨paths', hok', -, hgroup'⟩ := h'
    obtain rfl : paths = paths' := by simpa [hok] using hok'
    obtain ⟨p, hp⟩ := List.exists_mem_of_ne_nil _ hne
    rw [← hgroup p hp, ← hgroup' p hp]
  | submit group => exact h'.symm.trans h
  | remove group => exact h'.symm.trans h
  | install key => exact intentKey_injective (h'.symm.trans h)
  | withdraw key => exact intentKey_injective (h'.symm.trans h)
  | _ => exact nomatch h

/-- A call leaves every group that it is not about. -/
theorem Consistent.holding_run (h : o.Consistent reservedOn) (hc : ¬o.ActsOn g c) :
    (c.run o).optimizer.holding g = o.holding g := by
  rcases h.run_cases c with hsame | ⟨g', held, hacts, htouches, -⟩
  · rw [hsame.holding]
  · apply htouches.others
    rintro rfl
    exact hc hacts

/-! ## What a group holds through a run -/

/-- A turn leaves what a group holds, or the group holds nothing after it. Ids that were given out stay so. -/
theorem Consistent.resources_turn (h : o.Consistent reservedOn) (hg : g ≤ o.paths.lastGroupId)
    (x : Turn) : g ≤ (x.run o).paths.lastGroupId ∧
      (((x.run o).holding g).resources = (o.holding g).resources ∨
        ((x.run o).holding g).resources = []) := by
  cases x with
  | network t d => exact ⟨hg, .inl rfl⟩
  | call c =>
    show g ≤ (c.run o).optimizer.paths.lastGroupId ∧ _
    simp only [Turn.run]
    rcases h.run_cases c with hsame | ⟨g', held, -, htouches, hheld⟩
    · rw [hsame.paths, hsame.holding]
      exact ⟨hg, .inl rfl⟩
    · rw [htouches.issued]
      refine ⟨le_trans hg (le_max_right _ _), ?_⟩
      by_cases hgg : g = g'
      · subst hgg
        rw [htouches.group]
        rcases hheld with ⟨rfl, -⟩ | ⟨t, -, -, hkept⟩ | ⟨hnew, -⟩
        · exact .inr rfl
        · exact .inl hkept
        · -- a group that is reserved now has an id that was not given out before
          omega
      · rw [htouches.others hgg]
        exact .inl rfl

theorem Consistent.resources_afterTurns (h : o.Consistent fun _ _ => True)
    (hg : g ≤ o.paths.lastGroupId) (turns : List Turn) :
    ((o.afterTurns turns).holding g).resources = (o.holding g).resources ∨
      ((o.afterTurns turns).holding g).resources = [] := by
  induction turns generalizing o with
  | nil => exact .inl rfl
  | cons x rest ih =>
    obtain ⟨hg', hstep⟩ := h.resources_turn hg x
    rcases ih (h.turn x) hg' with hrest | hrest
    · rcases hstep with hstep | hstep
      · exact .inl (hrest.trans hstep)
      · exact .inr (hrest.trans hstep)
    · exact .inr hrest

/-! ## Giving a group up -/

/-- A call that gives a group up and succeeds found the group in use, and leaves it free. -/
theorem Consistent.givesUp_cases (h : o.Consistent reservedOn) (hc : c.GivesUp g)
    (hok : (c.run o).result = .ok ()) :
    (o.holding g).resources ≠ [] ∧ o.Touches g .free (c.run o).optimizer := by
  have hheld (hne : o.holding g ≠ .free) : (o.holding g).resources ≠ [] := by
    obtain ⟨t, -, htaken⟩ := (h.stage g).resolve_left hne
    exact htaken.inUse.resources_ne_nil
  rcases hc with rfl | rfl
  · simp only [Call.run, Outcome.void] at hok ⊢
    rcases h.remove_cases g with ⟨f, hf⟩ | ⟨o', hrun, hne, htouches⟩
    · rw [hf] at hok
      cases hok
    · rw [hrun]
      exact ⟨hheld hne, htouches⟩
  · simp only [Call.run] at hok ⊢
    rcases h.withdraw_cases (intentKey g) with ⟨f, hf⟩ | ⟨g', t, o', hrun, hkey, hsubmitted, htouches⟩
    · rw [hf] at hok
      cases hok
    · obtain rfl := intentKey_injective hkey
      rw [hrun]
      exact ⟨hsubmitted.resources_ne_nil, htouches⟩

/-- What a group holds is what becomes available when the group becomes free. -/
theorem Touches.isAvailable_iff (h : o.Touches g .free o') (hsound : o.ledger.Sound)
    (hslots : o'.ledger.slots = o.ledger.slots) (r : Resource) :
    o'.ledger.isAvailable r = true ↔
      o.ledger.isAvailable r = true ∨ r ∈ o.ledger.allocations (intentKey g) :=
  hsound.isAvailable_iff_of_emptied h.exact hslots h.resources r

/-- A group was reserved, which led from `o` to `reserved`, and given up later, which led from `late` to
`o'`. -/
structure Undone (g : Nat) (o reserved late o' : Optimizer) : Prop where
  /-- The reservation took what was available before it and is not available after it. -/
  took : ∀ r, r ∈ reserved.ledger.allocations (intentKey g) ↔
    o.ledger.isAvailable r = true ∧ reserved.ledger.isAvailable r = false
  /-- No path, no resource and no intent of the group is left. -/
  free : o'.holding g = .free
  /-- What is available again is what the reservation took. -/
  returned : ∀ r, o'.ledger.isAvailable r = true ↔
    late.ledger.isAvailable r = true ∨ r ∈ reserved.ledger.allocations (intentKey g)

/-- A reservation gives its group the next id, and takes what the group holds after it. -/
theorem Consistent.reserve_takes (h : o.Consistent reservedOn)
    (hsound : o.ledger.Sound) {index : Nat} {ids : List Int} {names : List String}
    (hacts : o.ActsOn g (.reserve index ids names)) :
    (o.reserve index ids names).optimizer.paths.lastGroupId = g ∧
      ∀ r, r ∈ (o.reserve index ids names).optimizer.ledger.allocations (intentKey g) ↔
        o.ledger.isAvailable r = true ∧
          (o.reserve index ids names).optimizer.ledger.isAvailable r = false := by
  have hworked := (storeSteps_run (.reserve index ids names) o).ledger
  obtain ⟨paths, hok, hne, hgroup⟩ := hacts
  rcases h.reserve_cases index ids names with ⟨f, hf⟩ | ⟨held, o', hrun, hgroup', -, htouches⟩
  · rw [hf] at hok
    cases hok
  simp only [Call.run, Outcome.void, hrun] at hworked ⊢
  rw [hrun] at hok
  obtain rfl : held.legs = paths := Except.ok.inj hok
  obtain ⟨p, hp⟩ := List.exists_mem_of_ne_nil _ hne
  obtain rfl : g = o.paths.lastGroupId + 1 := (hgroup p hp).symm.trans (hgroup' p hp)
  refine ⟨?_, ?_⟩
  · rw [htouches.issued]
    omega
  -- seen backwards, the reservation empties the new group, which was free before
  · apply (hsound.worked hworked).mem_allocations_iff_of_emptied h.exact hworked.slots.symm
    intro key
    split
    next hkey =>
      rw [hkey]
      exact congrArg Holding.resources (h.fresh _ (Nat.lt_succ_self _))
    next hkey => rw [htouches.resources, if_neg hkey]

/-- A group that is given up gives back what its reservation took, whatever happened in between. -/
theorem Consistent.undone (h : o.Consistent fun _ _ => True) (hsound : o.ledger.Sound) {index : Nat}
    {ids : List Int} {names : List String} (hacts : o.ActsOn g (.reserve index ids names))
    {reserved late : Optimizer} (hreserved : (o.reserve index ids names).optimizer = reserved)
    {between : List Turn} (hlate : reserved.afterTurns between = late) (hc : c.GivesUp g)
    (hok : (c.run late).result = .ok ()) :
    Undone g o reserved late (c.run late).optimizer := by
  obtain ⟨hlast, htook⟩ := h.reserve_takes hsound hacts
  have hconsistent := h.turn (.call (.reserve index ids names))
  have hworked := worked_turn (.call (.reserve index ids names)) o
  simp only [Turn.run, Call.run, Outcome.void, hreserved] at hlast htook hconsistent hworked
  subst hlate
  have hsound' := hsound.worked hworked
  obtain ⟨hne, htouches⟩ := (hconsistent.afterTurns between).givesUp_cases hc hok
  -- in between the group kept what it was given, as it holds something in the end
  have hkept : (reserved.afterTurns between).ledger.allocations (intentKey g) =
      reserved.ledger.allocations (intentKey g) :=
    (hconsistent.resources_afterTurns (Nat.le_of_eq hlast.symm) between).resolve_right hne
  refine ⟨htook, htouches.group, fun r => ?_⟩
  rw [← hkept]
  apply htouches.isAvailable_iff
  · exact hsound'.worked (reserved.worked_afterTurns between)
  · exact (worked_turn (.call c) _).slots

/-! ## Whole runs -/

/-- What the next calls do to the groups. -/
structure GroupsApart (o : Optimizer) : Prop where
  /-- A reservation that succeeds is about one group, that of all its paths. -/
  created : ∀ index ids names, (o.reserve index ids names).result.isOk = true →
    ∃ g, o.ActsOn g (.reserve index ids names)
  /-- A call about one group leaves every other group its paths, its resources and its intent. -/
  others : ∀ (c : Call) g, o.ActsOn g c →
    ∀ g', g' ≠ g → (c.run o).optimizer.holding g' = o.holding g'
  /-- A call about no group leaves every group. -/
  unconcerned : ∀ c : Call, (∀ g, ¬o.ActsOn g c) → (c.run o).optimizer.holding = o.holding
  /-- A group that is reserved next, and given up after any turns, leaves nothing behind and gives back
  what its reservation took. -/
  undone : ∀ index ids names g, o.ActsOn g (.reserve index ids names) →
    ∀ (between : List Turn) (c : Call), c.GivesUp g →
      let reserved := (o.reserve index ids names).optimizer
      let late := reserved.afterTurns between
      (c.run late).result = .ok () → Undone g o reserved late (c.run late).optimizer

/-- After every run, calls on one group do not touch the others, and giving a group up undoes its
reservation. -/
theorem groups_stay_apart {start : Optimizer} (h : start.Idle) (turns : List Turn) :
    (start.afterTurns turns).GroupsApart := by
  have hconsistent := consistent_afterTurns h turns
  constructor
  case created =>
    intro index ids names hok
    rcases hconsistent.reserve_cases index ids names with ⟨f, hf⟩ | ⟨held, o', hrun, hgroup, hheld, -⟩
    · rw [hf] at hok
      cases hok
    · exact ⟨_, held.legs, by rw [hrun], hheld.legs, hgroup⟩
  case others =>
    intro c g hacts g' hne
    apply hconsistent.holding_run
    exact fun hacts' => hne (hacts.unique hacts')
  case unconcerned =>
    intro c hnone
    funext g
    exact hconsistent.holding_run (hnone g)
  case undone =>
    intro index ids names g hacts between c hc reserved late hok
    exact hconsistent.undone (sound_afterTurns h turns) hacts rfl rfl hc hok

/-- The first group of the sample run, removed at its end, gives back its twelve resources, and the second
group keeps its path. -/
theorem groups_stay_apart_sample :
    let o := sampleStart.afterTurns ((sampleRun.take 2).map .call)
    let reserved := (o.reserve 1 [36] []).optimizer
    let late := reserved.afterTurns ((sampleRun.drop 3).map .call)
    let removed := ((Call.remove 1).run late).optimizer
    (reserved.ledger.allocations (intentKey 1)).length = 12 ∧ Undone 1 o reserved late removed ∧
      removed.holding 2 = late.holding 2 ∧ (late.holding 2).legs.length = 1 := by
  intro o reserved late removed
  have hstart : sampleStart.Idle := idle_ofNetwork ofNetwork_sample
  have hreserved : ∃ paths ∈ (o.reserve 1 [36] []).result.toOption,
      paths ≠ [] ∧ ∀ p ∈ paths, p.group = 1 := by
    decide +kernel
  have hacts : o.ActsOn 1 (.reserve 1 [36] []) := by
    obtain ⟨paths, hpaths, hgroup⟩ := hreserved
    cases hok : (o.reserve 1 [36] []).result with
    | error f =>
      rw [hok] at hpaths
      cases hpaths
    | ok paths' =>
      rw [hok] at hpaths
      cases hpaths
      exact ⟨paths, hok, hgroup⟩
  have hremoved : ((Call.remove 1).run late).result.isOk = true := by decide +kernel
  have hrun : (Call.remove 1).run late = ⟨removed, .ok ()⟩ := by
    obtain ⟨_, hrun⟩ := Outcome.exists_eq_of_isOk hremoved
    exact hrun
  have hothers := (groups_stay_apart hstart ((sampleRun.take 2).map .call ++
    .call (.reserve 1 [36] []) :: (sampleRun.drop 3).map .call)).others (.remove 1) 1 rfl 2 (by decide)
  have hstep : ∀ o : Optimizer,
      Turn.run (.call (.reserve 1 [36] [])) o = (o.reserve 1 [36] []).optimizer := fun _ => rfl
  rw [afterTurns_append_cons, hstep] at hothers
  have hundone := (groups_stay_apart hstart ((sampleRun.take 2).map .call)).undone 1 [36] [] 1 hacts
    ((sampleRun.drop 3).map .call) (.remove 1) (.inl rfl) (congrArg Outcome.result hrun)
  exact ⟨by decide +kernel, hundone, hothers, by decide +kernel⟩

end Optimizer

end Lightpath

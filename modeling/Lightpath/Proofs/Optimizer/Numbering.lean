import Lightpath.Proofs.Optimizer.Turns

/-!
# Numbering — the ids of groups and paths over a run

The groups that a run reserves (`Optimizer.reservations`) have the ids 1, 2, 3 and so on, and so have
their paths: a reservation that fails takes up no id, and no id comes twice. Where several clients take
group ids from one store, none gets an id that another one holds (`group_ids_never_shared`).
-/

namespace Lightpath

/-- The paths of the group that a turn reserves, if it does. -/
def Turn.reserved? (o : Optimizer) : Turn → Option (List WavelengthPath)
  | .call c => c.reserved? o
  | .network _ _ => none

namespace Optimizer

/-- The groups that a run reserves, in order, each as the list of its paths. -/
def reservations (o : Optimizer) : List Turn → List (List WavelengthPath)
  | [] => []
  | x :: rest => (x.reserved? o).toList ++ (x.run o).reservations rest

variable {o : Optimizer} {reservedOn : Nat → Topology → Prop}

/-! ## Group ids -/

theorem Consistent.lastGroupId_of_not_reserve (h : o.Consistent reservedOn) {c : Call}
    (hc : ∀ index ids names, c ≠ .reserve index ids names) :
    (c.run o).optimizer.paths.lastGroupId = o.paths.lastGroupId := by
  rcases h.run_cases c with hsame | ⟨g, held, -, htouches, hheld⟩
  · rw [hsame.paths]
  · -- a group that is not newly reserved has an id that was given out before
    rw [htouches.issued]
    apply h.issued_of_ne_free
    rcases hheld with ⟨-, hne⟩ | ⟨t, -, htaken, hkept⟩ | ⟨-, index, ids, names, hreserve, -⟩
    · exact hne
    · intro hfree
      apply htaken.inUse.resources_ne_nil
      rw [hkept, hfree]
      rfl
    · exact absurd hreserve (hc index ids names)

/-- A turn that reserves a group gives it the next id, and any other one gives out no id. -/
theorem Consistent.lastGroupId_turn (h : o.Consistent reservedOn) (x : Turn) :
    (x.run o).paths.lastGroupId = o.paths.lastGroupId + (x.reserved? o).toList.length ∧
      ∀ paths ∈ x.reserved? o, paths ≠ [] ∧ ∀ p ∈ paths, p.group = o.paths.lastGroupId + 1 := by
  cases x with
  | network t d =>
    refine ⟨rfl, ?_⟩
    intro paths hpaths
    cases hpaths
  | call c =>
    cases c with
    | reserve index ids names =>
      simp only [Turn.run, Call.run, Outcome.void, Turn.reserved?, Call.reserved?]
      rcases h.reserve_cases index ids names with ⟨f, hf⟩ | ⟨held, o', hok, hgroup, hheld, htouches⟩
      · rw [hf]
        refine ⟨rfl, ?_⟩
        intro paths hpaths
        cases hpaths
      · rw [hok]
        refine ⟨?_, ?_⟩
        · show o'.paths.lastGroupId = o.paths.lastGroupId + 1
          rw [htouches.issued]
          omega
        · intro paths hpaths
          obtain rfl : held.legs = paths := Option.some.inj hpaths
          exact ⟨hheld.legs, hgroup⟩
    | _ =>
      refine ⟨h.lastGroupId_of_not_reserve (by simp), ?_⟩
      intro paths hpaths
      cases hpaths

/-- The groups that a run reserves have consecutive ids, and the counter stands at the last one. -/
theorem Consistent.groups_reservations (h : o.Consistent fun _ _ => True) (turns : List Turn) :
    (o.afterTurns turns).paths.lastGroupId =
        o.paths.lastGroupId + (o.reservations turns).length ∧
      ∀ i paths, (o.reservations turns)[i]? = some paths →
        paths ≠ [] ∧ ∀ p ∈ paths, p.group = o.paths.lastGroupId + i + 1 := by
  induction turns generalizing o with
  | nil =>
    refine ⟨rfl, ?_⟩
    intro i paths hpaths
    cases hpaths
  | cons x rest ih =>
    obtain ⟨hlast, hfirst⟩ := h.lastGroupId_turn x
    obtain ⟨hlast', hrest⟩ := ih (h.turn x)
    rw [reservations, List.length_append]
    refine ⟨?_, ?_⟩
    · show ((x.run o).afterTurns rest).paths.lastGroupId = _
      omega
    · intro i paths hpaths
      rw [hlast] at hrest
      cases hx : x.reserved? o with
      | none =>
        rw [hx] at hpaths hrest
        exact hrest i paths hpaths
      | some first =>
        rw [hx] at hpaths hrest
        cases i with
        | zero =>
          obtain rfl : first = paths := Option.some.inj hpaths
          exact hfirst first hx
        | succ i =>
          obtain ⟨hne, hgroup⟩ := hrest i paths hpaths
          refine ⟨hne, fun p hp => (hgroup p hp).trans ?_⟩
          show o.paths.lastGroupId + 1 + i + 1 = _
          omega

/-! ## Path ids -/

theorem storeSteps_turn (x : Turn) (o : Optimizer) :
    StoreSteps o (x.run o) ((x.reserved? o).getD []) := by
  cases x with
  | call c => exact storeSteps_run c o
  | network t d => exact .of_eq rfl rfl

/-- The store is given the paths of the reserved groups, and no others. -/
theorem storeSteps_afterTurns (o : Optimizer) (turns : List Turn) :
    StoreSteps o (o.afterTurns turns) (o.reservations turns).flatten := by
  induction turns generalizing o with
  | nil => exact .refl o
  | cons x rest ih =>
    have hstep := (storeSteps_turn x o).trans (ih (x.run o))
    have hfirst : (x.reserved? o).toList.flatten = (x.reserved? o).getD [] := by
      cases x.reserved? o <;> simp
    rw [reservations, List.flatten_append, hfirst]
    exact hstep

/-! ## Whole runs -/

/-- How the ids go up over a run. -/
structure Numbered (start : Optimizer) (turns : List Turn) : Prop where
  /-- The reserved groups, none of which is empty, have the ids 1, 2, 3 and so on. -/
  groups : ∀ i paths, (start.reservations turns)[i]? = some paths →
    paths ≠ [] ∧ ∀ p ∈ paths, p.group = i + 1
  /-- The counter of groups stands at their number, so that the next one has the next id. -/
  lastGroup : (start.afterTurns turns).paths.lastGroupId = (start.reservations turns).length
  /-- A reservation that fails takes up no id and stores nothing. -/
  refused : ∀ index ids names f,
    ((start.afterTurns turns).reserve index ids names).result = .error f →
      ((start.afterTurns turns).reserve index ids names).optimizer.paths =
        (start.afterTurns turns).paths
  /-- The paths that were ever stored are those of the reserved groups, in order. -/
  stored : ∃ calls, (start.afterTurns turns).paths = ({} : PathStore).after calls ∧
    ({} : PathStore).storedBy calls = (start.reservations turns).flatten
  /-- They have the ids 1, 2, 3 and so on. -/
  paths : (start.reservations turns).flatten.map WavelengthPath.id =
    List.range' 1 (start.reservations turns).flatten.length

theorem numbered {start : Optimizer} (h : start.Idle) (turns : List Turn) : start.Numbered turns := by
  have hnone : start.paths.lastGroupId = 0 := congrArg PathStore.lastGroupId h.paths
  obtain ⟨hlast, hgroups⟩ := (consistent_of_idle h _).groups_reservations turns
  obtain ⟨calls, hpaths, hstored⟩ := (start.storeSteps_afterTurns turns).paths
  rw [hnone, Nat.zero_add] at hlast
  rw [h.paths] at hpaths hstored
  constructor
  case groups =>
    intro i paths hi
    have hi' := hgroups i paths hi
    rw [hnone, Nat.zero_add] at hi'
    exact hi'
  case lastGroup => exact hlast
  case refused =>
    intro index ids names f hf
    rcases (consistent_afterTurns h turns).reserve_cases index ids names with
      ⟨f', hf'⟩ | ⟨held, o', hok, -⟩
    · rw [hf']
    · rw [hok] at hf
      cases hf
  case stored => exact ⟨calls, hpaths, hstored⟩
  case paths =>
    rw [← hstored]
    exact (PathStore.ids_storedBy {} calls).1

/-- Whatever steps the clients of a store take, the ids that they hold are different ones, a new id is
none of them, and no id is greater than the number of ids given out. Over every run of an optimizer the
groups and their paths are numbered one after the other, and a failing reservation takes up no id. -/
theorem group_ids_never_shared {Client : Type} {d : PathStore.Desk Client} (hd : d.Reachable)
    {start : Optimizer} (h : start.Idle) (turns : List Turn) :
    (d.ids.Nodup ∧ d.store.issueGroup.1 ∉ d.ids ∧ ∀ id ∈ d.ids, id ≤ d.issues) ∧
      start.Numbered turns := by
  have hapart := PathStore.Desk.apart hd
  refine ⟨⟨hapart.distinct, hapart.fresh, ?_⟩, numbered h turns⟩
  intro id hid
  exact le_trans (hapart.given id hid) hapart.counted

/-- One client takes an id; another one takes an id, hands it back and takes it again. In the sample run a
third reservation fails. -/
theorem group_ids_never_shared_sample :
    let d : PathStore.Desk Bool := ⟨{ lastGroupId := 2 }, [(true, 2), (false, 1)], 3⟩
    let turns : List Turn := (sampleRun ++ [Call.reserve 1 [37] []]).map .call
    d.Reachable ∧ d.ids.Nodup ∧ d.store.issueGroup.1 ∉ d.ids ∧ sampleStart.Numbered turns ∧
      (sampleStart.reservations turns).length = 2 := by
  intro d turns
  have hfirst : (⟨{ lastGroupId := 1 }, [(false, 1)], 1⟩ : PathStore.Desk Bool).Reachable :=
    .single (.issue {} false)
  have hsecond : PathStore.Desk.Reachable ⟨{ lastGroupId := 2 }, [(true, 2), (false, 1)], 2⟩ :=
    hfirst.tail (.issue _ true)
  have hback : PathStore.Desk.Reachable ⟨{ lastGroupId := 1 }, [(false, 1)], 2⟩ :=
    hsecond.tail (.handBack _ true 2 [] [(false, 1)] rfl)
  have hd : d.Reachable := hback.tail (.issue _ true)
  obtain ⟨⟨hdistinct, hfresh, -⟩, hnumbered⟩ :=
    group_ids_never_shared hd (idle_ofNetwork ofNetwork_sample) turns
  exact ⟨hd, hdistinct, hfresh, hnumbered, by decide +kernel⟩

end Optimizer

end Lightpath

import Lightpath.Proofs.Optimizer.Holdings

/-!
# The life of groups over whole runs

In every state that a run of calls reaches, the path store, the ledger and the intent book agree on
every group (`InStep`). The invariant is `Consistent`, with `ReservedIn` telling where in the run a
group may have been reserved: each call keeps it (`Consistent.run`), and so does a run
(`consistent_after`).
-/

namespace Lightpath

namespace Optimizer

/-- A call of the run reserved the group, when the topology was `t`. -/
def ReservedIn (start : Optimizer) (calls : List Call) (g : Nat) (t : Topology) : Prop :=
  ∃ before index ids names more paths,
    calls = before ++ .reserve index ids names :: more ∧
      ((start.after before).reserve index ids names).result = .ok paths ∧
      paths ≠ [] ∧ (∀ p ∈ paths, p.group = g) ∧ t = (start.after before).topology

variable {start : Optimizer} {past : List Call}

theorem ReservedIn.append {g : Nat} {t : Topology} (h : ReservedIn start past g t)
    (calls : List Call) : ReservedIn start (past ++ calls) g t := by
  obtain ⟨before, index, ids, names, more, paths, hpast, hrest⟩ := h
  refine ⟨before, index, ids, names, more ++ calls, paths, ?_, hrest⟩
  rw [hpast, List.append_assoc, List.cons_append]

/-- The call is about this group: it names the group or its key, or it reserves the group. -/
def ActsOn (o : Optimizer) (g : Nat) : Call → Prop
  | .reserve index ids names =>
    ∃ paths, (o.reserve index ids names).result = .ok paths ∧ paths ≠ [] ∧ ∀ p ∈ paths, p.group = g
  | .submit group => group = g
  | .remove group => group = g
  | .install key => key = intentKey g
  | .withdraw key => key = intentKey g
  | _ => False

/-- What a call can do to groups: nothing, or it touches the group that it is about, which is free or in
use then. A group that was not in use before is newly reserved, under the next id; any other one goes on
to hold what it held. -/
theorem Consistent.run_cases {reservedOn : Nat → Topology → Prop} {o : Optimizer}
    (h : o.Consistent reservedOn) (c : Call) :
    SameGroups o (c.run o).optimizer ∨
      ∃ g held, o.ActsOn g c ∧ o.Touches g held (c.run o).optimizer ∧
        (held = .free ∧ o.holding g ≠ .free ∨
          (∃ t, reservedOn g t ∧ held.Taken t g ∧ held.resources = (o.holding g).resources) ∨
          g = o.paths.lastGroupId + 1 ∧ ∃ index ids names, c = .reserve index ids names ∧
            (o.reserve index ids names).result = .ok held.legs ∧
            (∀ p ∈ held.legs, p.group = g) ∧ held.Reserved o.topology) := by
  cases c with
  | calculateWdmPaths ingress egress =>
    exact .inl (sameGroups_calculateWdmPathsBy o _ ingress egress)
  | calculateWdmPathsBy method ingress egress =>
    exact .inl (sameGroups_calculateWdmPathsBy o method ingress egress)
  | calculateWavelengthPaths pairs force =>
    exact .inl (sameGroups_calculateWavelengthPaths o pairs force)
  | setLinkState ends state => exact .inl (sameGroups_setLinkState o ends state)
  | removeLink ends => exact .inl (sameGroups_removeLink o ends)
  | removeDevice id => exact .inl (sameGroups_removeDevice o id)
  | reserve index ids names =>
    simp only [Call.run, Outcome.void]
    rcases h.reserve_cases index ids names with ⟨f, hf⟩ | ⟨held, o', hok, hgroup, hheld, htouches⟩
    · rw [hf]
      exact .inl (.refl o)
    · have hresult : (o.reserve index ids names).result = .ok held.legs := by rw [hok]
      rw [hok]
      exact .inr ⟨_, held, ⟨_, hresult, hheld.legs, hgroup⟩, htouches,
        .inr (.inr ⟨rfl, index, ids, names, rfl, hresult, hgroup, hheld⟩)⟩
  | submit g =>
    simp only [Call.run, Outcome.void]
    rcases h.submit_cases g with
      ⟨f, hf⟩ | ⟨t, held, o', hok, ht, -, hheld, -, hresources, htouches⟩
    · rw [hf]
      exact .inl (.refl o)
    · rw [hok]
      exact .inr ⟨g, held, rfl, htouches, .inr (.inl ⟨t, ht, .inr hheld, hresources⟩)⟩
  | remove g =>
    simp only [Call.run, Outcome.void]
    rcases h.remove_cases g with ⟨f, hf⟩ | ⟨o', hok, hne, htouches⟩
    · rw [hf]
      exact .inl (.refl o)
    · rw [hok]
      exact .inr ⟨g, .free, rfl, htouches, .inl ⟨rfl, hne⟩⟩
  | install key =>
    simp only [Call.run]
    rcases h.install_cases key with
      ⟨f, hf⟩ | ⟨g, t, i, o', hok, hkey, ht, hsubmitted, hi, htouches⟩
    · rw [hf]
      exact .inl (.refl o)
    · rw [hok]
      -- only the state of the intent changes, so the group stays submitted
      obtain ⟨state, -, hintent⟩ := hsubmitted.intent
      rw [hi] at hintent
      cases hintent
      refine .inr ⟨g, _, hkey, htouches, .inr (.inl ⟨t, ht, .inr ?_, rfl⟩)⟩
      exact ⟨⟨hsubmitted.legs, hsubmitted.resources⟩, hsubmitted.submitted, .installed, .inl rfl, rfl⟩
  | withdraw key =>
    simp only [Call.run]
    rcases h.withdraw_cases key with ⟨f, hf⟩ | ⟨g, t, o', hok, hkey, hsubmitted, htouches⟩
    · rw [hf]
      exact .inl (.refl o)
    · rw [hok]
      have hne := Holding.Taken.ne_free (.inr hsubmitted)
      exact .inr ⟨g, .free, hkey, htouches, .inl ⟨rfl, hne⟩⟩

/-- Each call keeps the stores consistent, if the group that it may reserve counts as reserved then. -/
theorem Consistent.run_keeps {reservedOn reservedOn' : Nat → Topology → Prop} {o : Optimizer}
    (h : o.Consistent reservedOn) (c : Call) (hon : ∀ g t, reservedOn g t → reservedOn' g t)
    (hnew : ∀ g index ids names paths, c = .reserve index ids names →
      (o.reserve index ids names).result = .ok paths → paths ≠ [] → (∀ p ∈ paths, p.group = g) →
        reservedOn' g o.topology) :
    (c.run o).optimizer.Consistent reservedOn' := by
  rcases h.run_cases c with hsame | ⟨g, held, -, htouches, hheld⟩
  · exact h.sameGroups hsame hon
  · refine h.touches htouches (hheld.imp And.left ?_) hon
    rintro (⟨t, ht, htaken, -⟩ | ⟨-, index, ids, names, hc, hok, hgroup, hreserved⟩)
    · exact ⟨t, hon g t ht, htaken⟩
    · exact ⟨_, hnew g index ids names held.legs hc hok hreserved.legs hgroup, .inl hreserved⟩

theorem Consistent.run (h : (start.after past).Consistent (ReservedIn start past)) (c : Call) :
    (start.after (past ++ [c])).Consistent (ReservedIn start (past ++ [c])) := by
  rw [after_append_singleton]
  apply h.run_keeps c fun g t hg => hg.append [c]
  rintro g index ids names paths rfl hok hne hgroup
  exact ⟨past, index, ids, names, [], paths, rfl, hok, hne, hgroup, rfl⟩

/-- Every state that a run of calls reaches is consistent. -/
theorem consistent_after (h : start.Idle) (calls : List Call) :
    (start.after calls).Consistent (ReservedIn start calls) := by
  suffices hall : ∀ calls past, (start.after past).Consistent (ReservedIn start past) →
      (start.after (past ++ calls)).Consistent (ReservedIn start (past ++ calls)) from
    hall calls [] (consistent_of_idle h _)
  intro calls
  induction calls with
  | nil =>
    intro past hpast
    rw [List.append_nil]
    exact hpast
  | cons c rest ih =>
    intro past hpast
    rw [← List.singleton_append, ← List.append_assoc]
    exact ih (past ++ [c]) (hpast.run c)

/-- The path store, the ledger and the intent book agree on a group. `reservedIn` tells in which
topologies the group may have been reserved. -/
structure InStep (o : Optimizer) (reservedIn : Topology → Prop) (g : Nat) : Prop where
  /-- The paths found by their group are the stored ones of the group. -/
  found : o.paths.getGroup g = o.paths.toList.filter (fun p => p.group == g)
  /-- They come in the order of their ids. -/
  ascending : (o.paths.getGroup g).Pairwise (fun p q => p.id < q.id)
  /-- A path of the group is stored exactly if something is held under its key. -/
  held_iff : (∃ p ∈ o.paths.toList, p.group = g) ↔ o.ledger.allocations (intentKey g) ≠ []
  /-- What is held is what the paths needed when the group was reserved, path by path. -/
  resources : o.ledger.allocations (intentKey g) ≠ [] →
    ∃ t, reservedIn t ∧ o.ledger.allocations (intentKey g) =
      (o.paths.getGroup g).flatMap (WavelengthPath.resources t)
  /-- All paths of the group are submitted, or none is. -/
  uniform : (∀ p ∈ o.paths.getGroup g, p.submitted = true) ∨
    (∀ p ∈ o.paths.getGroup g, p.submitted = false)
  /-- There is an intent exactly if the group has paths and they are submitted. -/
  intent_iff : (∃ i, o.intents.intent? (intentKey g) = some i) ↔
    o.paths.getGroup g ≠ [] ∧ ∀ p ∈ o.paths.getGroup g, p.submitted = true

/-- In a consistent optimizer the stores agree on every group: a free one and one in use alike. -/
theorem Consistent.inStep {reservedOn : Nat → Topology → Prop} {o : Optimizer}
    (h : o.Consistent reservedOn) (g : Nat) : o.InStep (reservedOn g) g := by
  have hlegs : o.paths.getGroup g = o.paths.legs g := h.coherent.getGroup_eq_legs g
  have hsome : (∃ p ∈ o.paths.toList, p.group = g) ↔ o.paths.legs g ≠ [] := by
    constructor
    · rintro ⟨p, hp, hg⟩
      exact List.ne_nil_of_mem (PathStore.mem_legs.2 ⟨hp, hg⟩)
    · intro hne
      obtain ⟨p, hp⟩ := List.exists_mem_of_ne_nil _ hne
      exact ⟨p, PathStore.mem_legs.1 hp⟩
  have hasc := h.coherent.legs_ascending g
  rcases h.stage g with hfree | ⟨t, ht, htaken⟩
  · have hnil : o.paths.legs g = [] := congrArg Holding.legs hfree
    have hheld : o.ledger.allocations (intentKey g) = [] := congrArg Holding.resources hfree
    have hintent : o.intents.entries.find? (intentKey g) = none := congrArg Holding.intent hfree
    refine ⟨hlegs, hlegs ▸ hasc, ?_, fun hne => absurd hheld hne, .inr ?_, ?_⟩
    · rw [hsome, hnil, hheld]
      simp
    · rw [hlegs, hnil]
      simp
    · rw [hlegs, hnil, IntentBook.intent?, hintent]
      simp
  · have hne : o.paths.legs g ≠ [] := htaken.inUse.legs
    have hheld : o.ledger.allocations (intentKey g) ≠ [] := htaken.inUse.resources_ne_nil
    refine ⟨hlegs, hlegs ▸ hasc, ?_, fun _ => ⟨t, ht, ?_⟩, ?_, ?_⟩
    · rw [hsome]
      exact iff_of_true hne hheld
    · rw [hlegs]
      exact htaken.inUse.resources
    · rw [hlegs]
      rcases htaken with hreserved | hsubmitted
      · exact .inr hreserved.unsubmitted
      · exact .inl hsubmitted.submitted
    · rw [hlegs, IntentBook.intent?]
      rcases htaken with hreserved | hsubmitted
      · -- a reserved group has an unsubmitted leg and no intent
        have hintent : o.intents.entries.find? (intentKey g) = none := hreserved.intent
        obtain ⟨p, hp⟩ := List.exists_mem_of_ne_nil _ hne
        have hp' : p.submitted = false := hreserved.unsubmitted p hp
        rw [hintent]
        refine iff_of_false (by simp) ?_
        intro hall
        rw [hall.2 p hp] at hp'
        cases hp'
      · obtain ⟨state, -, hsome⟩ := hsubmitted.intent
        have hintent : o.intents.entries.find? (intentKey g) = some _ := hsome
        rw [hintent]
        exact iff_of_true ⟨_, rfl⟩ ⟨hne, hsubmitted.submitted⟩

/-- After every run of calls, whether they succeed or fail, the stores agree on every group. -/
theorem groups_in_step (h : start.Idle) (calls : List Call) (g : Nat) :
    (start.after calls).InStep (ReservedIn start calls g) g :=
  (consistent_after h calls).inStep g

/-- The first group of the sample run holds four ports, and four slots on each of two hops. -/
theorem groups_in_step_sample :
    (sampleStart.after sampleRun).InStep (ReservedIn sampleStart sampleRun 1) 1 ∧
      ((sampleStart.after sampleRun).ledger.allocations (intentKey 1)).length = 12 :=
  ⟨groups_in_step (idle_ofNetwork ofNetwork_sample) sampleRun 1, by decide +kernel⟩

end Optimizer

end Lightpath

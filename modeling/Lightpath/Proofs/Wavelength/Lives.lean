import Lightpath.Proofs.Wavelength.Events

/-!
# Lives — what the log says of one path

A client that stores paths unsubmitted, and updates a path only to mark it submitted, makes orderly calls
(`OrderlyCalls`). Then the events about one id tell a life (`Life`): the path is added unsubmitted, may be
updated once as submitted, and may be removed in the end. Every id given out has such a life, and what is stored
under the id is what the life says (`Recorded.after`).
-/

namespace Lightpath

/-- The events about the path with an id, in order. -/
def eventsOf (log : List PathEvent) (id : Nat) : List PathEvent := log.filter fun e => e.path.id == id

/-- The events about one path, and what is stored of it after them. -/
inductive Life : List PathEvent → Option WavelengthPath → Prop
  | unborn : Life [] none
  | reserved (p : WavelengthPath) (coupled : List Nat) (h : p.submitted = false) :
      Life [.added p coupled] (some p)
  | submitted (p : WavelengthPath) (coupled : List Nat) (h : p.submitted = false) :
      Life [.added p coupled, .updated p.markSubmitted] (some p.markSubmitted)
  | removed (p : WavelengthPath) (coupled : List Nat) (h : p.submitted = false) :
      Life [.added p coupled, .removed p] none
  | withdrawn (p : WavelengthPath) (coupled : List Nat) (h : p.submitted = false) :
      Life [.added p coupled, .updated p.markSubmitted, .removed p.markSubmitted] none

namespace Life

variable {events : List PathEvent} {p : WavelengthPath}

theorem ne_nil (h : Life events (some p)) : events ≠ [] := by
  cases h <;> exact List.cons_ne_nil _ _

/-- A path that is not submitted yet can be. -/
theorem submit (h : Life events (some p)) (hp : p.submitted = false) :
    Life (events ++ [.updated p.markSubmitted]) (some p.markSubmitted) := by
  cases h with
  | reserved _ coupled h => exact .submitted p coupled h
  | submitted q coupled h => cases hp

/-- A stored path can be removed. -/
theorem remove (h : Life events (some p)) : Life (events ++ [.removed p]) none := by
  cases h with
  | reserved _ coupled h => exact .removed p coupled h
  | submitted q coupled h => exact .withdrawn q coupled h

end Life

/-! ## Events about one id -/

section EventsOf

variable {log : List PathEvent} {paths : List WavelengthPath} {report : WavelengthPath → PathEvent}
  {p : WavelengthPath} {id : Nat}

theorem eventsOf_append (log more : List PathEvent) (id : Nat) :
    eventsOf (log ++ more) id = eventsOf log id ++ eventsOf more id :=
  List.filter_append log more

theorem eventsOf_map_of_ne (hreport : ∀ p, (report p).path.id = p.id) (h : ∀ p ∈ paths, p.id ≠ id) :
    eventsOf (paths.map report) id = [] := by
  rw [eventsOf, List.filter_eq_nil_iff]
  intro e he
  obtain ⟨p, hp, rfl⟩ := List.mem_map.1 he
  rw [hreport]
  simpa using h p hp

theorem eventsOf_map_of_mem (hreport : ∀ p, (report p).path.id = p.id)
    (hpaths : paths.Pairwise fun p q => p.id < q.id) (hp : p ∈ paths) :
    eventsOf (paths.map report) p.id = [report p] := by
  induction paths with
  | nil => cases hp
  | cons q rest ih =>
    obtain ⟨hhead, hrest⟩ := List.pairwise_cons.1 hpaths
    rw [List.map_cons, ← List.singleton_append, eventsOf_append]
    rcases List.mem_cons.1 hp with rfl | hp
    · have hlater : eventsOf (rest.map report) p.id = [] :=
        eventsOf_map_of_ne hreport fun q hq => (Nat.ne_of_lt (hhead q hq)).symm
      rw [hlater, List.append_nil]
      simp [eventsOf, hreport]
    · have hother : eventsOf [report q] p.id = [] := by
        show eventsOf ([q].map report) p.id = []
        refine eventsOf_map_of_ne hreport fun r hr => ?_
        rw [List.mem_singleton.1 hr]
        exact Nat.ne_of_lt (hhead p hp)
      rw [hother, List.nil_append]
      exact ih hrest hp

end EventsOf

namespace PathStore

variable {s : PathStore} {log : List PathEvent}

/-! ## Orderly calls -/

/-- The call stores paths that are not submitted, or marks one of those stored as submitted, or removes a
group. -/
def Call.Orderly (s : PathStore) : Call → Prop
  | .add paths => ∀ p ∈ paths, p.submitted = false
  | .update p => ∃ q ∈ s.toList, q.submitted = false ∧ p = q.markSubmitted
  | _ => True

/-- Every one of the calls is orderly when it is made. -/
def OrderlyCalls (s : PathStore) : List Call → Prop
  | [] => True
  | c :: rest => c.Orderly s ∧ (c.run s).OrderlyCalls rest

theorem OrderlyCalls.append {calls more : List Call} (h : s.OrderlyCalls calls)
    (h' : (s.after calls).OrderlyCalls more) : s.OrderlyCalls (calls ++ more) := by
  induction calls generalizing s with
  | nil => exact h'
  | cons c rest ih => exact ⟨h.1, ih h.2 h'⟩

/-- Marking stored paths one after the other is a sequence of orderly calls, and none of them fails. -/
theorem Indexed.updateAll_marked (h : s.Indexed) {paths : List WavelengthPath}
    (hpaths : paths.Pairwise fun p q => p.id < q.id) (hmem : ∀ p ∈ paths, p ∈ s.toList)
    (hunsubmitted : ∀ p ∈ paths, p.submitted = false) :
    ∃ calls, s.OrderlyCalls calls ∧
      s.updateAll (paths.map WavelengthPath.markSubmitted) = (s.after calls, s.events calls, .ok ()) := by
  induction paths generalizing s with
  | nil => exact ⟨[], trivial, rfl⟩
  | cons p rest ih =>
    obtain ⟨hhead, hrest⟩ := List.pairwise_cons.1 hpaths
    obtain ⟨hp, hothers⟩ := List.forall_mem_cons.1 hmem
    obtain ⟨hfirst, hlater⟩ := List.forall_mem_cons.1 hunsubmitted
    have hprev : s.get? p.markSubmitted.id = some p := h.get?_of_mem hp
    have hupdate : s.update p.markSubmitted =
        .ok ((s.unindex p).put p.markSubmitted, [.updated p.markSubmitted]) := by
      simp only [PathStore.update, hprev]
    have hrun : Call.run s (.update p.markSubmitted) = (s.unindex p).put p.markSubmitted := by
      simp only [Call.run, hupdate]
    have hevents : Call.events s (.update p.markSubmitted) = [.updated p.markSubmitted] := by
      simp only [Call.events, hupdate]
    -- the other paths have other ids, so they are stored as they were
    have hstill : ∀ q ∈ rest, q ∈ ((s.unindex p).put p.markSubmitted).toList := by
      intro q hq
      refine (h.mem_toList_update hprev q).2 (.inr (List.mem_filter.2 ⟨hothers q hq, ?_⟩))
      exact decide_eq_true (Nat.ne_of_lt (hhead q hq)).symm
    obtain ⟨calls, horderly, hrests⟩ := ih (h.update hprev) hrest hstill hlater
    refine ⟨.update p.markSubmitted :: calls, ⟨⟨p, hp, hfirst, rfl⟩, ?_⟩, ?_⟩
    · rw [hrun]
      exact horderly
    · rw [events, hevents, hrun]
      simp only [List.map_cons, updateAll, hupdate, hrests]
      rw [PathStore.after, PathStore.after, List.foldl_cons, hrun]

/-! ## Added paths -/

theorem unsubmitted_putAll (s : PathStore) {paths : List WavelengthPath}
    (h : ∀ p ∈ paths, p.submitted = false) : ∀ p ∈ (s.putAll paths).2, p.submitted = false := by
  induction paths generalizing s with
  | nil =>
    intro p hp
    cases hp
  | cons q rest ih =>
    obtain ⟨hq, hrest⟩ := List.forall_mem_cons.1 h
    exact List.forall_mem_cons.2 ⟨hq, ih _ hrest⟩

/-- The ids of added paths are those that follow the last one given out. -/
theorem exists_putAll_iff (s : PathStore) (paths : List WavelengthPath) (id : Nat) :
    (∃ p ∈ (s.putAll paths).2, p.id = id) ↔
      s.lastPathId < id ∧ id ≤ s.lastPathId + paths.length := by
  rw [← List.mem_map, ids_putAll, List.mem_range'_1]
  omega

/-! ## The record -/

/-- The log has a life for every path that was stored. -/
structure Recorded (s : PathStore) (log : List PathEvent) : Prop where
  indexed : s.Indexed
  alive : ∀ p ∈ s.toList, Life (eventsOf log p.id) (some p)
  gone : ∀ id, (∀ p ∈ s.toList, p.id ≠ id) → Life (eventsOf log id) none
  given : ∀ id, eventsOf log id ≠ [] ↔ 0 < id ∧ id ≤ s.lastPathId

theorem recorded_empty : ({} : PathStore).Recorded [] := by
  refine ⟨indexed_empty, fun p hp => absurd hp List.not_mem_nil, fun id _ => .unborn, fun id => ?_⟩
  refine iff_of_false (fun h => h rfl) ?_
  rintro ⟨hpos, hle⟩
  exact absurd hle (Nat.not_le.2 hpos)

namespace Recorded

/-- Events about stored paths are no news about other ids. -/
theorem given_append (h : s.Recorded log) {paths : List WavelengthPath}
    {report : WavelengthPath → PathEvent} (hreport : ∀ p, (report p).path.id = p.id)
    (hmem : ∀ p ∈ paths, p ∈ s.toList) (id : Nat) :
    eventsOf (log ++ paths.map report) id ≠ [] ↔ 0 < id ∧ id ≤ s.lastPathId := by
  rw [← h.given, eventsOf_append]
  by_cases hid : ∃ p ∈ paths, p.id = id
  · obtain ⟨p, hp, rfl⟩ := hid
    simp [(h.alive p (hmem p hp)).ne_nil]
  · have hnone : ∀ p ∈ paths, p.id ≠ id := fun p hp heq => hid ⟨p, hp, heq⟩
    rw [eventsOf_map_of_ne hreport hnone, List.append_nil]

/-- A path that comes under a new id begins its life, and no other one is concerned. -/
theorem add (h : s.Recorded log) {paths : List WavelengthPath}
    (hpaths : ∀ p ∈ paths, p.submitted = false) :
    (Call.run s (.add paths)).Recorded (log ++ Call.events s (.add paths)) := by
  have htoList := h.indexed.toCoherent.toList_add paths
  have hunsubmitted := s.unsubmitted_putAll hpaths
  obtain ⟨hnew, hascending⟩ := s.putAll_ids paths
  have hids := s.exists_putAll_iff paths
  have hevents : Call.events s (.add paths) =
      (s.putAll paths).2.map (additionOf (s.putAll paths).2) := rfl
  generalize (s.putAll paths).2 = stored at htoList hunsubmitted hnew hascending hids hevents
  have hreport (p : WavelengthPath) : (additionOf stored p).path.id = p.id := rfl
  rw [hevents]
  constructor
  case indexed => exact (h.indexed.run _).1
  case alive =>
    intro p hp
    rw [htoList] at hp
    rw [eventsOf_append]
    rcases List.mem_append.1 hp with hp | hp
    · have hold : ∀ q ∈ stored, q.id ≠ p.id := fun q hq =>
        (Nat.ne_of_lt (Nat.lt_of_le_of_lt (h.indexed.bounded p hp) (hnew q hq))).symm
      rw [eventsOf_map_of_ne hreport hold, List.append_nil]
      exact h.alive p hp
    · have hfresh : eventsOf log p.id = [] := by
        refine Classical.not_not.1 fun hne => ?_
        exact absurd ((h.given p.id).1 hne).2 (Nat.not_le.2 (hnew p hp))
      rw [hfresh, List.nil_append, eventsOf_map_of_mem hreport hascending hp]
      exact .reserved p _ (hunsubmitted p hp)
  case gone =>
    intro id hid
    rw [htoList] at hid
    rw [eventsOf_append, eventsOf_map_of_ne hreport fun p hp => hid p (List.mem_append_right _ hp),
      List.append_nil]
    exact h.gone id fun p hp => hid p (List.mem_append_left _ hp)
  case given =>
    intro id
    have hlast : (Call.run s (.add paths)).lastPathId = s.lastPathId + paths.length :=
      s.lastPathId_putAll paths
    rw [hlast, eventsOf_append]
    by_cases hid : ∃ p ∈ stored, p.id = id
    · have hbounds := (hids id).1 hid
      obtain ⟨p, hp, rfl⟩ := hid
      rw [eventsOf_map_of_mem hreport hascending hp]
      refine iff_of_true (by simp) ?_
      omega
    · have hnone : ∀ p ∈ stored, p.id ≠ id := fun p hp heq => hid ⟨p, hp, heq⟩
      have hbounds := mt (hids id).2 hid
      rw [eventsOf_map_of_ne hreport hnone, List.append_nil, h.given]
      omega

/-- A path that is marked goes on with its life. -/
theorem update (h : s.Recorded log) {p : WavelengthPath} (hp : p ∈ s.toList)
    (hunsubmitted : p.submitted = false) :
    (Call.run s (.update p.markSubmitted)).Recorded
      (log ++ Call.events s (.update p.markSubmitted)) := by
  have hprev : s.get? p.markSubmitted.id = some p := h.indexed.get?_of_mem hp
  have htoList : (Call.run s (.update p.markSubmitted)).toList =
      s.toList.map fun q => if q.id = p.id then p.markSubmitted else q :=
    congrArg PathList.paths (h.indexed.run (.update p.markSubmitted)).2
  have hevents : Call.events s (.update p.markSubmitted) =
      [p].map fun p => .updated p.markSubmitted := by
    simp only [Call.events, PathStore.update, hprev, List.map_singleton]
  have hother {id : Nat} (hid : p.id ≠ id) :
      eventsOf ([p].map fun p => PathEvent.updated p.markSubmitted) id = [] :=
    eventsOf_map_of_ne (fun _ => rfl) fun q hq => by rwa [List.mem_singleton.1 hq]
  rw [hevents]
  refine ⟨(h.indexed.run _).1, fun q hq => ?_, fun id hid => ?_, fun id => ?_⟩
  · rw [htoList] at hq
    obtain ⟨r, hr, rfl⟩ := List.mem_map.1 hq
    rw [eventsOf_append]
    by_cases hrp : r.id = p.id
    · rw [if_pos hrp]
      have hsame : eventsOf ([p].map fun p => PathEvent.updated p.markSubmitted) p.id =
          [.updated p.markSubmitted] :=
        eventsOf_map_of_mem (fun _ => rfl) (List.pairwise_singleton _ p) (List.mem_singleton.2 rfl)
      show Life (eventsOf log p.id ++ eventsOf _ p.id) _
      rw [hsame]
      exact (h.alive p hp).submit hunsubmitted
    · rw [if_neg hrp, hother (Ne.symm hrp), List.append_nil]
      exact h.alive r hr
  · -- what is stored keeps its ids
    have hnone : ∀ q ∈ s.toList, q.id ≠ id := by
      intro q hq heq
      refine hid (if q.id = p.id then p.markSubmitted else q) ?_ ?_
      · rw [htoList]
        exact List.mem_map_of_mem hq
      · split
        next hqp => exact hqp.symm.trans heq
        next => exact heq
    rw [eventsOf_append, hother (hnone p hp), List.append_nil]
    exact h.gone id hnone
  · rw [(s.counters_update p.markSubmitted).1]
    refine h.given_append (fun _ => rfl) (fun q hq => ?_) id
    rwa [List.mem_singleton.1 hq]

/-- The paths of a removed group end their lives. -/
theorem removeGroup (h : s.Recorded log) (group : Nat) :
    (Call.run s (.removeGroup group)).Recorded (log ++ Call.events s (.removeGroup group)) := by
  have htoList : (Call.run s (.removeGroup group)).toList =
      s.toList.filter fun p => p.group != group := h.indexed.toList_removeGroup group
  have hevents : Call.events s (.removeGroup group) = (s.legs group).map .removed := by
    simp only [Call.events, h.indexed.removeGroup_eq]
  have hreport (p : WavelengthPath) : (PathEvent.removed p).path.id = p.id := rfl
  rw [hevents]
  refine ⟨(h.indexed.run _).1, fun p hp => ?_, fun id hid => ?_, fun id => ?_⟩
  · rw [htoList, List.mem_filter, bne_iff_ne] at hp
    have hother : ∀ q ∈ s.legs group, q.id ≠ p.id := by
      intro q hq hid
      obtain ⟨hq, hgroup⟩ := mem_legs.1 hq
      exact hp.2 (h.indexed.eq_of_id_eq hq hp.1 hid ▸ hgroup)
    rw [eventsOf_append, eventsOf_map_of_ne hreport hother, List.append_nil]
    exact h.alive p hp.1
  · rw [eventsOf_append]
    by_cases hstored : ∃ p ∈ s.toList, p.id = id
    · obtain ⟨p, hp, rfl⟩ := hstored
      -- a path that is stored no more was one of the group
      have hgroup : p.group = group := Classical.not_not.1 fun hgroup =>
        hid p (htoList ▸ List.mem_filter.2 ⟨hp, bne_iff_ne.2 hgroup⟩) rfl
      have hleg : p ∈ s.legs group := mem_legs.2 ⟨hp, hgroup⟩
      rw [eventsOf_map_of_mem hreport (h.indexed.legs_ascending group) hleg]
      exact (h.alive p hp).remove
    · have hnone : ∀ p ∈ s.toList, p.id ≠ id := fun p hp heq => hstored ⟨p, hp, heq⟩
      rw [eventsOf_map_of_ne hreport fun p hp => hnone p (mem_legs.1 hp).1, List.append_nil]
      exact h.gone id hnone
  · have hlast : (Call.run s (.removeGroup group)).lastPathId = s.lastPathId :=
      (s.counters_foldl_discard _).1
    rw [hlast]
    exact h.given_append hreport (fun p hp => (mem_legs.1 hp).1) id

/-- Every orderly call keeps the record. -/
theorem run (h : s.Recorded log) {c : Call} (hc : c.Orderly s) :
    (c.run s).Recorded (log ++ c.events s) := by
  cases c with
  | add paths => exact h.add hc
  | update p =>
    obtain ⟨q, hq, hunsubmitted, rfl⟩ := hc
    exact h.update hq hunsubmitted
  | removeGroup group => exact h.removeGroup group
  | issueGroup =>
    rw [Call.events, List.append_nil]
    exact ⟨(h.indexed.run .issueGroup).1, h.alive, h.gone, h.given⟩
  | releaseGroup group =>
    have hindexed := (h.indexed.run (.releaseGroup group)).1
    rw [Call.events, List.append_nil]
    simp only [Call.run, PathStore.releaseGroup] at hindexed ⊢
    split at hindexed
    next hcan =>
      rw [if_pos hcan]
      exact ⟨hindexed, h.alive, h.gone, h.given⟩
    next hcannot =>
      rw [if_neg hcannot]
      exact h

/-- Orderly calls keep the record. -/
theorem after (h : s.Recorded log) {calls : List Call} (hcalls : s.OrderlyCalls calls) :
    (s.after calls).Recorded (log ++ s.events calls) := by
  induction calls generalizing s log with
  | nil =>
    rw [show s.events [] = [] from rfl, List.append_nil]
    exact h
  | cons c rest ih =>
    rw [events, ← List.append_assoc]
    exact ih (h.run hcalls.1) hcalls.2

/-- Every id has the life that the log tells, with what is stored under it. -/
theorem life (h : s.Recorded log) (id : Nat) : Life (eventsOf log id) (s.get? id) := by
  cases hget : s.get? id with
  | some p =>
    have hid : p.id = id := h.indexed.keyed.of_find? hget
    have hp : p ∈ s.toList := SortedMap.mem_values_iff.2 ⟨id, hget⟩
    rw [← hid]
    exact h.alive p hp
  | none =>
    refine h.gone id fun p hp hid => ?_
    rw [← hid, h.indexed.get?_of_mem hp] at hget
    cases hget

end Recorded

end PathStore

end Lightpath

import Lightpath.Proofs.Wavelength.Ids

/-!
# Events — the store told by what it reports

A listener that was there from the start keeps a list of its own: it appends a path that was added, replaces
one that was updated by its id, and deletes one that was removed by its id (`PathEvent.heard`). Whatever calls
the store gets, the list is the one of the stored paths (`CompleteLog`). It is so after every event and not
only in the end: no event comes that does not fit what the listener knows (`Replays`).

A call reports each path that it stores once, with the other legs of its group as coupled paths, and a call
that fails reports nothing (`Call.Reports`).
-/

namespace Lightpath

/-! ## Listening -/

namespace PathEvent

/-- What a listener knows after an event, if it knew these paths before. -/
def heard (known : List WavelengthPath) : PathEvent → List WavelengthPath
  | .added p _ => known ++ [p]
  | .updated p => known.map fun q => if q.id = p.id then p else q
  | .removed p => known.filter fun q => q.id ≠ p.id

/-- An event fits what a listener knows: an added path is a new one, an updated path replaces a known one,
and a removed path is a known one, as it was. -/
def Fits (known : List WavelengthPath) : PathEvent → Prop
  | .added p _ => ∀ q ∈ known, q.id ≠ p.id
  | .updated p => ∃ q ∈ known, q.id = p.id
  | .removed p => p ∈ known

end PathEvent

/-- Events that fit lead a listener from one list of known paths to another one. -/
inductive Replays : List WavelengthPath → List PathEvent → List WavelengthPath → Prop
  | nil (known : List WavelengthPath) : Replays known [] known
  | cons {known known' : List WavelengthPath} {e : PathEvent} {rest : List PathEvent}
      (hfits : e.Fits known) (hrest : Replays (e.heard known) rest known') :
      Replays known (e :: rest) known'

namespace Replays

variable {known known' known'' : List WavelengthPath} {events more : List PathEvent}

theorem append (h : Replays known events known') (h' : Replays known' more known'') :
    Replays known (events ++ more) known'' := by
  induction h with
  | nil => exact h'
  | cons hfits _ ih => exact .cons hfits (ih h')

/-- The list that events lead to is the fold of the events. -/
theorem foldl_heard (h : Replays known events known') :
    events.foldl PathEvent.heard known = known' := by
  induction h with
  | nil => rfl
  | cons _ _ ih => exact ih

/-- Added paths are appended if no known one has their ids, and no two of them have the same one. -/
theorem additions {paths : List WavelengthPath} (coupled : WavelengthPath → List Nat)
    (hnew : ∀ p ∈ paths, ∀ q ∈ known, q.id ≠ p.id) (hdistinct : paths.Pairwise fun p q => p.id ≠ q.id) :
    Replays known (paths.map fun p => .added p (coupled p)) (known ++ paths) := by
  induction paths generalizing known with
  | nil =>
    rw [List.append_nil]
    exact .nil known
  | cons p rest ih =>
    obtain ⟨hhead, hrest⟩ := List.pairwise_cons.1 hdistinct
    rw [List.append_cons]
    refine .cons (hnew p List.mem_cons_self) (ih (fun q hq r hr => ?_) hrest)
    rcases List.mem_append.1 hr with hr | hr
    · exact hnew q (List.mem_cons_of_mem _ hq) r hr
    · rw [List.mem_singleton.1 hr]
      exact hhead q hq

/-- Removed paths are deleted if they are known, each with an id of its own. -/
theorem removals {paths : List WavelengthPath} (hknown : ∀ p ∈ paths, p ∈ known)
    (hdistinct : paths.Pairwise fun p q => p.id ≠ q.id) :
    Replays known (paths.map .removed) (known.filter fun q => q.id ∉ paths.map WavelengthPath.id) := by
  induction paths generalizing known with
  | nil =>
    rw [List.filter_eq_self.2 (by simp)]
    exact .nil known
  | cons p rest ih =>
    obtain ⟨hhead, hrest⟩ := List.pairwise_cons.1 hdistinct
    have hleft : (known.filter fun q => q.id ∉ (p :: rest).map WavelengthPath.id) =
        (known.filter fun q => q.id ≠ p.id).filter fun q => q.id ∉ rest.map WavelengthPath.id := by
      rw [List.filter_filter]
      refine List.filter_congr fun q _ => ?_
      by_cases hq : q.id = p.id <;> simp [hq]
    rw [hleft]
    refine .cons (hknown p List.mem_cons_self) (ih (fun q hq => ?_) hrest)
    rw [PathEvent.heard, List.mem_filter, decide_eq_true_eq]
    exact ⟨hknown q (List.mem_cons_of_mem _ hq), Ne.symm (hhead q hq)⟩

end Replays

namespace PathStore

variable {s : PathStore}

/-! ## Reports -/

/-- What a call reports. -/
def Call.events (s : PathStore) : Call → List PathEvent
  | .add paths => (s.add paths).2.2
  | .update p =>
    match s.update p with
    | .ok (_, events) => events
    | .error _ => []
  | .removeGroup group => (s.removeGroup group).2.2
  | .issueGroup => []
  | .releaseGroup _ => []

/-- What a sequence of calls reports, in order. -/
def events (s : PathStore) : List Call → List PathEvent
  | [] => []
  | c :: rest => c.events s ++ (c.run s).events rest

theorem events_append (s : PathStore) (calls more : List Call) :
    s.events (calls ++ more) = s.events calls ++ (s.after calls).events more := by
  induction calls generalizing s with
  | nil => rfl
  | cons c rest ih =>
    rw [List.cons_append, events, events, ih, List.append_assoc]
    rfl

/-- The ids of added paths are beyond those given out before, and no two are the same. -/
theorem putAll_ids (s : PathStore) (paths : List WavelengthPath) :
    (∀ p ∈ (s.putAll paths).2, s.lastPathId < p.id) ∧
      (s.putAll paths).2.Pairwise fun p q => p.id < q.id := by
  have hids := s.ids_putAll paths
  constructor
  · intro p hp
    have hmem : p.id ∈ List.range' (s.lastPathId + 1) paths.length :=
      hids ▸ List.mem_map_of_mem hp
    exact (List.mem_range'_1.1 hmem).1
  · rw [← List.pairwise_map, hids]
    exact List.pairwise_lt_range'

/-- Added paths are listed last. -/
theorem Coherent.toList_add (h : s.Coherent) (paths : List WavelengthPath) :
    (Call.run s (.add paths)).toList = s.toList ++ (s.putAll paths).2 := by
  obtain ⟨s', hput, -, hlist, -⟩ := h.putAll paths
  rw [hput]
  exact (congrArg (fun x => x.1.toList) hput).trans hlist

/-- What a call reports leads from the paths stored before to those stored after it. -/
theorem Indexed.replays_run (h : s.Indexed) (c : Call) :
    Replays s.toList (c.events s) (c.run s).toList := by
  have hlist : (c.run s).toList = (c.onList s.listing).paths := congrArg PathList.paths (h.run c).2
  cases c with
  | issueGroup => exact .nil _
  | releaseGroup group =>
    rw [hlist]
    exact .nil _
  | add paths =>
    obtain ⟨hnew, hascending⟩ := s.putAll_ids paths
    rw [h.toCoherent.toList_add]
    refine Replays.additions _ (fun p hp q hq => ?_) (hascending.imp Nat.ne_of_lt)
    exact Nat.ne_of_lt (Nat.lt_of_le_of_lt (h.bounded q hq) (hnew p hp))
  | update p =>
    rw [hlist]
    simp only [Call.events, PathStore.update]
    cases hprev : s.get? p.id with
    | some prev =>
      have hid : prev.id = p.id := h.keyed.of_find? hprev
      exact .cons ⟨prev, SortedMap.mem_values_iff.2 ⟨_, hprev⟩, hid⟩ (.nil _)
    | none =>
      -- nothing is replaced in the list if no path has the id
      have hkeep : (s.toList.map fun q => if q.id = p.id then p else q) = s.toList := by
        refine (List.map_congr_left fun q hq => if_neg fun hid => ?_).trans (List.map_id' _)
        rw [← hid, h.get?_of_mem hq] at hprev
        cases hprev
      show Replays s.toList [] (s.toList.map fun q => if q.id = p.id then p else q)
      rw [hkeep]
      exact .nil _
  | removeGroup group =>
    have hgone := Replays.removals (fun p hp => (mem_legs.1 hp).1)
      ((h.legs_ascending group).imp Nat.ne_of_lt)
    have hleft : (s.toList.filter fun q => q.id ∉ (s.legs group).map WavelengthPath.id) =
        s.toList.filter fun p => p.group != group := by
      apply List.filter_congr
      intro q hq
      by_cases hqg : q.group = group <;> simp [h.mem_ids_legs hq, hqg]
    rw [hleft] at hgone
    rw [hlist]
    simp only [Call.events, h.removeGroup_eq]
    exact hgone

/-- What calls report leads from the paths stored before to those stored after them. -/
theorem Indexed.replays_after (h : s.Indexed) (calls : List Call) :
    Replays s.toList (s.events calls) (s.after calls).toList := by
  induction calls generalizing s with
  | nil => exact .nil _
  | cons c rest ih => exact (h.replays_run c).append (ih (h.run c).1)

/-- What is reported of one call. -/
structure Call.Reports (s : PathStore) (c : Call) : Prop where
  /-- Each path that is stored is reported as added, in the order of the answer. -/
  added : ∀ paths, c = .add paths → (c.events s).map PathEvent.path = (s.add paths).2.1
  /-- A path is reported as added only if it was stored in this call. Coupled are the other paths that were
  stored in the same call with the same group. -/
  coupled : ∀ p ids, .added p ids ∈ c.events s → ∃ paths, c = .add paths ∧
    p ∈ (s.add paths).2.1 ∧ ids.Nodup ∧
      ∀ id, id ∈ ids ↔ ∃ q ∈ (s.add paths).2.1, q.id = id ∧ q.id ≠ p.id ∧ q.group = p.group
  /-- A call that fails reports nothing and changes nothing. -/
  failing : ∀ p f, c = .update p → s.update p = .error f → c.events s = [] ∧ c.run s = s

theorem reports (s : PathStore) (c : Call) : c.Reports s := by
  constructor
  case added =>
    rintro paths rfl
    show ((s.putAll paths).2.map (additionOf (s.putAll paths).2)).map PathEvent.path = _
    rw [List.map_map]
    exact List.map_id' _
  case coupled =>
    intro p ids hreport
    cases c with
    | add paths =>
      obtain ⟨q, hq, heq⟩ := List.mem_map.1 hreport
      cases heq
      refine ⟨paths, rfl, hq, ?_, fun id => ?_⟩
      · rw [List.Nodup, List.pairwise_map]
        exact ((s.putAll_ids paths).2.filter _).imp Nat.ne_of_lt
      · show id ∈ ((s.putAll paths).2.filter _).map WavelengthPath.id ↔
          ∃ q ∈ (s.putAll paths).2, _
        simp only [List.mem_map, List.mem_filter, Bool.and_eq_true, bne_iff_ne, beq_iff_eq]
        constructor
        · rintro ⟨r, ⟨hr, hother, hgroup⟩, hid⟩
          exact ⟨r, hr, hid, hother, hgroup⟩
        · rintro ⟨r, hr, hid, hother, hgroup⟩
          exact ⟨r, ⟨hr, hother, hgroup⟩, hid⟩
    | update q =>
      simp only [Call.events, PathStore.update] at hreport
      cases hprev : s.get? q.id with
      | none => simp [hprev] at hreport
      | some prev => simp [hprev] at hreport
    | removeGroup group => simp [Call.events, PathStore.removeGroup] at hreport
    | issueGroup => cases hreport
    | releaseGroup group => cases hreport
  case failing =>
    rintro p f rfl hf
    simp only [Call.events, Call.run, hf, and_self]

/-- What a listener makes of the events of a sequence of calls on an empty store. -/
structure CompleteLog (calls : List Call) : Prop where
  /-- It ends with the stored paths. -/
  stored : (({} : PathStore).events calls).foldl PathEvent.heard [] = (({} : PathStore).after calls).toList
  /-- Every event fits what it knows when the event comes. -/
  fits : Replays [] (({} : PathStore).events calls) (({} : PathStore).after calls).toList
  /-- What each call reports comes after the reports of the calls before. -/
  ordered : ∀ before c more, calls = before ++ c :: more →
    ({} : PathStore).events calls = ({} : PathStore).events before ++
      c.events (({} : PathStore).after before) ++ (({} : PathStore).after (before ++ [c])).events more ∧
    c.Reports (({} : PathStore).after before)

theorem completeLog (calls : List Call) : CompleteLog calls := by
  have hreplays : Replays [] _ _ := indexed_empty.replays_after calls
  constructor
  case stored => exact hreplays.foldl_heard
  case fits => exact hreplays
  case ordered =>
    rintro before c more rfl
    refine ⟨?_, reports _ c⟩
    rw [List.append_cons, events_append, events_append, events, events, List.append_nil]

end PathStore

end Lightpath

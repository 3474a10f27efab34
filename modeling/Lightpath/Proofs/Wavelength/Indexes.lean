import Lightpath.Proofs.Wavelength.Legs

/-!
# Indexes — the path store refines a plain list

A path store is changed by five calls (`PathStore.Call`). Whatever sequence of them it goes through, it
stands for a plain list of paths in the order of their ids (`PathStore.Refines`): each look-up, by id, by
group, by transponder port and by port pair, is a filter of that list, and each call edits the list
(`indexes_refine_list`).

The indexes by port and by port pair are kept like the index by group: what one of them lists is said by
`Lists`, and `Indexed` adds both to a coherent store.
-/

namespace Lightpath

/-- The paths that a store stands for, in the order of their ids, and the last id given out. -/
structure PathList where
  last : Nat := 0
  paths : List WavelengthPath := []

theorem WavelengthPath.terminatesAt_iff {p : WavelengthPath} {cp : ConnectPoint} :
    p.terminatesAt cp = true ↔ p.leg.src = cp ∨ p.leg.dst = cp := by
  simp [terminatesAt]

namespace PathStore

/-! ## Calls -/

/-- A call that changes the store or its counters. -/
inductive Call where
  | add (paths : List WavelengthPath)
  | update (p : WavelengthPath)
  | removeGroup (group : Nat)
  | issueGroup
  | releaseGroup (group : Nat)

/-- The store after a call. A failing update leaves it as it is. -/
def Call.run (s : PathStore) : Call → PathStore
  | .add paths => (s.add paths).1
  | .update p =>
    match s.update p with
    | .ok (s', _) => s'
    | .error _ => s
  | .removeGroup group => (s.removeGroup group).1
  | .issueGroup => s.issueGroup.2
  | .releaseGroup group => s.releaseGroup group

/-- The store after a sequence of calls. -/
def after (s : PathStore) (calls : List Call) : PathStore := calls.foldl Call.run s

/-- What a call does to a plain list of paths. -/
def Call.onList (l : PathList) : Call → PathList
  | .add paths => ⟨l.last + paths.length, l.paths ++ numbered l.last paths⟩
  | .update p => { l with paths := l.paths.map fun q => if q.id = p.id then p else q }
  | .removeGroup group => { l with paths := l.paths.filter fun p => p.group != group }
  | .issueGroup => l
  | .releaseGroup _ => l

variable {s : PathStore}

/-- The plain list of a store. -/
def listing (s : PathStore) : PathList := ⟨s.lastPathId, s.toList⟩

theorem putAll_cons (s : PathStore) (p : WavelengthPath) (rest : List WavelengthPath) :
    (s.putAll (p :: rest)).1 =
      ({ s.put { p with id := s.lastPathId + 1 } with lastPathId := s.lastPathId + 1 }.putAll
        rest).1 :=
  rfl

theorem lastPathId_putAll (s : PathStore) (paths : List WavelengthPath) :
    (s.putAll paths).1.lastPathId = s.lastPathId + paths.length := by
  induction paths generalizing s with
  | nil => rfl
  | cons p rest ih =>
    rw [putAll_cons, ih, List.length_cons]
    show s.lastPathId + 1 + rest.length = _
    omega

/-- Deleting paths leaves both counters. -/
theorem counters_foldl_discard (s : PathStore) (paths : List WavelengthPath) :
    (paths.foldl discard s).lastPathId = s.lastPathId ∧
      (paths.foldl discard s).lastGroupId = s.lastGroupId := by
  induction paths generalizing s with
  | nil => exact ⟨rfl, rfl⟩
  | cons p rest ih => exact ih (s.discard p)

/-! ## Indexes by port and by port pair -/

/-- The index by transponder port lists the paths that start or end there, and the index by port pair
those that join the two ports. -/
structure Indexed (s : PathStore) : Prop extends s.Coherent where
  terminals : Lists s.byTerminal (fun p cp => p.leg.src = cp ∨ p.leg.dst = cp) s.toList
  pairs : Lists s.byPair (fun p e => p.leg.ends.ascending = e) s.toList

theorem indexed_empty : ({} : PathStore).Indexed :=
  ⟨coherent_of_empty rfl rfl, lists_nil, lists_nil⟩

theorem mem_ids_add_terminals {index : Index ConnectPoint} {l : Leg} {cp : ConnectPoint}
    {id id' : Nat} : id' ∈ ((index.add l.src id).add l.dst id).ids cp ↔
      (l.src = cp ∨ l.dst = cp) ∧ id' = id ∨ id' ∈ index.ids cp := by
  simp only [Index.mem_ids_add, eq_comm (a := cp), or_and_right]
  rw [← or_assoc, or_comm (a := l.dst = cp ∧ id' = id)]

theorem mem_ids_drop_terminals {index : Index ConnectPoint} {l : Leg} {cp : ConnectPoint}
    {id id' : Nat} : id' ∈ ((index.drop l.src id).drop l.dst id).ids cp ↔
      id' ∈ index.ids cp ∧ ¬((l.src = cp ∨ l.dst = cp) ∧ id' = id) := by
  simp only [Index.mem_ids_drop, eq_comm (a := cp), or_and_right, not_or, and_assoc]

namespace Indexed

theorem put (h : s.Indexed) {p : WavelengthPath} (hid : s.lastPathId < p.id) :
    { s.put p with lastPathId := p.id }.Indexed := by
  refine ⟨h.toCoherent.put hid, ?_, ?_⟩
  · exact h.terminals.enter (fun _ _ => mem_ids_add_terminals) (h.mem_toList_put hid)
  · refine h.pairs.enter (fun e id => ?_) (h.mem_toList_put hid)
    show id ∈ (s.byPair.add p.leg.ends.ascending p.id).ids e ↔ _
    rw [Index.mem_ids_add, eq_comm (a := e)]

theorem putAll (h : s.Indexed) (paths : List WavelengthPath) : (s.putAll paths).1.Indexed := by
  induction paths generalizing s with
  | nil => exact h
  | cons p rest ih =>
    rw [putAll_cons]
    exact ih (h.put (p := { p with id := s.lastPathId + 1 }) (Nat.lt_succ_self _))

theorem update (h : s.Indexed) {p prev : WavelengthPath} (hprev : s.get? p.id = some prev) :
    ((s.unindex prev).put p).Indexed := by
  refine ⟨h.toCoherent.update hprev, ?_, ?_⟩
  · exact h.lists_update hprev h.terminals _ (fun _ _ => mem_ids_drop_terminals)
      fun _ _ => mem_ids_add_terminals
  · refine h.lists_update hprev h.pairs (s.byPair.drop prev.leg.ends.ascending prev.id)
      (fun e id => ?_) fun e id => ?_
    · rw [Index.mem_ids_drop, eq_comm (a := e)]
    · show id ∈ ((s.byPair.drop _ _).add p.leg.ends.ascending p.id).ids e ↔ _
      rw [Index.mem_ids_add, eq_comm (a := e)]

theorem discard (h : s.Indexed) {p : WavelengthPath} (hp : p ∈ s.toList) :
    (s.discard p).Indexed := by
  have hunique : ∀ q ∈ s.toList, q.id = p.id → q = p := fun q hq hid => h.eq_of_id_eq hq hp hid
  refine ⟨h.toCoherent.discard hp, ?_, ?_⟩
  · exact h.terminals.leave hunique (fun _ _ => mem_ids_drop_terminals) (h.mem_toList_discard p)
  · refine h.pairs.leave hunique (fun e id => ?_) (h.mem_toList_discard p)
    show id ∈ (s.byPair.drop p.leg.ends.ascending p.id).ids e ↔ _
    rw [Index.mem_ids_drop, eq_comm (a := e)]

/-- Every call keeps the indexes and edits the listing as it edits a plain list. -/
theorem run (h : s.Indexed) (c : Call) : (c.run s).Indexed ∧ (c.run s).listing = c.onList s.listing := by
  cases c with
  | issueGroup => exact ⟨⟨⟨h.keyed, h.bounded, h.grouped⟩, h.terminals, h.pairs⟩, rfl⟩
  | releaseGroup group =>
    simp only [Call.run, PathStore.releaseGroup]
    split
    · exact ⟨⟨⟨h.keyed, h.bounded, h.grouped⟩, h.terminals, h.pairs⟩, rfl⟩
    · exact ⟨h, rfl⟩
  | add paths =>
    obtain ⟨s', hput, -, hlist, -⟩ := h.toCoherent.putAll paths
    have hlast := s.lastPathId_putAll paths
    have hindexed := h.putAll paths
    rw [hput] at hlast hindexed
    have hrun : Call.run s (.add paths) = s' := by
      simp only [Call.run, PathStore.add, hput]
    rw [hrun]
    exact ⟨hindexed, by rw [listing, hlast, hlist]; rfl⟩
  | update p =>
    cases hprev : s.get? p.id with
    | some prev =>
      have hrun : Call.run s (.update p) = (s.unindex prev).put p := by
        simp only [Call.run, PathStore.update, hprev]
      rw [hrun]
      exact ⟨h.update hprev, by rw [listing, h.toList_update hprev]; rfl⟩
    | none =>
      have hrun : Call.run s (.update p) = s := by simp only [Call.run, PathStore.update, hprev]
      have hkeep : s.toList.map (fun q => if q.id = p.id then p else q) = s.toList := by
        refine (List.map_congr_left fun q hq => if_neg fun hid => ?_).trans (List.map_id' _)
        rw [← hid, h.get?_of_mem hq] at hprev
        cases hprev
      rw [hrun]
      refine ⟨h, ?_⟩
      show s.listing = ⟨s.lastPathId, s.toList.map fun q => if q.id = p.id then p else q⟩
      rw [hkeep]
      rfl
  | removeGroup group =>
    have hlist := h.toList_removeGroup group
    have hindexed : ((s.legs group).foldl PathStore.discard s).Indexed :=
      h.foldl_discard_induction (P := fun _ s' => s'.Indexed) (h.legs_ascending group)
        (fun p hp => (mem_legs.1 hp).1) h fun _ _ _ _ hp hs' => hs'.discard hp
    have hlast := (s.counters_foldl_discard (s.legs group)).1
    have hrun : Call.run s (.removeGroup group) = (s.legs group).foldl PathStore.discard s := by
      simp only [Call.run, h.removeGroup_eq]
    rw [h.removeGroup_eq] at hlist
    rw [hrun]
    exact ⟨hindexed, by rw [listing, hlast, hlist]; rfl⟩

theorem after (h : s.Indexed) (calls : List Call) :
    (s.after calls).Indexed ∧ (s.after calls).listing = calls.foldl Call.onList s.listing := by
  induction calls generalizing s with
  | nil => exact ⟨h, rfl⟩
  | cons c rest ih =>
    obtain ⟨hindexed, hlist⟩ := h.run c
    rw [List.foldl_cons, ← hlist]
    exact ih hindexed

end Indexed

/-! ## The refinement -/

/-- A store stands for a list of paths: what is looked up is read off the list. -/
structure Refines (s : PathStore) (l : PathList) : Prop where
  /-- The paths are listed in the order of their ids, each once. -/
  ascending : l.paths.Pairwise fun p q => p.id < q.id
  size : s.size = l.paths.length
  get : ∀ id, s.get? id = l.paths.find? fun p => p.id == id
  getGroup : ∀ g, s.getGroup g = l.paths.filter fun p => p.group == g
  getAll : s.getPaths none none = l.paths
  getIngress : ∀ cp, s.getPaths (some cp) none = l.paths.filter fun p => p.terminatesAt cp
  getEgress : ∀ cp, s.getPaths none (some cp) = l.paths.filter fun p => p.terminatesAt cp
  /-- Between two ports are the paths that join them in either direction. -/
  getBetween : ∀ i e, s.getPaths (some i) (some e) =
    l.paths.filter fun p => p.leg.ends = ⟨i, e⟩ ∨ p.leg.ends = ⟨e, i⟩
  /-- Added paths are answered under the ids that follow the last one given out. -/
  added : ∀ paths, (s.add paths).2.1 = numbered l.last paths
  /-- A path can be updated exactly if one with its id is stored. -/
  updates_iff : ∀ p, (s.update p).isOk = true ↔ ∃ q ∈ l.paths, q.id = p.id
  /-- Removing a group answers what the look-up of the group finds, and leaves the rest. -/
  removed : ∀ g, (s.removeGroup g).2.1 = s.getGroup g ∧
    (s.removeGroup g).1.toList = l.paths.filter fun p => p.group != g

namespace Indexed

theorem getTerminal (h : s.Indexed) (cp : ConnectPoint) :
    s.resolve (s.byTerminal.ids cp) = s.toList.filter fun p => p.terminatesAt cp := by
  rw [h.resolve_eq_filter h.terminals]
  refine List.filter_congr fun p _ => ?_
  rw [Bool.eq_iff_iff, decide_eq_true_iff, WavelengthPath.terminatesAt_iff]

theorem getBetween (h : s.Indexed) (i e : ConnectPoint) : s.getPaths (some i) (some e) =
    s.toList.filter fun p => p.leg.ends = ⟨i, e⟩ ∨ p.leg.ends = ⟨e, i⟩ := by
  refine (h.resolve_eq_filter h.pairs _).trans (List.filter_congr fun p _ => ?_)
  simp only [Ends.ascending_eq_iff]
  rfl

theorem find?_id (h : s.Indexed) (id : Nat) : s.get? id = s.toList.find? fun p => p.id == id := by
  cases hfind : s.toList.find? fun p => p.id == id with
  | some p =>
    have hid : p.id = id := by simpa using List.find?_some hfind
    rw [← hid]
    exact h.get?_of_mem (List.mem_of_find?_eq_some hfind)
  | none =>
    cases hget : s.get? id with
    | none => rfl
    | some p =>
      have hp : p ∈ s.toList := SortedMap.mem_values_iff.2 ⟨id, hget⟩
      have hid : p.id = id := h.keyed.of_find? hget
      exact absurd hid (by simpa using List.find?_eq_none.1 hfind p hp)

/-- A store whose indexes list what they should stands for its listing. -/
theorem refines (h : s.Indexed) : s.Refines s.listing where
  ascending := h.toList_ascending
  size := (List.length_map _).symm
  get := h.find?_id
  getGroup := h.getGroup_eq_legs
  getAll := rfl
  getIngress := h.getTerminal
  getEgress := h.getTerminal
  getBetween := h.getBetween
  added paths := by
    obtain ⟨s', hput, -⟩ := h.toCoherent.putAll paths
    simp only [PathStore.add, hput]
    rfl
  updates_iff p := by
    rw [PathStore.update, h.find?_id]
    show _ ↔ ∃ q ∈ s.toList, q.id = p.id
    cases hfind : s.toList.find? fun q => q.id == p.id with
    | some q =>
      have hid : q.id = p.id := by simpa using List.find?_some hfind
      exact iff_of_true rfl ⟨q, List.mem_of_find?_eq_some hfind, hid⟩
    | none =>
      refine iff_of_false (by simp [Except.isOk, Except.toBool]) ?_
      rintro ⟨q, hq, hid⟩
      exact absurd hid (by simpa using List.find?_eq_none.1 hfind q hq)
  removed g := ⟨rfl, h.toList_removeGroup g⟩

end Indexed

/-- After any calls the store stands for the list that the same calls make of the empty list. -/
theorem indexes_refine_list (calls : List Call) :
    (({} : PathStore).after calls).Refines (calls.foldl Call.onList {}) := by
  obtain ⟨hindexed, hlist⟩ := indexed_empty.after calls
  rw [show calls.foldl Call.onList {} = _ from hlist.symm]
  exact hindexed.refines

end PathStore

end Lightpath

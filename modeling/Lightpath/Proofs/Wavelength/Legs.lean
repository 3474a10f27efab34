import Lightpath.Wavelength.Store

/-!
# Legs — the stored paths of a group

In a `Coherent` store the index by group lists exactly the stored paths of every group, so that
`getGroup` is a filter of all stored paths (`getGroup_eq_legs`). Every operation of the store keeps it
coherent and has one equation for the list of all stored paths.

What an index `Lists` is said once for any kind of key: what happens to it when a path comes and when a
path goes (`Lists.enter`, `Lists.leave`), and that looking up through it is a filter of all stored paths
(`Coherent.resolve_eq_filter`).
-/

namespace Lightpath

namespace PathStore

/-! ## Indexes of paths -/

section Lists

variable {κ : Type} [Ord κ] {index index' : Index κ} {uses : WavelengthPath → κ → Prop}
  {paths paths' : List WavelengthPath} {p : WavelengthPath}

/-- An index lists under each key the ids of the paths that use it. -/
def Lists (index : Index κ) (uses : WavelengthPath → κ → Prop) (paths : List WavelengthPath) : Prop :=
  ∀ k id, id ∈ index.ids k ↔ ∃ p ∈ paths, p.id = id ∧ uses p k

theorem lists_nil {uses : WavelengthPath → κ → Prop} : Lists (∅ : Index κ) uses [] := by
  intro k id
  have hids : (∅ : Index κ).ids k = ∅ := rfl
  rw [hids]
  exact iff_of_false SortedSet.not_mem_empty (by simp)

/-- A path comes, and its id is put under the keys that it uses. -/
theorem Lists.enter (h : Lists index uses paths)
    (hindex : ∀ k id, id ∈ index'.ids k ↔ uses p k ∧ id = p.id ∨ id ∈ index.ids k)
    (hpaths : ∀ q, q ∈ paths' ↔ q = p ∨ q ∈ paths) : Lists index' uses paths' := by
  intro k id
  rw [hindex, h k id]
  constructor
  · rintro (⟨hk, rfl⟩ | ⟨q, hq, hqk⟩)
    · exact ⟨p, (hpaths p).2 (.inl rfl), rfl, hk⟩
    · exact ⟨q, (hpaths q).2 (.inr hq), hqk⟩
  · rintro ⟨q, hq, hqid, hqk⟩
    rcases (hpaths q).1 hq with rfl | hq
    · exact .inl ⟨hqk, hqid.symm⟩
    · exact .inr ⟨q, hq, hqid, hqk⟩

/-- A path goes, and its id is taken away from the keys that it used. -/
theorem Lists.leave (h : Lists index uses paths) (hunique : ∀ q ∈ paths, q.id = p.id → q = p)
    (hindex : ∀ k id, id ∈ index'.ids k ↔ id ∈ index.ids k ∧ ¬(uses p k ∧ id = p.id))
    (hpaths : ∀ q, q ∈ paths' ↔ q ∈ paths ∧ q.id ≠ p.id) : Lists index' uses paths' := by
  intro k id
  rw [hindex, h k id]
  constructor
  · rintro ⟨⟨q, hq, rfl, hk⟩, hother⟩
    refine ⟨q, (hpaths q).2 ⟨hq, fun hid => hother ?_⟩, rfl, hk⟩
    exact ⟨hunique q hq hid ▸ hk, hid⟩
  · rintro ⟨q, hq, rfl, hk⟩
    obtain ⟨hq, hne⟩ := (hpaths q).1 hq
    exact ⟨⟨q, hq, rfl, hk⟩, fun hand => hne hand.2⟩

end Lists

/-! ## Coherent stores -/

/-- The stored paths of a group in the order of their ids. -/
def legs (s : PathStore) (g : Nat) : List WavelengthPath := s.toList.filter (fun p => p.group == g)

/-- Every path stands under its id, no id is beyond the last one given out, and the index by group
lists exactly the paths of every group. -/
structure Coherent (s : PathStore) : Prop where
  keyed : s.paths.Keyed WavelengthPath.id
  bounded : ∀ p ∈ s.toList, p.id ≤ s.lastPathId
  grouped : ∀ g id, id ∈ s.byGroup.ids g ↔ ∃ p ∈ s.toList, p.id = id ∧ p.group = g

variable {s : PathStore}

theorem mem_legs {g : Nat} {p : WavelengthPath} : p ∈ s.legs g ↔ p ∈ s.toList ∧ p.group = g := by
  simp [legs]

/-- A store without paths and without group index is coherent. -/
theorem coherent_of_empty (hpaths : s.paths = ∅) (hgroup : s.byGroup = ∅) : s.Coherent := by
  have hlist : s.toList = [] := by rw [toList, hpaths]; rfl
  refine ⟨hpaths ▸ .empty, ?_, ?_⟩
  · intro p hp
    rw [hlist] at hp
    cases hp
  · rw [hgroup, hlist]
    exact lists_nil

namespace Coherent

theorem eq_of_id_eq (h : s.Coherent) {p q : WavelengthPath} (hp : p ∈ s.toList)
    (hq : q ∈ s.toList) (hid : p.id = q.id) : p = q :=
  h.keyed.eq_of_mem_values hp hq hid

theorem id_eq_iff (h : s.Coherent) {p q : WavelengthPath} (hp : p ∈ s.toList) (hq : q ∈ s.toList) :
    p.id = q.id ↔ p = q :=
  ⟨h.eq_of_id_eq hp hq, congrArg WavelengthPath.id⟩

theorem get?_of_mem (h : s.Coherent) {p : WavelengthPath} (hp : p ∈ s.toList) :
    s.get? p.id = some p :=
  h.keyed.find?_of_mem_values hp

/-- All stored paths are listed in the order of their ids. -/
theorem toList_ascending (h : s.Coherent) : s.toList.Pairwise (fun p q => p.id < q.id) := by
  unfold toList SortedMap.values
  rw [List.pairwise_map]
  refine List.Pairwise.imp_of_mem (fun {a b} ha hb hab => ?_) s.paths.sorted
  rw [h.keyed a ha, h.keyed b hb]
  exact Nat.compare_eq_lt.1 hab

theorem legs_ascending (h : s.Coherent) (g : Nat) :
    (s.legs g).Pairwise (fun p q => p.id < q.id) :=
  h.toList_ascending.sublist List.filter_sublist

theorem filterMap_find?_ids (h : s.Coherent) {paths : List WavelengthPath}
    (hmem : ∀ p ∈ paths, p ∈ s.toList) :
    (paths.map WavelengthPath.id).filterMap s.paths.find? = paths := by
  induction paths with
  | nil => rfl
  | cons p rest ih =>
    have hp : s.paths.find? p.id = some p := h.get?_of_mem (hmem p (by simp))
    rw [List.map_cons, List.filterMap_cons, hp, ih fun q hq => hmem q (List.mem_cons_of_mem _ hq)]

/-- A look-up through an index that lists the stored paths finds those that use the key, in the order of
their ids. -/
theorem resolve_eq_filter (h : s.Coherent) {κ : Type} [Ord κ] {index : Index κ}
    {uses : WavelengthPath → κ → Prop} (hlists : Lists index uses s.toList) (k : κ)
    [DecidablePred fun p => uses p k] :
    s.resolve (index.ids k) = s.toList.filter (fun p => uses p k) := by
  have hids : (index.ids k).toList =
      (s.toList.filter (fun p => uses p k)).map WavelengthPath.id := by
    refine SortedSet.toList_eq_of_mem (index.ids k).sorted ?_ ?_
    · rw [List.pairwise_map]
      exact (h.toList_ascending.sublist List.filter_sublist).imp fun hlt => Nat.compare_eq_lt.2 hlt
    · intro id
      rw [← SortedSet.mem_def, hlists k id, List.mem_map]
      simp only [List.mem_filter, decide_eq_true_eq, and_assoc]
      exact exists_congr fun p => and_congr_right fun _ => and_comm
  unfold resolve
  rw [hids]
  exact h.filterMap_find?_ids fun p hp => (List.mem_filter.1 hp).1

/-- The look-up by group finds the legs of the group. -/
theorem getGroup_eq_legs (h : s.Coherent) (g : Nat) : s.getGroup g = s.legs g :=
  h.resolve_eq_filter h.grouped g

theorem mem_ids_legs (h : s.Coherent) {g : Nat} {q : WavelengthPath} (hq : q ∈ s.toList) :
    q.id ∈ (s.legs g).map WavelengthPath.id ↔ q.group = g := by
  rw [List.mem_map]
  constructor
  · rintro ⟨p, hp, hid⟩
    obtain ⟨hp, hpg⟩ := mem_legs.1 hp
    rwa [← h.eq_of_id_eq hp hq hid]
  · intro hqg
    exact ⟨q, mem_legs.2 ⟨hq, hqg⟩, rfl⟩

end Coherent

/-! ## Adding -/

/-- Paths under consecutive ids after `last`. -/
def numbered : Nat → List WavelengthPath → List WavelengthPath
  | _, [] => []
  | last, p :: rest => { p with id := last + 1 } :: numbered (last + 1) rest

/-- Numbering changes nothing but the ids. -/
theorem map_numbered {α : Type} {f : WavelengthPath → α}
    (hf : ∀ (p : WavelengthPath) id, f { p with id := id } = f p) (last : Nat)
    (paths : List WavelengthPath) : (numbered last paths).map f = paths.map f := by
  induction paths generalizing last with
  | nil => rfl
  | cons p rest ih => rw [numbered, List.map_cons, List.map_cons, hf, ih]

/-- A path under a new id is listed last. -/
theorem Coherent.toList_put (h : s.Coherent) {p : WavelengthPath} (hid : s.lastPathId < p.id) :
    (s.put p).toList = s.toList ++ [p] := by
  refine SortedMap.values_insert_last p ?_
  intro e he
  have hmem : e.2 ∈ s.toList := List.mem_map.2 ⟨e, he, rfl⟩
  have hle := h.bounded e.2 hmem
  rw [h.keyed e he] at hle
  exact Nat.compare_eq_gt.2 (by omega)

theorem Coherent.mem_toList_put (h : s.Coherent) {p : WavelengthPath} (hid : s.lastPathId < p.id)
    (q : WavelengthPath) : q ∈ (s.put p).toList ↔ q = p ∨ q ∈ s.toList := by
  rw [h.toList_put hid, List.mem_append, List.mem_singleton, or_comm]

theorem Coherent.put (h : s.Coherent) {p : WavelengthPath} (hid : s.lastPathId < p.id) :
    { s.put p with lastPathId := p.id }.Coherent := by
  have hmem := h.mem_toList_put hid
  refine ⟨h.keyed.insert rfl, ?_, ?_⟩
  · intro q hq
    show q.id ≤ p.id
    rcases (hmem q).1 hq with rfl | hq
    · exact Nat.le_refl _
    · have hle := h.bounded q hq
      omega
  · refine Lists.enter h.grouped (fun g id => ?_) hmem
    show id ∈ (s.byGroup.add p.group p.id).ids g ↔ _
    rw [Index.mem_ids_add, eq_comm]

/-- Added paths are listed last, under the ids that follow the last one given out. -/
theorem Coherent.putAll (h : s.Coherent) (paths : List WavelengthPath) :
    ∃ s', s.putAll paths = (s', numbered s.lastPathId paths) ∧ s'.Coherent ∧
      s'.toList = s.toList ++ numbered s.lastPathId paths ∧ s'.lastGroupId = s.lastGroupId := by
  induction paths generalizing s with
  | nil => exact ⟨s, rfl, h, (List.append_nil _).symm, rfl⟩
  | cons p rest ih =>
    have hlt : s.lastPathId < ({ p with id := s.lastPathId + 1 } : WavelengthPath).id :=
      Nat.lt_succ_self _
    obtain ⟨s', hput, hcoherent, hlist, hgroup⟩ := ih (h.put hlt)
    refine ⟨s', ?_, hcoherent, hlist.trans ?_, hgroup⟩
    · simp only [PathStore.putAll, hput, numbered]
    · show (s.put _).toList ++ _ = _
      rw [h.toList_put hlt, List.append_assoc]
      rfl

/-- Paths of one group, added to a store without legs of that group, are its legs. -/
theorem legs_of_toList_append {s' : PathStore} {g : Nat} {added : List WavelengthPath}
    (hlist : s'.toList = s.toList ++ added) (hnone : s.legs g = [])
    (hadded : ∀ p ∈ added, p.group = g) (g' : Nat) :
    s'.legs g' = if g' = g then added else s.legs g' := by
  rw [legs, hlist, List.filter_append]
  show s.legs g' ++ _ = _
  split
  next hg =>
    rw [hg, hnone, List.nil_append, List.filter_eq_self]
    intro p hp
    rw [hadded p hp]
    exact beq_self_eq_true _
  next hg =>
    have hother : added.filter (fun p => p.group == g') = [] := by
      rw [List.filter_eq_nil_iff]
      intro p hp
      rw [hadded p hp]
      simpa using Ne.symm hg
    rw [hother, List.append_nil]

/-! ## Updating -/

/-- A replaced path takes the place of the stored one in the listing. -/
theorem Coherent.toList_update (h : s.Coherent) {p prev : WavelengthPath}
    (hprev : s.get? p.id = some prev) :
    ((s.unindex prev).put p).toList = s.toList.map (fun q => if q.id = p.id then p else q) :=
  h.keyed.values_insert hprev

theorem Coherent.mem_toList_update (h : s.Coherent) {p prev : WavelengthPath}
    (hprev : s.get? p.id = some prev) (q : WavelengthPath) :
    q ∈ ((s.unindex prev).put p).toList ↔ q = p ∨ q ∈ s.toList.filter (fun q => q.id ≠ prev.id) := by
  have hid : prev.id = p.id := h.keyed.of_find? hprev
  have hmem : prev ∈ s.toList := SortedMap.mem_values_iff.2 ⟨_, hprev⟩
  rw [h.toList_update hprev, List.mem_map, List.mem_filter, decide_eq_true_eq, hid]
  constructor
  · rintro ⟨q', hq', rfl⟩
    by_cases hq'id : q'.id = p.id
    · exact .inl (if_pos hq'id)
    · rw [if_neg hq'id]
      exact .inr ⟨hq', hq'id⟩
  · rintro (rfl | ⟨hq, hqid⟩)
    · exact ⟨prev, hmem, if_pos hid⟩
    · exact ⟨q, hq, if_neg hqid⟩

/-- An index lists the stored paths again once the replaced path has left it and the new one has
entered it. -/
theorem Coherent.lists_update (h : s.Coherent) {p prev : WavelengthPath}
    (hprev : s.get? p.id = some prev) {κ : Type} [Ord κ] {index index' : Index κ}
    {uses : WavelengthPath → κ → Prop} (hlists : Lists index uses s.toList) (left : Index κ)
    (hleft : ∀ k id, id ∈ left.ids k ↔ id ∈ index.ids k ∧ ¬(uses prev k ∧ id = prev.id))
    (hindex : ∀ k id, id ∈ index'.ids k ↔ uses p k ∧ id = p.id ∨ id ∈ left.ids k) :
    Lists index' uses ((s.unindex prev).put p).toList := by
  have hmem : prev ∈ s.toList := SortedMap.mem_values_iff.2 ⟨_, hprev⟩
  have hlistsLeft : Lists left uses (s.toList.filter fun q => q.id ≠ prev.id) := by
    refine hlists.leave (fun q hq hid => h.eq_of_id_eq hq hmem hid) hleft fun q => ?_
    rw [List.mem_filter, decide_eq_true_eq]
  exact hlistsLeft.enter hindex (h.mem_toList_update hprev)

theorem Coherent.update (h : s.Coherent) {p prev : WavelengthPath}
    (hprev : s.get? p.id = some prev) : ((s.unindex prev).put p).Coherent := by
  have hid : prev.id = p.id := h.keyed.of_find? hprev
  have hmem : prev ∈ s.toList := SortedMap.mem_values_iff.2 ⟨_, hprev⟩
  refine ⟨h.keyed.insert rfl, ?_, ?_⟩
  · intro q hq
    show q.id ≤ s.lastPathId
    rcases (h.mem_toList_update hprev q).1 hq with rfl | hq
    · exact hid ▸ h.bounded prev hmem
    · exact h.bounded q (List.mem_filter.1 hq).1
  · refine h.lists_update hprev h.grouped (s.byGroup.drop prev.group prev.id) (fun g id => ?_)
      fun g id => ?_
    · rw [Index.mem_ids_drop, eq_comm (a := g)]
    · show id ∈ ((s.byGroup.drop prev.group prev.id).add p.group p.id).ids g ↔ _
      rw [Index.mem_ids_add, eq_comm (a := g)]

/-- Stored paths can be changed one after the other; what is changed keeps its place. -/
theorem Coherent.updateAll (h : s.Coherent) {f : WavelengthPath → WavelengthPath}
    (hf : ∀ p, (f p).id = p.id) {paths : List WavelengthPath}
    (hpaths : paths.Pairwise (fun p q => p.id < q.id)) (hmem : ∀ p ∈ paths, p ∈ s.toList) :
    ∃ s' events, s.updateAll (paths.map f) = (s', events, .ok ()) ∧ s'.Coherent ∧
      s'.toList = s.toList.map (fun q => if q.id ∈ paths.map WavelengthPath.id then f q else q) ∧
      s'.lastGroupId = s.lastGroupId := by
  induction paths generalizing s with
  | nil => exact ⟨s, [], rfl, h, by simp, rfl⟩
  | cons p rest ih =>
    obtain ⟨hhead, hrest⟩ := List.pairwise_cons.1 hpaths
    have hp : p ∈ s.toList := hmem p (by simp)
    have hprev : s.get? (f p).id = some p := by rw [hf, h.get?_of_mem hp]
    have hlist := h.toList_update hprev
    obtain ⟨s', events, hrun, hcoherent, hlist', hgroup⟩ :=
      ih (h.update hprev) hrest fun q hq => by
        rw [hlist, List.mem_map]
        refine ⟨q, hmem q (List.mem_cons_of_mem _ hq), if_neg ?_⟩
        intro hid
        have hlt := hhead q hq
        rw [hf] at hid
        omega
    refine ⟨s', [.updated (f p)] ++ events, ?_, hcoherent, ?_, hgroup⟩
    · simp only [List.map_cons, PathStore.updateAll, PathStore.update, hprev, hrun]
    · rw [hlist', hlist, List.map_map]
      apply List.map_congr_left
      intro q hq
      simp only [Function.comp_apply, hf, List.map_cons, List.mem_cons]
      by_cases hqp : q.id = p.id
      · -- only `p` has its id, and no later update concerns it
        have heq := h.eq_of_id_eq hq hp hqp
        subst heq
        have hnot : q.id ∉ rest.map WavelengthPath.id := fun hin => by
          obtain ⟨r, hr, hrid⟩ := List.mem_map.1 hin
          have hlt := hhead r hr
          omega
        simp [hf, hnot]
      · simp [hqp]

/-- The legs of a group can be changed one after the other; those of other groups stay. -/
theorem Coherent.updateGroup (h : s.Coherent) {f : WavelengthPath → WavelengthPath}
    (hf : ∀ p, (f p).id = p.id) (hgroup : ∀ p, (f p).group = p.group) (g : Nat) :
    ∃ s' events, s.updateAll ((s.legs g).map f) = (s', events, .ok ()) ∧ s'.Coherent ∧
      (∀ g', s'.legs g' = if g' = g then (s.legs g).map f else s.legs g') ∧
      s'.lastGroupId = s.lastGroupId := by
  obtain ⟨s', events, hrun, hcoherent, hlist, hlast⟩ :=
    h.updateAll hf (h.legs_ascending g) fun p hp => (mem_legs.1 hp).1
  refine ⟨s', events, hrun, hcoherent, ?_, hlast⟩
  intro g'
  have hmap : s'.toList = s.toList.map (fun q => if q.group = g then f q else q) := by
    rw [hlist]
    apply List.map_congr_left
    intro q hq
    simp only [h.mem_ids_legs hq]
  have hkeep : (fun q : WavelengthPath => (if q.group = g then f q else q).group == g') =
      fun q => q.group == g' := by
    funext q
    split
    · rw [hgroup]
    · rfl
  rw [legs, hmap, List.filter_map, Function.comp_def, hkeep]
  show (s.legs g').map _ = _
  split
  next hg =>
    rw [hg]
    exact List.map_congr_left fun q hq => if_pos (mem_legs.1 hq).2
  next hg =>
    refine (List.map_congr_left fun q hq => if_neg ?_).trans (List.map_id' _)
    intro hqg
    exact hg ((mem_legs.1 hq).2.symm.trans hqg)

/-! ## Removing -/

theorem Coherent.toList_discard (h : s.Coherent) (p : WavelengthPath) :
    (s.discard p).toList = s.toList.filter (fun q => q.id ≠ p.id) :=
  h.keyed.values_erase p.id

theorem Coherent.mem_toList_discard (h : s.Coherent) (p q : WavelengthPath) :
    q ∈ (s.discard p).toList ↔ q ∈ s.toList ∧ q.id ≠ p.id := by
  rw [h.toList_discard, List.mem_filter, decide_eq_true_eq]

theorem Coherent.discard (h : s.Coherent) {p : WavelengthPath} (hp : p ∈ s.toList) :
    (s.discard p).Coherent := by
  have hmem := h.mem_toList_discard p
  refine ⟨h.keyed.erase p.id, fun q hq => h.bounded q ((hmem q).1 hq).1, ?_⟩
  refine Lists.leave h.grouped (fun q hq hid => h.eq_of_id_eq hq hp hid) (fun g id => ?_) hmem
  show id ∈ (s.byGroup.drop p.group p.id).ids g ↔ _
  rw [Index.mem_ids_drop, eq_comm (a := g)]

/-- Stored paths can be deleted one after the other: what holds at first, and is kept whenever a stored
path goes, holds in the end. -/
theorem Coherent.foldl_discard_induction {P : List WavelengthPath → PathStore → Prop} (h : s.Coherent)
    {paths : List WavelengthPath} (hpaths : paths.Pairwise (fun p q => p.id < q.id))
    (hmem : ∀ p ∈ paths, p ∈ s.toList) (hstart : P [] s)
    (hstep : ∀ (gone : List WavelengthPath) p (s' : PathStore), s'.Coherent → p ∈ s'.toList →
      P gone s' → P (gone ++ [p]) (s'.discard p)) :
    P paths (paths.foldl PathStore.discard s) := by
  suffices hall : ∀ gone, P gone s → P (gone ++ paths) (paths.foldl PathStore.discard s) from
    hall [] hstart
  clear hstart
  induction paths generalizing s with
  | nil =>
    intro gone hgone
    rw [List.append_nil]
    exact hgone
  | cons p rest ih =>
    intro gone hgone
    obtain ⟨hhead, hrest⟩ := List.pairwise_cons.1 hpaths
    have hp : p ∈ s.toList := hmem p (by simp)
    have hleft : ∀ q ∈ rest, q ∈ (s.discard p).toList := by
      intro q hq
      have hlt := hhead q hq
      exact (h.mem_toList_discard p q).2 ⟨hmem q (List.mem_cons_of_mem _ hq), by omega⟩
    rw [← List.singleton_append, ← List.append_assoc]
    exact ih (h.discard hp) hrest hleft (gone ++ [p]) (hstep gone p s h hp hgone)

/-- What is left when stored paths were deleted. -/
theorem Coherent.foldl_discard (h : s.Coherent) {paths : List WavelengthPath}
    (hpaths : paths.Pairwise (fun p q => p.id < q.id)) (hmem : ∀ p ∈ paths, p ∈ s.toList) :
    (paths.foldl PathStore.discard s).Coherent ∧
      (paths.foldl PathStore.discard s).toList =
        s.toList.filter (fun q => q.id ∉ paths.map WavelengthPath.id) ∧
      (paths.foldl PathStore.discard s).lastGroupId = s.lastGroupId := by
  refine h.foldl_discard_induction (P := fun gone s' => s'.Coherent ∧
    s'.toList = s.toList.filter (fun q => q.id ∉ gone.map WavelengthPath.id) ∧
      s'.lastGroupId = s.lastGroupId) hpaths hmem
    ⟨h, (List.filter_eq_self.2 fun _ _ => by simp).symm, rfl⟩ ?_
  rintro gone p s' hs' hp ⟨-, hlist, hgroup⟩
  refine ⟨hs'.discard hp, ?_, hgroup⟩
  rw [hs'.toList_discard, hlist, List.filter_filter]
  apply List.filter_congr
  intro q _
  by_cases hq : q.id = p.id <;> simp [hq]

theorem Coherent.removeGroup_eq (h : s.Coherent) (g : Nat) :
    s.removeGroup g = ((s.legs g).foldl PathStore.discard s, s.legs g, (s.legs g).map .removed) := by
  simp only [PathStore.removeGroup, h.getGroup_eq_legs]

/-- What is left without a group are the paths of the other groups, in the same order. -/
theorem Coherent.toList_removeGroup (h : s.Coherent) (g : Nat) :
    (s.removeGroup g).1.toList = s.toList.filter (fun p => p.group != g) := by
  rw [h.removeGroup_eq, (h.foldl_discard (h.legs_ascending g) fun p hp => (mem_legs.1 hp).1).2.1]
  apply List.filter_congr
  intro q hq
  by_cases hqg : q.group = g <;> simp [h.mem_ids_legs hq, hqg]

/-- Removing a group deletes its legs and no others. -/
theorem Coherent.removeGroup (h : s.Coherent) (g : Nat) :
    (s.removeGroup g).1.Coherent ∧
      (∀ g', (s.removeGroup g).1.legs g' = if g' = g then [] else s.legs g') ∧
      (s.removeGroup g).1.lastGroupId = s.lastGroupId := by
  obtain ⟨hcoherent, -, hlast⟩ :=
    h.foldl_discard (h.legs_ascending g) fun p hp => (mem_legs.1 hp).1
  have hlist := h.toList_removeGroup g
  rw [h.removeGroup_eq] at hlist ⊢
  refine ⟨hcoherent, ?_, hlast⟩
  intro g'
  rw [legs, hlist, List.filter_filter]
  split
  next hg =>
    rw [List.filter_eq_nil_iff]
    intro q _
    simp [hg]
  next hg =>
    apply List.filter_congr
    intro q _
    by_cases hqg : q.group = g' <;> simp [hqg, hg]

end PathStore

end Lightpath

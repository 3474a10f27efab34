import Lightpath.Proofs.Wavelength.Indexes
import Mathlib.Logic.Relation

/-!
# Ids — no id is given out twice

Path ids only go up: whatever calls a store gets, the paths that it stores have consecutive ids
(`ids_storedBy`). Group ids go down as well, when the last one is handed back. Clients that share a store
take steps in any order (`Desk.Step`), and the counter never comes to stand below an id that one of them
still holds (`Desk.apart`).
-/

namespace Lightpath

namespace PathStore

/-! ## Path ids -/

/-- The paths that a call stores, under their new ids. -/
def Call.stored (s : PathStore) : Call → List WavelengthPath
  | .add paths => (s.add paths).2.1
  | _ => []

/-- The paths that a sequence of calls stores, in order. -/
def storedBy (s : PathStore) : List Call → List WavelengthPath
  | [] => []
  | c :: rest => c.stored s ++ (c.run s).storedBy rest

theorem after_append (s : PathStore) (calls more : List Call) :
    s.after (calls ++ more) = (s.after calls).after more :=
  List.foldl_append

theorem storedBy_append (s : PathStore) (calls more : List Call) :
    s.storedBy (calls ++ more) = s.storedBy calls ++ (s.after calls).storedBy more := by
  induction calls generalizing s with
  | nil => rfl
  | cons c rest ih =>
    rw [List.cons_append, storedBy, storedBy, ih, List.append_assoc]
    rfl

theorem ids_putAll (s : PathStore) (paths : List WavelengthPath) :
    (s.putAll paths).2.map WavelengthPath.id = List.range' (s.lastPathId + 1) paths.length := by
  induction paths generalizing s with
  | nil => rfl
  | cons p rest ih =>
    rw [List.length_cons, List.range'_succ]
    exact congrArg (_ :: ·) (ih _)

theorem length_putAll (s : PathStore) (paths : List WavelengthPath) :
    (s.putAll paths).2.length = paths.length := by
  have hlength := congrArg List.length (s.ids_putAll paths)
  rwa [List.length_map, List.length_range'] at hlength

/-- Updating a path leaves both counters, whether it succeeds or fails. -/
theorem counters_update (s : PathStore) (p : WavelengthPath) :
    (Call.run s (.update p)).lastPathId = s.lastPathId ∧
      (Call.run s (.update p)).lastGroupId = s.lastGroupId := by
  simp only [Call.run, PathStore.update]
  cases s.get? p.id with
  | none => exact ⟨rfl, rfl⟩
  | some previous => exact ⟨rfl, rfl⟩

theorem lastPathId_run (s : PathStore) (c : Call) :
    (c.run s).lastPathId = s.lastPathId + (c.stored s).length := by
  cases c with
  | add paths =>
    show (s.putAll paths).1.lastPathId = s.lastPathId + (s.putAll paths).2.length
    rw [lastPathId_putAll, length_putAll]
  | update p => exact (s.counters_update p).1
  | removeGroup group => exact (s.counters_foldl_discard _).1
  | issueGroup => rfl
  | releaseGroup group =>
    simp only [Call.run, PathStore.releaseGroup]
    split <;> rfl

theorem ids_stored (s : PathStore) (c : Call) : (c.stored s).map WavelengthPath.id =
    List.range' (s.lastPathId + 1) (c.stored s).length := by
  cases c with
  | add paths =>
    show (s.putAll paths).2.map WavelengthPath.id = List.range' _ (s.putAll paths).2.length
    rw [ids_putAll, length_putAll]
  | update p => rfl
  | removeGroup group => rfl
  | issueGroup => rfl
  | releaseGroup group => rfl

/-- The ids of the stored paths follow the last one given out, without a gap and without a repetition,
and the counter stands at the last of them. -/
theorem ids_storedBy (s : PathStore) (calls : List Call) :
    (s.storedBy calls).map WavelengthPath.id =
        List.range' (s.lastPathId + 1) (s.storedBy calls).length ∧
      (s.after calls).lastPathId = s.lastPathId + (s.storedBy calls).length := by
  induction calls generalizing s with
  | nil => exact ⟨rfl, rfl⟩
  | cons c rest ih =>
    obtain ⟨hids, hlast⟩ := ih (c.run s)
    have hstep := s.lastPathId_run c
    rw [storedBy, List.length_append]
    refine ⟨?_, ?_⟩
    · rw [List.map_append, s.ids_stored c, hids, hstep, ← List.range'_append_1]
      congr 2
      omega
    · show ((c.run s).after rest).lastPathId = _
      omega

/-! ## Group ids -/

/-- The call neither gives out a group id nor takes one back. -/
def Call.keepsGroupIds : Call → Bool
  | .issueGroup => false
  | .releaseGroup _ => false
  | _ => true

theorem lastGroupId_putAll (s : PathStore) (paths : List WavelengthPath) :
    (s.putAll paths).1.lastGroupId = s.lastGroupId := by
  induction paths generalizing s with
  | nil => rfl
  | cons p rest ih =>
    rw [putAll_cons, ih]
    rfl

theorem lastGroupId_run {c : Call} (hc : c.keepsGroupIds = true) (s : PathStore) :
    (c.run s).lastGroupId = s.lastGroupId := by
  cases c with
  | add paths => exact s.lastGroupId_putAll paths
  | update p => exact (s.counters_update p).2
  | removeGroup group => exact (s.counters_foldl_discard _).2
  | issueGroup => cases hc
  | releaseGroup group => cases hc

theorem lastGroupId_releaseGroup (s : PathStore) (group : Nat) :
    (s.releaseGroup group).lastGroupId = s.lastGroupId ∨
      s.lastGroupId = group ∧ (s.releaseGroup group).lastGroupId = group - 1 := by
  unfold releaseGroup canReleaseGroup
  split
  next h =>
    rw [Bool.and_eq_true, beq_iff_eq] at h
    exact .inr ⟨h.2, rfl⟩
  next => exact .inl rfl

/-- A store that clients take group ids from, with the ids that each of them holds. -/
structure Desk (Client : Type) where
  store : PathStore := {}
  held : List (Client × Nat) := []
  /-- How many times an id was given out. -/
  issues : Nat := 0

namespace Desk

variable {Client : Type} {d d' : Desk Client}

/-- The ids that are held, by whomever. -/
def ids (d : Desk Client) : List Nat := d.held.map Prod.snd

/-- One step of one client: it takes an id, hands back one that it holds, or works on the stored paths.
It may hand an id back at any time, and does not hold it any more then, also if the store could not take
it. An id that is never handed back stays held, whatever became of its group. -/
inductive Step : Desk Client → Desk Client → Prop
  | issue (d : Desk Client) (client : Client) :
    Step d ⟨d.store.issueGroup.2, (client, d.store.issueGroup.1) :: d.held, d.issues + 1⟩
  | handBack (d : Desk Client) (client : Client) (id : Nat) (before after : List (Client × Nat))
      (hheld : d.held = before ++ (client, id) :: after) :
    Step d ⟨d.store.releaseGroup id, before ++ after, d.issues⟩
  | work (d : Desk Client) (c : Call) (hc : c.keepsGroupIds = true) :
    Step d { d with store := c.run d.store }

/-- The clients, holding nothing at first, can come to this by steps in some order. -/
def Reachable (d : Desk Client) : Prop := Relation.ReflTransGen Step {} d

/-- The held ids are different ones up to the counter, and the counter is not beyond the number of ids
given out. -/
structure Apart (d : Desk Client) : Prop where
  distinct : d.ids.Nodup
  given : ∀ id ∈ d.ids, id ≤ d.store.lastGroupId
  counted : d.store.lastGroupId ≤ d.issues

theorem Apart.step (h : d.Apart) (hstep : Step d d') : d'.Apart := by
  cases hstep with
  | issue client =>
    have hnew : d.store.lastGroupId + 1 ∉ d.ids := fun hmem => by
      have hle := h.given _ hmem
      omega
    refine ⟨List.nodup_cons.2 ⟨hnew, h.distinct⟩, ?_, Nat.succ_le_succ h.counted⟩
    intro id hid
    show id ≤ d.store.lastGroupId + 1
    rcases List.mem_cons.1 hid with rfl | hid
    · exact Nat.le_refl _
    · exact Nat.le_succ_of_le (h.given id hid)
  | handBack client id before after hheld =>
    have hids : d.ids = before.map Prod.snd ++ id :: after.map Prod.snd := by
      rw [ids, hheld, List.map_append, List.map_cons]
    have hdistinct := h.distinct
    rw [hids, List.perm_middle.nodup_iff, List.nodup_cons, ← List.map_append] at hdistinct
    obtain ⟨hgone, hrest⟩ := hdistinct
    have hgiven : ∀ id' ∈ (before ++ after).map Prod.snd, id' ≤ d.store.lastGroupId := by
      intro id' hid'
      apply h.given
      rw [hids, List.mem_append, List.mem_cons]
      rw [List.map_append, List.mem_append] at hid'
      exact hid'.imp_right .inr
    -- the counter goes down by one, below `id`, only if `id` is the last one given out
    have hcounter := d.store.lastGroupId_releaseGroup id
    have hcounted := h.counted
    refine ⟨hrest, ?_, ?_⟩
    · intro id' hid'
      have hle := hgiven id' hid'
      have hne : id' ≠ id := fun he => hgone (he ▸ hid')
      show id' ≤ (d.store.releaseGroup id).lastGroupId
      omega
    · show (d.store.releaseGroup id).lastGroupId ≤ d.issues
      omega
  | work c hc =>
    have hlast := lastGroupId_run hc d.store
    refine ⟨h.distinct, ?_, ?_⟩
    · intro id hid
      rw [hlast]
      exact h.given id hid
    · rw [hlast]
      exact h.counted

/-- Whatever steps the clients take, no two hold the same id. -/
theorem apart (h : d.Reachable) : d.Apart := by
  induction h with
  | refl => exact ⟨.nil, fun _ h => (nomatch h), Nat.le_refl _⟩
  | tail _ hstep ih => exact ih.step hstep

/-- The next id is held by no one. -/
theorem Apart.fresh (h : d.Apart) : d.store.issueGroup.1 ∉ d.ids := by
  intro hmem
  have hle := h.given _ hmem
  simp only [PathStore.issueGroup] at hle
  omega

end Desk

end PathStore

end Lightpath

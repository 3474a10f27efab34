import Lightpath.Collection.SortedMap
import Lightpath.Collection.SortedSet

/-!
# Indexes — the ids of the items that share a key

An `Index κ` lists ids under keys, in ascending order. A key without ids has no entry, so an index is
determined by which id stands under which key.
-/

namespace Lightpath

/-- The ids that stand under a key. -/
abbrev Index (κ : Type) [Ord κ] := SortedMap κ (SortedSet Nat)

namespace Index

variable {κ : Type} [Ord κ]

/-- The ids under a key. -/
def ids (i : Index κ) (k : κ) : SortedSet Nat := (i.find? k).getD ∅

variable [Std.TransOrd κ] [Std.LawfulEqOrd κ]

/-- Puts an id under a key. -/
def add (i : Index κ) (k : κ) (id : Nat) : Index κ := i.insert k ((i.ids k).insert id)

/-- Takes an id away from a key. -/
def drop (i : Index κ) (k : κ) (id : Nat) : Index κ :=
  let rest := (i.ids k).erase id
  if rest.isEmpty then i.erase k else i.insert k rest

/-! ## Look-ups after each operation -/

theorem ids_add_self (i : Index κ) (k : κ) (id : Nat) : (i.add k id).ids k = (i.ids k).insert id := by
  unfold add
  rw [ids, SortedMap.find?_insert_self, Option.getD_some]

theorem ids_add_of_ne (i : Index κ) {k k' : κ} (id : Nat) (h : k' ≠ k) :
    (i.add k id).ids k' = i.ids k' := by
  classical
  unfold add ids
  rw [SortedMap.find?_insert, if_neg h]

theorem ids_drop_self (i : Index κ) (k : κ) (id : Nat) : (i.drop k id).ids k = (i.ids k).erase id := by
  classical
  simp only [drop]
  split
  next hempty =>
    have hnone : (i.ids k).erase id = ∅ := SortedSet.ext (List.isEmpty_iff.1 hempty)
    rw [ids, SortedMap.find?_erase, if_pos rfl, hnone, Option.getD_none]
  next => rw [ids, SortedMap.find?_insert_self, Option.getD_some]

theorem ids_drop_of_ne (i : Index κ) {k k' : κ} (id : Nat) (h : k' ≠ k) :
    (i.drop k id).ids k' = i.ids k' := by
  classical
  simp only [drop]
  split
  · rw [ids, SortedMap.find?_erase, if_neg h, ids]
  · rw [ids, SortedMap.find?_insert, if_neg h, ids]

theorem mem_ids_add {i : Index κ} {k k' : κ} {id id' : Nat} :
    id' ∈ (i.add k id).ids k' ↔ k' = k ∧ id' = id ∨ id' ∈ i.ids k' := by
  by_cases h : k' = k
  · rw [h, ids_add_self, SortedSet.mem_insert]
    simp
  · rw [ids_add_of_ne i id h]
    simp [h]

theorem mem_ids_drop {i : Index κ} {k k' : κ} {id id' : Nat} :
    id' ∈ (i.drop k id).ids k' ↔ id' ∈ i.ids k' ∧ ¬(k' = k ∧ id' = id) := by
  by_cases h : k' = k
  · rw [h, ids_drop_self, SortedSet.mem_erase]
    simp
  · rw [ids_drop_of_ne i id h]
    simp [h]

end Index

end Lightpath

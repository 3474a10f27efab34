/-!
# Sorted sets — finite sets listed in ascending order

A `SortedSet κ` is a list that strictly ascends in `compare`. Each operation has one membership
equation (`mem_insert`, `mem_ofList`, `mem_filter`, `mem_inter`), and a set is determined by its
members (`SortedSet.ext_mem`).
-/

namespace Lightpath

/-- A finite set of `κ`, listed in strictly ascending order. -/
structure SortedSet (κ : Type) [Ord κ] where
  /-- The members, ascending. -/
  toList : List κ
  /-- Members strictly ascend, so none occurs twice. -/
  sorted : toList.Pairwise (fun a b => compare a b = .lt)

namespace SortedSet

variable {κ : Type} [Ord κ]

@[ext]
theorem ext {s t : SortedSet κ} (h : s.toList = t.toList) : s = t := by
  cases s; cases t; simp_all

instance [DecidableEq κ] : DecidableEq (SortedSet κ) := fun s t =>
  decidable_of_iff (s.toList = t.toList) ⟨ext, fun h => h ▸ rfl⟩

instance [Repr κ] : Repr (SortedSet κ) := ⟨fun s p => reprPrec s.toList p⟩

instance : Membership κ (SortedSet κ) := ⟨fun s a => a ∈ s.toList⟩

theorem mem_def {s : SortedSet κ} {a : κ} : a ∈ s ↔ a ∈ s.toList := .rfl

theorem nodup [Std.ReflOrd κ] (s : SortedSet κ) : s.toList.Nodup := by
  refine s.sorted.imp ?_
  intro a b hlt heq
  simp [heq, Std.ReflCmp.compare_self] at hlt

/-! ## Operations -/

/-- The set without members. -/
def empty : SortedSet κ := ⟨[], .nil⟩

instance : EmptyCollection (SortedSet κ) := ⟨empty⟩

instance : Inhabited (SortedSet κ) := ⟨empty⟩

/-- Whether the set has no member. -/
def isEmpty (s : SortedSet κ) : Bool := s.toList.isEmpty

/-- The number of members. -/
def size (s : SortedSet κ) : Nat := s.toList.length

/-- Whether `a` is a member. -/
def contains (s : SortedSet κ) (a : κ) : Bool := s.toList.any (fun b => compare a b == .eq)

/-- Puts `a` into an ascending list, once. -/
def insertItem (a : κ) : List κ → List κ
  | [] => [a]
  | b :: rest =>
    match compare a b with
    | .lt => a :: b :: rest
    | .eq => b :: rest
    | .gt => b :: insertItem a rest

/-- The members that pass `p`. -/
def filter (p : κ → Bool) (s : SortedSet κ) : SortedSet κ :=
  ⟨s.toList.filter p, s.sorted.sublist List.filter_sublist⟩

/-- The members of both sets. -/
def inter (s t : SortedSet κ) : SortedSet κ := s.filter t.contains

/-- The members other than `a`. -/
def erase (s : SortedSet κ) (a : κ) : SortedSet κ := s.filter (fun b => compare a b != .eq)

section Lawful

variable [Std.TransOrd κ] [Std.LawfulEqOrd κ]

omit [Std.TransOrd κ] in
theorem mem_insertItem {a b : κ} {l : List κ} : b ∈ insertItem a l ↔ b = a ∨ b ∈ l := by
  induction l with
  | nil => simp [insertItem]
  | cons c rest ih =>
    unfold insertItem
    split
    next => simp
    next heq =>
      have : a = c := Std.LawfulEqOrd.eq_of_compare heq
      simp [this]
    next => simp only [List.mem_cons, ih]; grind

theorem pairwise_insertItem (a : κ) {l : List κ} (h : l.Pairwise (fun a b => compare a b = .lt)) :
    (insertItem a l).Pairwise (fun a b => compare a b = .lt) := by
  induction l with
  | nil => simp [insertItem]
  | cons c rest ih =>
    obtain ⟨hhead, hrest⟩ := List.pairwise_cons.1 h
    unfold insertItem
    split
    next hlt =>
      refine List.pairwise_cons.2 ⟨fun b hb => ?_, h⟩
      rcases List.mem_cons.1 hb with rfl | hb
      · exact hlt
      · exact Std.TransCmp.lt_trans hlt (hhead b hb)
    next => exact h
    next hgt =>
      refine List.pairwise_cons.2 ⟨fun b hb => ?_, ih hrest⟩
      rcases mem_insertItem.1 hb with rfl | hb
      · exact Std.OrientedCmp.lt_of_gt hgt
      · exact hhead b hb

/-- The set with `a` as a member. -/
def insert (s : SortedSet κ) (a : κ) : SortedSet κ :=
  ⟨insertItem a s.toList, pairwise_insertItem a s.sorted⟩

/-- The set with every item of `l` as a member. An ascending `l` is taken in linear time. -/
def insertAll (s : SortedSet κ) (l : List κ) : SortedSet κ := l.foldr (fun a t => t.insert a) s

/-- The set of the items of a list. -/
def ofList (l : List κ) : SortedSet κ := empty.insertAll l

/-! ## Membership after each operation -/

omit [Std.TransOrd κ] in
@[simp]
theorem contains_iff {s : SortedSet κ} {a : κ} : s.contains a = true ↔ a ∈ s := by
  simp [contains, mem_def]

omit [Std.TransOrd κ] [Std.LawfulEqOrd κ] in
@[simp]
theorem not_mem_empty {a : κ} : ¬ a ∈ (empty : SortedSet κ) := by simp [mem_def, empty]

@[simp]
theorem mem_insert {s : SortedSet κ} {a b : κ} : b ∈ s.insert a ↔ b = a ∨ b ∈ s := mem_insertItem

@[simp]
theorem mem_insertAll {s : SortedSet κ} {l : List κ} {b : κ} :
    b ∈ s.insertAll l ↔ b ∈ l ∨ b ∈ s := by
  induction l with
  | nil => simp [insertAll]
  | cons a rest ih =>
    have : s.insertAll (a :: rest) = (s.insertAll rest).insert a := rfl
    rw [this, mem_insert, ih]
    grind

@[simp]
theorem mem_ofList {l : List κ} {b : κ} : b ∈ ofList l ↔ b ∈ l := by simp [ofList]

omit [Std.TransOrd κ] [Std.LawfulEqOrd κ] in
@[simp]
theorem mem_filter {s : SortedSet κ} {p : κ → Bool} {b : κ} :
    b ∈ s.filter p ↔ b ∈ s ∧ p b = true := by
  simp [mem_def, filter]

omit [Std.TransOrd κ] in
@[simp]
theorem mem_inter {s t : SortedSet κ} {b : κ} : b ∈ s.inter t ↔ b ∈ s ∧ b ∈ t := by simp [inter]

omit [Std.TransOrd κ] in
@[simp]
theorem mem_erase {s : SortedSet κ} {a b : κ} : b ∈ s.erase a ↔ b ∈ s ∧ b ≠ a := by
  rw [erase, mem_filter]
  simp [@eq_comm _ a b]

theorem toList_eq_of_mem {l l' : List κ} (hl : l.Pairwise (fun a b => compare a b = .lt))
    (hl' : l'.Pairwise (fun a b => compare a b = .lt)) (h : ∀ a, a ∈ l ↔ a ∈ l') : l = l' := by
  induction l generalizing l' with
  | nil => cases l' with
    | nil => rfl
    | cons b rest => exact absurd ((h b).2 (by simp)) (by simp)
  | cons a rest ih =>
    obtain ⟨hhead, hrest⟩ := List.pairwise_cons.1 hl
    cases l' with
    | nil => exact absurd ((h a).1 (by simp)) (by simp)
    | cons b rest' =>
      obtain ⟨hhead', hrest'⟩ := List.pairwise_cons.1 hl'
      have hab : a = b := by
        rcases List.mem_cons.1 ((h a).1 (by simp)) with h₁ | h₁
        · exact h₁
        · rcases List.mem_cons.1 ((h b).2 (by simp)) with h₂ | h₂
          · exact h₂.symm
          · have := Std.TransCmp.lt_trans (hhead _ h₂) (hhead' _ h₁)
            simp [Std.ReflCmp.compare_self] at this
      subst hab
      congr 1
      refine ih hrest hrest' fun c => ?_
      have irrefl : ∀ {m : List κ}, (∀ x ∈ m, compare a x = .lt) → a ∉ m := fun hm hmem => by
        have := hm a hmem
        simp [Std.ReflCmp.compare_self] at this
      by_cases hc : c = a
      · subst hc
        exact iff_of_false (irrefl hhead) (irrefl hhead')
      · simpa [hc] using h c

/-- A sorted set is determined by its members. -/
theorem ext_mem {s t : SortedSet κ} (h : ∀ a, a ∈ s ↔ a ∈ t) : s = t :=
  ext (toList_eq_of_mem s.sorted t.sorted h)

/-- The set of the members of a set is that set. -/
theorem ofList_toList (s : SortedSet κ) : ofList s.toList = s :=
  ext_mem fun _ => mem_ofList

end Lawful

end SortedSet

end Lightpath

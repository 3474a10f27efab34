/-!
# Sorted maps — finite maps listed in ascending key order

A `SortedMap κ ν` is a list of entries together with the proof that its keys strictly ascend in
`compare`. Listing the map is therefore a fixed order and two maps with the same look-ups are the
same value (`SortedMap.ext_find?`).

Every operation has one equation for `find?`: `find?_empty`, `find?_insert`, `find?_erase`,
`find?_filter`, `find?_filterMap`. They need a lawful order on the keys (`Std.TransOrd`, `Std.LawfulEqOrd`).
-/

namespace Lightpath

/-- A finite map from `κ` to `ν` whose entries are kept in strictly ascending key order. -/
structure SortedMap (κ ν : Type) [Ord κ] where
  /-- The entries, ascending by key. -/
  entries : List (κ × ν)
  /-- Keys strictly ascend, so none occurs twice. -/
  sorted : entries.Pairwise (fun a b => compare a.1 b.1 = .lt)

namespace SortedMap

variable {κ ν μ : Type} [Ord κ]

@[ext]
theorem ext {m n : SortedMap κ ν} (h : m.entries = n.entries) : m = n := by
  cases m; cases n; simp_all

instance [DecidableEq κ] [DecidableEq ν] : DecidableEq (SortedMap κ ν) := fun m n =>
  decidable_of_iff (m.entries = n.entries) ⟨ext, fun h => h ▸ rfl⟩

instance [Repr κ] [Repr ν] : Repr (SortedMap κ ν) := ⟨fun m p => reprPrec m.entries p⟩

/-! ## Operations -/

/-- The map without entries. -/
def empty : SortedMap κ ν := ⟨[], .nil⟩

instance : EmptyCollection (SortedMap κ ν) := ⟨empty⟩

instance : Inhabited (SortedMap κ ν) := ⟨empty⟩

/-- The value stored under a key of an entry list, the first one if there were several. -/
def lookup (k : κ) : List (κ × ν) → Option ν
  | [] => none
  | (k', v) :: rest => if compare k k' = .eq then some v else lookup k rest

/-- The value stored under `k`. -/
def find? (m : SortedMap κ ν) (k : κ) : Option ν := lookup k m.entries

/-- Whether `k` is a key of the map. -/
def contains (m : SortedMap κ ν) (k : κ) : Bool := (m.find? k).isSome

/-- The keys in ascending order. -/
def keys (m : SortedMap κ ν) : List κ := m.entries.map (·.1)

theorem nodup_keys [Std.ReflOrd κ] (m : SortedMap κ ν) : m.keys.Nodup := by
  rw [keys, List.Nodup, List.pairwise_map]
  refine m.sorted.imp ?_
  intro e e' hlt heq
  simp [heq, Std.ReflCmp.compare_self] at hlt

/-- The values in the order of their keys. -/
def values (m : SortedMap κ ν) : List ν := m.entries.map (·.2)

/-- The number of entries. -/
def size (m : SortedMap κ ν) : Nat := m.entries.length

/-- Whether the map has no entry. -/
def isEmpty (m : SortedMap κ ν) : Bool := m.entries.isEmpty

/-- Puts `v` under `k` into an ascending entry list. -/
def insertEntry (k : κ) (v : ν) : List (κ × ν) → List (κ × ν)
  | [] => [(k, v)]
  | (k', v') :: rest =>
    match compare k k' with
    | .lt => (k, v) :: (k', v') :: rest
    | .eq => (k, v) :: rest
    | .gt => (k', v') :: insertEntry k v rest

theorem mem_insertEntry {k : κ} {v : ν} {e : κ × ν} {l : List (κ × ν)}
    (h : e ∈ insertEntry k v l) : e = (k, v) ∨ e ∈ l := by
  induction l with
  | nil => simpa [insertEntry] using h
  | cons e' rest ih =>
    obtain ⟨k', v'⟩ := e'
    unfold insertEntry at h
    split at h
    · rcases List.mem_cons.1 h with h | h
      · exact .inl h
      · exact .inr h
    · rcases List.mem_cons.1 h with h | h
      · exact .inl h
      · exact .inr (List.mem_cons_of_mem _ h)
    · rcases List.mem_cons.1 h with h | h
      · exact .inr (by simp [h])
      · exact (ih h).imp_right (List.mem_cons_of_mem _)

section Lawful

variable [Std.TransOrd κ] [Std.LawfulEqOrd κ]

theorem pairwise_insertEntry (k : κ) (v : ν) {l : List (κ × ν)}
    (h : l.Pairwise (fun a b => compare a.1 b.1 = .lt)) :
    (insertEntry k v l).Pairwise (fun a b => compare a.1 b.1 = .lt) := by
  induction l with
  | nil => simp [insertEntry]
  | cons e' rest ih =>
    obtain ⟨k', v'⟩ := e'
    obtain ⟨hhead, hrest⟩ := List.pairwise_cons.1 h
    unfold insertEntry
    split
    next hlt =>
      refine List.pairwise_cons.2 ⟨fun a ha => ?_, h⟩
      rcases List.mem_cons.1 ha with rfl | ha
      · exact hlt
      · exact Std.TransCmp.lt_trans hlt (hhead a ha)
    next heq =>
      have hk : k = k' := Std.LawfulEqOrd.eq_of_compare heq
      refine List.pairwise_cons.2 ⟨fun a ha => ?_, hrest⟩
      exact hk ▸ hhead a ha
    next hgt =>
      refine List.pairwise_cons.2 ⟨fun a ha => ?_, ih hrest⟩
      rcases mem_insertEntry ha with rfl | ha
      · exact Std.OrientedCmp.lt_of_gt hgt
      · exact hhead a ha

/-- The map with `v` under `k`; an earlier value of `k` is replaced. -/
def insert (m : SortedMap κ ν) (k : κ) (v : ν) : SortedMap κ ν :=
  ⟨insertEntry k v m.entries, pairwise_insertEntry k v m.sorted⟩

/-- The map of an entry list; of several values of one key the last one counts. -/
def ofList (l : List (κ × ν)) : SortedMap κ ν :=
  l.foldl (fun m e => m.insert e.1 e.2) empty

/-- The map with the value of `k` passed through `f`; `f none` gives a missing value. -/
def alter (m : SortedMap κ ν) (k : κ) (f : Option ν → ν) : SortedMap κ ν :=
  m.insert k (f (m.find? k))

end Lawful

/-- The map without the entries that fail `p`. -/
def filter (p : κ → ν → Bool) (m : SortedMap κ ν) : SortedMap κ ν :=
  ⟨m.entries.filter (fun e => p e.1 e.2), m.sorted.sublist List.filter_sublist⟩

/-- The map without the entry of `k`. -/
def erase (m : SortedMap κ ν) (k : κ) : SortedMap κ ν :=
  m.filter (fun k' _ => compare k k' != .eq)

/-- The map with every value passed through `f`. -/
def map (f : ν → μ) (m : SortedMap κ ν) : SortedMap κ μ :=
  ⟨m.entries.map (fun e => (e.1, f e.2)), by
    rw [List.pairwise_map]; exact m.sorted⟩

theorem pairwise_filterMap (f : κ → ν → Option μ) {l : List (κ × ν)}
    (h : l.Pairwise (fun a b => compare a.1 b.1 = .lt)) :
    (l.filterMap (fun e => (f e.1 e.2).map (fun w => (e.1, w)))).Pairwise
      (fun a b => compare a.1 b.1 = .lt) := by
  refine List.Pairwise.filterMap _ (fun a b hab a' ha b' hb => ?_) h
  obtain ⟨_, _, rfl⟩ := Option.map_eq_some_iff.1 ha
  obtain ⟨_, _, rfl⟩ := Option.map_eq_some_iff.1 hb
  exact hab

/-- The map with every entry passed through `f`; an entry without a result is left out. -/
def filterMap (f : κ → ν → Option μ) (m : SortedMap κ ν) : SortedMap κ μ :=
  ⟨m.entries.filterMap (fun e => (f e.1 e.2).map (fun w => (e.1, w))), pairwise_filterMap f m.sorted⟩

/-! ## Look-ups after each operation -/

@[simp]
theorem find?_empty (k : κ) : (empty : SortedMap κ ν).find? k = none := rfl

theorem lookup_map (f : ν → μ) (k : κ) (l : List (κ × ν)) :
    lookup k (l.map (fun e => (e.1, f e.2))) = (lookup k l).map f := by
  induction l with
  | nil => rfl
  | cons e rest ih =>
    obtain ⟨k', v⟩ := e
    by_cases h : compare k k' = .eq <;> simp [lookup, h, ih]

@[simp]
theorem find?_map (f : ν → μ) (m : SortedMap κ ν) (k : κ) :
    (m.map f).find? k = (m.find? k).map f :=
  lookup_map f k m.entries

section Lawful

variable [Std.TransOrd κ] [Std.LawfulEqOrd κ]

omit [Std.TransOrd κ] [Std.LawfulEqOrd κ] in
theorem lookup_eq_none_of_forall_lt {k : κ} {l : List (κ × ν)}
    (h : ∀ e ∈ l, compare k e.1 = .lt) : lookup k l = none := by
  induction l with
  | nil => rfl
  | cons e rest ih =>
    obtain ⟨k', v⟩ := e
    have hne : compare k k' = .lt := h (k', v) (by simp)
    simp only [lookup, hne, reduceCtorEq, ↓reduceIte]
    exact ih fun e' he => h e' (List.mem_cons_of_mem _ he)

omit [Std.TransOrd κ] in
theorem lookup_insertEntry [DecidableEq κ] (k k' : κ) (v : ν) (l : List (κ × ν)) :
    lookup k' (insertEntry k v l) = if k' = k then some v else lookup k' l := by
  induction l with
  | nil =>
    by_cases h : k' = k <;> simp [insertEntry, lookup, h]
  | cons e rest ih =>
    obtain ⟨k₁, v₁⟩ := e
    unfold insertEntry
    split
    next => by_cases h : k' = k <;> simp [lookup, h]
    next heq =>
      have hk : k = k₁ := Std.LawfulEqOrd.eq_of_compare heq
      by_cases h : k' = k
      · simp [lookup, h]
      · have h₁ : k' ≠ k₁ := hk ▸ h
        simp [lookup, h, h₁]
    next hgt =>
      have hne : k ≠ k₁ := fun h => by simp [h, Std.ReflCmp.compare_self] at hgt
      by_cases h₁ : k' = k₁
      · have : k' ≠ k := fun h => hne (h ▸ h₁)
        simp [lookup, h₁, Ne.symm hne]
      · simp [lookup, h₁, ih]

theorem find?_insert [DecidableEq κ] (m : SortedMap κ ν) (k k' : κ) (v : ν) :
    (m.insert k v).find? k' = if k' = k then some v else m.find? k' :=
  lookup_insertEntry k k' v m.entries

@[simp]
theorem find?_insert_self (m : SortedMap κ ν) (k : κ) (v : ν) :
    (m.insert k v).find? k = some v := by
  classical simp [find?_insert]

/-- The last one of a list of entries replaces an earlier value of its key. -/
theorem find?_ofList_concat [DecidableEq κ] (l : List (κ × ν)) (e : κ × ν) (k : κ) :
    (ofList (l ++ [e])).find? k = if k = e.1 then some e.2 else (ofList l).find? k := by
  rw [ofList, List.foldl_append]
  exact find?_insert (ofList l) e.1 k e.2

/-- What a map of an entry list holds is in the list. -/
theorem mem_of_find?_ofList {l : List (κ × ν)} {k : κ} {v : ν} (h : (ofList l).find? k = some v) :
    (k, v) ∈ l := by
  classical
  suffices hall : ∀ m : SortedMap κ ν, (l.foldl (fun m e => m.insert e.1 e.2) m).find? k = some v →
      (k, v) ∈ l ∨ m.find? k = some v from
    (hall empty h).resolve_right (by simp)
  clear h
  induction l with
  | nil => exact fun _ h => .inr h
  | cons e rest ih =>
    intro m h
    rcases ih (m.insert e.1 e.2) h with hmem | hfind
    · exact .inl (List.mem_cons_of_mem _ hmem)
    · rw [find?_insert] at hfind
      split at hfind
      next hk =>
        cases hfind
        exact .inl (hk ▸ List.mem_cons_self)
      next => exact .inr hfind

/-- A map of an entry list holds the value of a key that has only one in the list. -/
theorem find?_ofList_of_mem {l : List (κ × ν)} {k : κ} {v : ν} (h : (k, v) ∈ l)
    (hunique : ∀ w, (k, w) ∈ l → w = v) : (ofList l).find? k = some v := by
  classical
  suffices hall : ∀ m : SortedMap κ ν, (k, v) ∈ l ∨ m.find? k = some v →
      (l.foldl (fun m e => m.insert e.1 e.2) m).find? k = some v from hall empty (.inl h)
  clear h
  induction l with
  | nil => exact fun _ h => h.resolve_left List.not_mem_nil
  | cons e rest ih =>
    intro m h
    refine ih (fun w hw => hunique w (List.mem_cons_of_mem _ hw)) (m.insert e.1 e.2) ?_
    rw [find?_insert]
    split
    next hk => exact .inr (congrArg some (hunique e.2 (hk ▸ List.mem_cons_self)))
    next hk =>
      refine h.imp_left fun hmem => (List.mem_cons.1 hmem).resolve_left fun he => hk ?_
      exact congrArg Prod.fst he

omit [Std.TransOrd κ] in
theorem mem_entries_of_find? {m : SortedMap κ ν} {k : κ} {v : ν} (h : m.find? k = some v) :
    (k, v) ∈ m.entries := by
  obtain ⟨l, hl⟩ := m
  change lookup k l = some v at h
  change (k, v) ∈ l
  clear hl
  induction l with
  | nil => simp [lookup] at h
  | cons e rest ih =>
    obtain ⟨k', v'⟩ := e
    by_cases hk : k = k'
    · subst hk
      simp [lookup] at h
      simp [h]
    · simp [lookup, hk] at h
      exact List.mem_cons_of_mem _ (ih h)

omit [Std.TransOrd κ] in
theorem lookup_of_mem {k : κ} {v : ν} {l : List (κ × ν)}
    (hs : l.Pairwise (fun a b => compare a.1 b.1 = .lt)) (h : (k, v) ∈ l) :
    lookup k l = some v := by
  induction l with
  | nil => simp at h
  | cons e rest ih =>
    obtain ⟨k', v'⟩ := e
    obtain ⟨hhead, hrest⟩ := List.pairwise_cons.1 hs
    rcases List.mem_cons.1 h with h | h
    · obtain ⟨rfl, rfl⟩ := Prod.mk.injEq .. ▸ h
      simp [lookup]
    · have hlt := hhead _ h
      have hne : k ≠ k' := fun he => by simp [he, Std.ReflCmp.compare_self] at hlt
      simp [lookup, hne, ih hrest h]

omit [Std.TransOrd κ] in
/-- Look-up and listing agree. -/
theorem find?_eq_some_iff {m : SortedMap κ ν} {k : κ} {v : ν} :
    m.find? k = some v ↔ (k, v) ∈ m.entries :=
  ⟨mem_entries_of_find?, lookup_of_mem m.sorted⟩

omit [Std.TransOrd κ] in
theorem find?_filter (p : κ → ν → Bool) (m : SortedMap κ ν) (k : κ) :
    (m.filter p).find? k = (m.find? k).filter (p k) := by
  apply Option.ext
  intro v
  simp [find?_eq_some_iff, filter]

omit [Std.TransOrd κ] in
theorem find?_filterMap (f : κ → ν → Option μ) (m : SortedMap κ ν) (k : κ) :
    (m.filterMap f).find? k = (m.find? k).bind (f k) := by
  apply Option.ext
  intro w
  rw [find?_eq_some_iff]
  simp only [filterMap, List.mem_filterMap, Option.map_eq_some_iff, Prod.mk.injEq, Prod.exists,
    Option.bind_eq_some_iff, find?_eq_some_iff]
  constructor
  · rintro ⟨k', v, hmem, w', hw, rfl, rfl⟩
    exact ⟨v, hmem, hw⟩
  · rintro ⟨v, hmem, hw⟩
    exact ⟨k, v, hmem, w, hw, rfl, rfl⟩

omit [Std.TransOrd κ] in
theorem find?_erase [DecidableEq κ] (m : SortedMap κ ν) (k k' : κ) :
    (m.erase k).find? k' = if k' = k then none else m.find? k' := by
  rw [erase, find?_filter]
  by_cases h : k' = k
  · subst h; simp [Std.ReflCmp.compare_self]
  · have : compare k k' ≠ .eq := fun he => h (Std.LawfulEqOrd.eq_of_compare he).symm
    cases hv : m.find? k' <;> simp [h, this]

theorem entries_eq_of_lookup {l l' : List (κ × ν)}
    (hl : l.Pairwise (fun a b => compare a.1 b.1 = .lt))
    (hl' : l'.Pairwise (fun a b => compare a.1 b.1 = .lt))
    (h : ∀ k, lookup k l = lookup k l') : l = l' := by
  induction l generalizing l' with
  | nil =>
    cases l' with
    | nil => rfl
    | cons e rest =>
      have := h e.1
      simp [lookup] at this
  | cons e rest ih =>
    obtain ⟨k, v⟩ := e
    obtain ⟨hhead, hrest⟩ := List.pairwise_cons.1 hl
    cases l' with
    | nil =>
      have := h k
      simp [lookup] at this
    | cons e' rest' =>
      obtain ⟨k', v'⟩ := e'
      obtain ⟨hhead', hrest'⟩ := List.pairwise_cons.1 hl'
      have hkk : k = k' := by
        have h₁ : (k, v) ∈ (k', v') :: rest' :=
          find?_eq_some_iff (m := ⟨_, hl'⟩).1 ((h k).symm.trans (by simp [lookup]))
        have h₂ : (k', v') ∈ (k, v) :: rest :=
          find?_eq_some_iff (m := ⟨_, hl⟩).1 ((h k').trans (by simp [lookup]))
        rcases List.mem_cons.1 h₁ with h₁ | h₁
        · exact (Prod.mk.injEq .. ▸ h₁).1
        · rcases List.mem_cons.1 h₂ with h₂ | h₂
          · exact (Prod.mk.injEq .. ▸ h₂).1.symm
          · have := Std.TransCmp.lt_trans (hhead _ h₂) (hhead' _ h₁)
            simp [Std.ReflCmp.compare_self] at this
      subst hkk
      have hv : v = v' := by simpa [lookup] using h k
      subst hv
      congr 1
      refine ih hrest hrest' fun k₁ => ?_
      by_cases h₁ : k₁ = k
      · subst h₁
        rw [lookup_eq_none_of_forall_lt hhead, lookup_eq_none_of_forall_lt hhead']
      · simpa [lookup, h₁] using h k₁

/-- A sorted map is determined by its look-ups. -/
theorem ext_find? {m n : SortedMap κ ν} (h : ∀ k, m.find? k = n.find? k) : m = n :=
  ext (entries_eq_of_lookup m.sorted n.sorted h)

end Lawful

/-! ## Listings after each operation -/

section Listing

variable [Std.LawfulEqOrd κ]

theorem mem_values_iff {m : SortedMap κ ν} {v : ν} : v ∈ m.values ↔ ∃ k, m.find? k = some v := by
  constructor
  · intro h
    obtain ⟨⟨k, _⟩, he, rfl⟩ := List.mem_map.1 h
    exact ⟨k, find?_eq_some_iff.2 he⟩
  · rintro ⟨k, h⟩
    exact List.mem_map.2 ⟨(k, v), mem_entries_of_find? h, rfl⟩

omit [Std.LawfulEqOrd κ] in
theorem insertEntry_of_forall_gt {k : κ} {v : ν} {l : List (κ × ν)}
    (h : ∀ e ∈ l, compare k e.1 = .gt) : insertEntry k v l = l ++ [(k, v)] := by
  induction l with
  | nil => rfl
  | cons e rest ih =>
    have hgt : compare k e.1 = .gt := h e (by simp)
    have hrest := ih fun e' he' => h e' (List.mem_cons_of_mem _ he')
    simp only [insertEntry, hgt, hrest, List.cons_append]

theorem insertEntry_of_mem [Std.TransOrd κ] [DecidableEq κ] {k : κ} {v w : ν}
    {l : List (κ × ν)} (hs : l.Pairwise (fun a b => compare a.1 b.1 = .lt)) (h : (k, w) ∈ l) :
    insertEntry k v l = l.map (fun e => if e.1 = k then (k, v) else e) := by
  induction l with
  | nil => simp at h
  | cons e rest ih =>
    obtain ⟨hhead, hrest⟩ := List.pairwise_cons.1 hs
    rcases List.mem_cons.1 h with rfl | h
    · have hself : compare k k = .eq := Std.ReflCmp.compare_self
      have hsame : rest.map (fun e => if e.1 = k then (k, v) else e) = rest := by
        refine List.map_congr_left (fun e he => if_neg fun hk => ?_) |>.trans (List.map_id' rest)
        have hlt := hhead e he
        simp [hk] at hlt
      simp only [insertEntry, hself, List.map_cons, if_true, hsame]
    · have hgt : compare k e.1 = .gt := Std.OrientedCmp.gt_of_lt (hhead _ h)
      have hne : e.1 ≠ k := fun hk => by simp [hk] at hgt
      simp only [insertEntry, hgt, ih hrest h, List.map_cons, if_neg hne]

/-- A value under a key beyond all others is listed last. -/
theorem values_insert_last [Std.TransOrd κ] {m : SortedMap κ ν} {k : κ} (v : ν)
    (h : ∀ e ∈ m.entries, compare k e.1 = .gt) : (m.insert k v).values = m.values ++ [v] := by
  show (insertEntry k v m.entries).map (·.2) = m.entries.map (·.2) ++ [v]
  rw [insertEntry_of_forall_gt h, List.map_append, List.map_singleton]

/-- Entries that ascend beyond those of a map are put behind them. -/
theorem entries_foldl_insert [Std.TransOrd κ] {m : SortedMap κ ν} {l : List (κ × ν)}
    (h : (m.entries ++ l).Pairwise (fun a b => compare a.1 b.1 = .lt)) :
    (l.foldl (fun m e => m.insert e.1 e.2) m).entries = m.entries ++ l := by
  induction l generalizing m with
  | nil => exact (List.append_nil _).symm
  | cons e rest ih =>
    have hlast : (m.insert e.1 e.2).entries = m.entries ++ [e] := by
      refine insertEntry_of_forall_gt fun e' he' => ?_
      exact Std.OrientedCmp.gt_of_lt ((List.pairwise_append.1 h).2.2 e' he' e List.mem_cons_self)
    rw [List.foldl_cons, ih, hlast, List.append_assoc, List.singleton_append]
    rw [hlast, List.append_assoc, List.singleton_append]
    exact h

/-- The map of the entries of a map is that map. -/
theorem ofList_entries [Std.TransOrd κ] (m : SortedMap κ ν) : ofList m.entries = m :=
  ext (entries_foldl_insert (m := empty) m.sorted)

/-- Erasing a key that the map does not have changes nothing. -/
theorem erase_of_find?_eq_none [Std.TransOrd κ] {m : SortedMap κ ν} {k : κ} (h : m.find? k = none) :
    m.erase k = m := by
  classical
  refine ext_find? fun k' => ?_
  rw [find?_erase]
  by_cases hk : k' = k
  · rw [if_pos hk, hk, h]
  · rw [if_neg hk]

theorem find?_foldl_erase [DecidableEq κ] (m : SortedMap κ ν) (ks : List κ) (k : κ) :
    (ks.foldl erase m).find? k = if k ∈ ks then none else m.find? k := by
  induction ks generalizing m with
  | nil => simp
  | cons k' rest ih =>
    rw [List.foldl_cons, ih, find?_erase]
    by_cases h : k = k' <;> simp [h]

end Listing

/-! ## Values that carry their keys -/

/-- Every value stands under the key that it carries itself. -/
def Keyed (key : ν → κ) (m : SortedMap κ ν) : Prop := ∀ e ∈ m.entries, key e.2 = e.1

namespace Keyed

variable {key : ν → κ} {m : SortedMap κ ν}

theorem empty : (∅ : SortedMap κ ν).Keyed key := fun _ he => nomatch he

theorem filter (h : m.Keyed key) (p : κ → ν → Bool) : (m.filter p).Keyed key :=
  fun e he => h e ((List.mem_filter.1 he).1)

theorem erase (h : m.Keyed key) (k : κ) : (m.erase k).Keyed key := h.filter _

theorem insert [Std.TransOrd κ] [Std.LawfulEqOrd κ] (h : m.Keyed key) {k : κ} {v : ν}
    (hk : key v = k) : (m.insert k v).Keyed key := by
  intro e he
  rcases mem_insertEntry he with rfl | he
  · exact hk
  · exact h e he

theorem of_find? [Std.LawfulEqOrd κ] (h : m.Keyed key) {k : κ} {v : ν}
    (hv : m.find? k = some v) : key v = k :=
  h (k, v) (mem_entries_of_find? hv)

/-- Two listed values with the same key are the same value. -/
theorem eq_of_mem_values [Std.LawfulEqOrd κ] (h : m.Keyed key) {v w : ν} (hv : v ∈ m.values)
    (hw : w ∈ m.values) (hkey : key v = key w) : v = w := by
  obtain ⟨⟨k, _⟩, he, rfl⟩ := List.mem_map.1 hv
  obtain ⟨⟨k', _⟩, he', rfl⟩ := List.mem_map.1 hw
  have hk : k = k' := (h _ he).symm.trans (hkey.trans (h _ he'))
  subst hk
  exact Option.some.inj ((find?_eq_some_iff.2 he).symm.trans (find?_eq_some_iff.2 he'))

/-- Replacing a listed value keeps the listing in order. -/
theorem values_insert [Std.TransOrd κ] [Std.LawfulEqOrd κ] [DecidableEq κ] (h : m.Keyed key)
    {k : κ} {v w : ν} (hw : m.find? k = some w) :
    (m.insert k v).values = m.values.map (fun u => if key u = k then v else u) := by
  show (insertEntry k v m.entries).map (·.2) = (m.entries.map (·.2)).map _
  rw [insertEntry_of_mem m.sorted (mem_entries_of_find? hw), List.map_map, List.map_map]
  refine List.map_congr_left fun e he => ?_
  rw [Function.comp_apply, Function.comp_apply, h e he]
  split <;> rfl

theorem values_erase [Std.LawfulEqOrd κ] [DecidableEq κ] (h : m.Keyed key) (k : κ) :
    (m.erase k).values = m.values.filter (fun u => key u ≠ k) := by
  unfold SortedMap.erase SortedMap.filter values
  rw [List.filter_map]
  congr 1
  refine List.filter_congr fun e he => ?_
  rw [Function.comp_apply, h e he]
  by_cases hk : k = e.1
  · simp [hk]
  · simp [hk, Ne.symm hk]

/-- The values with their keys are the entries. -/
theorem map_values (h : m.Keyed key) : m.values.map (fun v => (key v, v)) = m.entries := by
  rw [values, List.map_map]
  refine (List.map_congr_left fun e he => ?_).trans (List.map_id _)
  rw [Function.comp_apply, h e he]
  rfl

/-- Putting the values of a map under their keys one by one gives the map. -/
theorem foldl_insert_values [Std.TransOrd κ] [Std.LawfulEqOrd κ] (h : m.Keyed key) :
    m.values.foldl (fun acc v => acc.insert (key v) v) ∅ = m := by
  have hlist : (m.values.map fun v => (key v, v)).foldl (fun acc e => acc.insert e.1 e.2) ∅ = m := by
    rw [h.map_values]
    exact m.ofList_entries
  rwa [List.foldl_map] at hlist

theorem find?_of_mem_values [Std.LawfulEqOrd κ] (h : m.Keyed key) {v : ν} (hv : v ∈ m.values) :
    m.find? (key v) = some v := by
  obtain ⟨k, hk⟩ := mem_values_iff.1 hv
  rw [h.of_find? hk, hk]

end Keyed

end SortedMap

end Lightpath

import Lightpath.Wdm.Catalog

/-!
# The catalog as a list

In a `Coherent` catalog every index lists exactly the serial numbers of the paths with a key, and no
serial number is beyond the next one. Looking up and replacing are then the filters that they should
be: `Coherent.getPaths_eq` and `Coherent.replace`.
-/

namespace Lightpath

namespace WdmPath

/-- Whether a path runs from one port to another; a port that is not given may be any. -/
def runs (ingress egress : Option ConnectPoint) (p : WdmPath) : Bool :=
  ingress.all (fun cp => p.ends.src == cp) && egress.all (fun cp => p.ends.dst == cp)

/-- Whether a path is within a scope: it runs from one port to the other or back. -/
def inScope (ingress egress : Option ConnectPoint) (p : WdmPath) : Bool :=
  p.runs ingress egress || p.runs egress ingress

/-- With both ports given, a path runs between them exactly if they are its ends. -/
theorem runs_pair_iff {p : WdmPath} {cp cp' : ConnectPoint} :
    p.runs (some cp) (some cp') = true ↔ p.ends = ⟨cp, cp'⟩ := by
  simp [runs, ← Ends.mk.injEq]

/-- With both ports given, a scope is both directions of the pair. -/
theorem inScope_pair {p : WdmPath} {cp cp' : ConnectPoint} :
    p.inScope (some cp) (some cp') = true ↔ p.ends = ⟨cp, cp'⟩ ∨ p.ends = ⟨cp', cp⟩ := by
  rw [inScope, Bool.or_eq_true, runs_pair_iff, runs_pair_iff]

/-- With one port given, a scope is every path that starts or ends there. -/
theorem inScope_ingress {p : WdmPath} {cp : ConnectPoint} :
    p.inScope (some cp) none = true ↔ p.ends.src = cp ∨ p.ends.dst = cp := by
  simp [inScope, runs]

theorem inScope_egress {p : WdmPath} {cp : ConnectPoint} :
    p.inScope none (some cp) = true ↔ p.ends.src = cp ∨ p.ends.dst = cp := by
  simp [inScope, runs, or_comm]

theorem inScope_all (p : WdmPath) : p.inScope none none = true := rfl

/-- A path is within a scope exactly if a path in the opposite direction is. -/
theorem inScope_of_reversed {p q : WdmPath} (h : q.ends = p.ends.reversed)
    (ingress egress : Option ConnectPoint) : q.inScope ingress egress = p.inScope ingress egress := by
  have hruns (i e : Option ConnectPoint) : q.runs i e = p.runs e i := by
    rw [runs, runs, h, Bool.and_comm]
    rfl
  rw [inScope, inScope, hruns, hruns, Bool.or_comm]

theorem inScope_congr {p q : WdmPath} (h : q.ends = p.ends) (ingress egress : Option ConnectPoint) :
    q.inScope ingress egress = p.inScope ingress egress := by
  simp only [inScope, runs, h]

end WdmPath

namespace Catalog

/-! ## Indexes of paths -/

section Lists

variable {κ : Type} [Ord κ] [Std.TransOrd κ] [Std.LawfulEqOrd κ]

/-- An index lists under each key the serial numbers of the paths with that key. -/
def Lists (entries : SortedMap Nat WdmPath) (index : Index κ) (key : WdmPath → κ) : Prop :=
  ∀ k serial, serial ∈ index.ids k ↔ ∃ p, entries.find? serial = some p ∧ key p = k

variable {entries : SortedMap Nat WdmPath} {index : Index κ} {key : WdmPath → κ} {p : WdmPath}
  {serial : Nat}

omit [Std.TransOrd κ] [Std.LawfulEqOrd κ] in
theorem lists_empty (key : WdmPath → κ) : Lists ∅ (∅ : Index κ) key := by
  intro k serial
  refine iff_of_false SortedSet.not_mem_empty ?_
  rintro ⟨p, hp, -⟩
  exact nomatch hp

theorem Lists.insert (h : Lists entries index key) (hnew : entries.find? serial = none) :
    Lists (entries.insert serial p) (index.add (key p) serial) key := by
  intro k serial'
  rw [Index.mem_ids_add, h k serial', SortedMap.find?_insert]
  split
  next heq =>
    subst heq
    rw [hnew]
    simp [eq_comm]
  next hne => simp [hne]

theorem Lists.erase (h : Lists entries index key) (hp : entries.find? serial = some p) :
    Lists (entries.erase serial) (index.drop (key p) serial) key := by
  intro k serial'
  rw [Index.mem_ids_drop, h k serial', SortedMap.find?_erase]
  split
  next heq =>
    subst heq
    rw [hp]
    simp [eq_comm]
  next hne => simp [hne]

end Lists

/-! ## Serial numbers and paths -/

variable {c : Catalog}

/-- The serial numbers of the paths that pass `q`. -/
def serials (c : Catalog) (q : WdmPath → Bool) : List Nat :=
  (c.entries.entries.filter fun e => q e.2).map Prod.fst

theorem mem_serials {q : WdmPath → Bool} {serial : Nat} :
    serial ∈ c.serials q ↔ ∃ p, c.entries.find? serial = some p ∧ q p = true := by
  rw [serials, List.mem_map]
  constructor
  · rintro ⟨⟨_, p⟩, he, rfl⟩
    obtain ⟨he, hq⟩ := List.mem_filter.1 he
    exact ⟨p, SortedMap.find?_eq_some_iff.2 he, hq⟩
  · rintro ⟨p, hp, hq⟩
    exact ⟨(serial, p), List.mem_filter.2 ⟨SortedMap.mem_entries_of_find? hp, hq⟩, rfl⟩

theorem pairwise_serials (c : Catalog) (q : WdmPath → Bool) :
    (c.serials q).Pairwise (fun a b => compare a b = .lt) := by
  rw [serials, List.pairwise_map]
  exact c.entries.sorted.sublist List.filter_sublist

theorem nodup_serials (c : Catalog) (q : WdmPath → Bool) : (c.serials q).Nodup :=
  c.entries.nodup_keys.sublist (List.filter_sublist.map Prod.fst)

theorem resolve_serials (c : Catalog) (q : WdmPath → Bool) :
    c.resolve (c.serials q) = c.toList.filter q := by
  have hresolve : ∀ l : List (Nat × WdmPath), (∀ e ∈ l, e ∈ c.entries.entries) →
      (l.map Prod.fst).filterMap c.entries.find? = l.map Prod.snd := by
    intro l hl
    induction l with
    | nil => rfl
    | cons e rest ih =>
      have hfind : c.entries.find? e.1 = some e.2 :=
        SortedMap.find?_eq_some_iff.2 (hl e List.mem_cons_self)
      rw [List.map_cons, List.filterMap_cons_some hfind, List.map_cons,
        ih fun e' he' => hl e' (List.mem_cons_of_mem _ he')]
  rw [resolve, serials, hresolve _ fun e he => (List.mem_filter.1 he).1]
  show _ = (c.entries.entries.map Prod.snd).filter q
  rw [List.filter_map]
  rfl

/-- Serial numbers in ascending order stand for their paths in the order of the catalog. -/
theorem resolve_eq_filter {serials : List Nat} {q : WdmPath → Bool}
    (hsorted : serials.Pairwise (fun a b => compare a b = .lt))
    (hmem : ∀ serial, serial ∈ serials ↔ ∃ p, c.entries.find? serial = some p ∧ q p = true) :
    c.resolve serials = c.toList.filter q := by
  have hserials : serials = c.serials q :=
    SortedSet.toList_eq_of_mem hsorted (c.pairwise_serials q) fun serial =>
      (hmem serial).trans mem_serials.symm
  rw [hserials, resolve_serials]

/-- Serial numbers in any order, each once, stand for their paths in some order. -/
theorem resolve_perm_filter {serials : List Nat} {q : WdmPath → Bool} (hnodup : serials.Nodup)
    (hmem : ∀ serial, serial ∈ serials ↔ ∃ p, c.entries.find? serial = some p ∧ q p = true) :
    (c.resolve serials).Perm (c.toList.filter q) := by
  have hserials : serials.Perm (c.serials q) :=
    (List.perm_ext_iff_of_nodup hnodup (c.nodup_serials q)).2 fun serial =>
      (hmem serial).trans mem_serials.symm
  rw [← resolve_serials]
  exact hserials.filterMap _

/-- Every index lists the paths of the catalog, which have serial numbers below the next one. -/
structure Coherent (c : Catalog) : Prop where
  bounded : ∀ serial p, c.entries.find? serial = some p → serial < c.next
  bySource : Lists c.entries c.bySource fun p => p.ends.src
  byDestination : Lists c.entries c.byDestination fun p => p.ends.dst
  byEnds : Lists c.entries c.byEnds WdmPath.ends

theorem coherent_empty : ({} : Catalog).Coherent where
  bounded := fun _ _ h => nomatch h
  bySource := lists_empty _
  byDestination := lists_empty _
  byEnds := lists_empty _

namespace Coherent

/-! ## Looking up -/

theorem resolve_ids {κ : Type} [Ord κ] [DecidableEq κ] {index : Index κ} {key : WdmPath → κ}
    (h : Lists c.entries index key) (k : κ) :
    c.resolve (index.ids k).toList = c.toList.filter fun p => key p == k := by
  refine resolve_eq_filter (index.ids k).sorted ?_
  intro serial
  rw [← SortedSet.mem_def, h k serial]
  simp only [beq_iff_eq]

/-- Looking up paths gives those that run between the ports, in the order of the catalog. -/
theorem getPaths_eq (h : c.Coherent) (ingress egress : Option ConnectPoint) :
    c.getPaths ingress egress = c.toList.filter fun p => p.runs ingress egress := by
  cases ingress with
  | none =>
    cases egress with
    | none => exact (List.filter_eq_self.2 fun _ _ => rfl).symm
    | some cp => exact resolve_ids h.byDestination cp
  | some cp =>
    cases egress with
    | none =>
      refine (resolve_ids h.bySource cp).trans (List.filter_congr ?_)
      intro p _
      exact (Bool.and_true _).symm
    | some cp' =>
      refine (resolve_ids h.byEnds ⟨cp, cp'⟩).trans (List.filter_congr ?_)
      intro p _
      show (p.ends == ⟨cp, cp'⟩) = (p.ends.src == cp && p.ends.dst == cp')
      rw [Bool.eq_iff_iff, Bool.and_eq_true, beq_iff_eq, beq_iff_eq, beq_iff_eq, Ends.mk.injEq]

/-- The reverse of a path is the first one of the catalog that runs the other way over its mirrored
route. -/
theorem getReverse?_eq (h : c.Coherent) (p : WdmPath) :
    c.getReverse? p = c.toList.find? fun q => q.isReverseOf p := by
  rw [getReverse?, h.getPaths_eq, List.find?_filter]
  congr 1
  funext q
  rw [WdmPath.isReverseOf]
  by_cases hends : q.ends = p.ends.reversed
  · simp [WdmPath.runs, hends, Ends.reversed]
  · simp [hends]

/-- Of serial numbers under one key, and those under another that are not among them. -/
theorem mem_either {κ : Type} [Ord κ] {serial : Nat} (s : SortedSet Nat) (index : Index κ) (k : κ) :
    serial ∈ s.toList ++ (index.ids k).toList.filter (fun x => !s.contains x) ↔
      serial ∈ s ∨ serial ∈ index.ids k := by
  rw [List.mem_append, List.mem_filter, ← SortedSet.mem_def, ← SortedSet.mem_def]
  by_cases hs : serial ∈ s
  · simp [hs]
  · have hcontains : s.contains serial = false := by
      rw [Bool.eq_false_iff, ne_eq, SortedSet.contains_iff]
      exact hs
    simp [hs, hcontains]

/-- A scope holds exactly the paths that run between its ports in either direction. -/
theorem mem_scope (h : c.Coherent) (ingress egress : Option ConnectPoint) (serial : Nat) :
    serial ∈ c.scope ingress egress ↔
      ∃ p, c.entries.find? serial = some p ∧ p.inScope ingress egress = true := by
  have htouching (cp : ConnectPoint) : serial ∈ c.touching cp ↔
      ∃ p, c.entries.find? serial = some p ∧ (p.ends.src = cp ∨ p.ends.dst = cp) := by
    simp only [touching, mem_either]
    rw [h.bySource, h.byDestination, ← exists_or]
    simp only [and_or_left]
  cases ingress with
  | none =>
    cases egress with
    | none =>
      show serial ∈ c.entries.keys ↔ _
      rw [SortedMap.keys, List.mem_map]
      constructor
      · rintro ⟨⟨_, p⟩, he, rfl⟩
        exact ⟨p, SortedMap.find?_eq_some_iff.2 he, rfl⟩
      · rintro ⟨p, hp, -⟩
        exact ⟨(serial, p), SortedMap.mem_entries_of_find? hp, rfl⟩
    | some cp =>
      rw [show c.scope none (some cp) = c.touching cp from rfl, htouching]
      simp only [WdmPath.inScope_egress]
  | some cp =>
    cases egress with
    | none =>
      rw [show c.scope (some cp) none = c.touching cp from rfl, htouching]
      simp only [WdmPath.inScope_ingress]
    | some cp' =>
      show serial ∈ c.joining ⟨cp, cp'⟩ ↔ _
      simp only [joining, mem_either, WdmPath.inScope_pair]
      rw [h.byEnds, h.byEnds, ← exists_or]
      simp only [← and_or_left]
      rfl

/-- Serial numbers under one key and those under another that are not among them are all different. -/
theorem nodup_either {κ : Type} [Ord κ] (s : SortedSet Nat) (index : Index κ) (k : κ) :
    (s.toList ++ (index.ids k).toList.filter (fun x => !s.contains x)).Nodup := by
  refine List.nodup_append.2 ⟨s.nodup, (index.ids k).nodup.sublist List.filter_sublist, ?_⟩
  rintro serial hs _ hs' rfl
  have hcontains := (List.mem_filter.1 hs').2
  rw [SortedSet.contains_iff.2 (SortedSet.mem_def.2 hs)] at hcontains
  exact nomatch hcontains

theorem nodup_scope (c : Catalog) (ingress egress : Option ConnectPoint) :
    (c.scope ingress egress).Nodup := by
  cases ingress with
  | none =>
    cases egress with
    | none => exact c.entries.nodup_keys
    | some cp => exact nodup_either _ _ _
  | some cp =>
    cases egress with
    | none => exact nodup_either _ _ _
    | some cp' => exact nodup_either _ _ _

/-! ## Replacing -/

theorem insert (h : c.Coherent) (p : WdmPath) :
    (c.insert p).Coherent ∧ (c.insert p).toList = c.toList ++ [p] := by
  have hnew : c.entries.find? c.next = none := by
    rw [Option.eq_none_iff_forall_ne_some]
    intro q hq
    exact absurd (h.bounded _ q hq) (Nat.lt_irrefl _)
  refine ⟨⟨?_, h.bySource.insert hnew, h.byDestination.insert hnew, h.byEnds.insert hnew⟩, ?_⟩
  · intro serial q hq
    show serial < c.next + 1
    change (c.entries.insert c.next p).find? serial = some q at hq
    rw [SortedMap.find?_insert] at hq
    split at hq
    next heq => omega
    next =>
      have hlt := h.bounded serial q hq
      omega
  · refine SortedMap.values_insert_last p ?_
    intro e he
    have hlt := h.bounded e.1 e.2 (SortedMap.find?_eq_some_iff.2 he)
    exact Nat.compare_eq_gt.2 hlt

theorem foldl_insert (h : c.Coherent) (paths : List WdmPath) :
    (paths.foldl Catalog.insert c).Coherent ∧
      (paths.foldl Catalog.insert c).toList = c.toList ++ paths := by
  induction paths generalizing c with
  | nil => exact ⟨h, (List.append_nil _).symm⟩
  | cons p rest ih =>
    obtain ⟨hcoherent, hlist⟩ := h.insert p
    obtain ⟨hcoherent', hlist'⟩ := ih hcoherent
    refine ⟨hcoherent', ?_⟩
    rw [List.foldl_cons, hlist', hlist, List.append_assoc, List.singleton_append]

theorem erase (h : c.Coherent) (serial : Nat) :
    (c.erase serial).Coherent ∧ (c.erase serial).entries = c.entries.erase serial := by
  unfold Catalog.erase
  split
  next hnone => exact ⟨h, (SortedMap.erase_of_find?_eq_none hnone).symm⟩
  next p hp =>
    refine ⟨⟨?_, h.bySource.erase hp, h.byDestination.erase hp, h.byEnds.erase hp⟩, rfl⟩
    intro serial' q hq
    change (c.entries.erase serial).find? serial' = some q at hq
    rw [SortedMap.find?_erase] at hq
    split at hq
    next => exact nomatch hq
    next => exact h.bounded serial' q hq

theorem foldl_erase (h : c.Coherent) (serials : List Nat) :
    (serials.foldl Catalog.erase c).Coherent ∧
      (serials.foldl Catalog.erase c).entries = serials.foldl SortedMap.erase c.entries := by
  induction serials generalizing c with
  | nil => exact ⟨h, rfl⟩
  | cons serial rest ih =>
    obtain ⟨hcoherent, hentries⟩ := h.erase serial
    obtain ⟨hcoherent', hentries'⟩ := ih hcoherent
    refine ⟨hcoherent', ?_⟩
    rw [List.foldl_cons, hentries', hentries, List.foldl_cons]

/-- Erasing serial numbers leaves the paths that have none of them. -/
theorem toList_foldl_erase (h : c.Coherent) {serials : List Nat} {q : WdmPath → Bool}
    (hmem : ∀ serial, serial ∈ serials ↔ ∃ p, c.entries.find? serial = some p ∧ q p = true) :
    (serials.foldl Catalog.erase c).toList = c.toList.filter fun p => !q p := by
  have hfilter : serials.foldl SortedMap.erase c.entries = c.entries.filter fun _ p => !q p := by
    refine SortedMap.ext_find? ?_
    intro serial
    rw [SortedMap.find?_foldl_erase, SortedMap.find?_filter]
    cases hfind : c.entries.find? serial with
    | none => rw [ite_self, Option.filter_none]
    | some p =>
      have hiff : serial ∈ serials ↔ q p = true := by
        rw [hmem, hfind]
        simp
      by_cases hq : q p = true
      · simp [hiff, hq, Option.filter]
      · simp [hiff, hq, Option.filter]
  rw [toList, (h.foldl_erase serials).2, hfilter]
  show (c.entries.entries.filter fun e => !q e.2).map Prod.snd =
    (c.entries.entries.map Prod.snd).filter fun p => !q p
  rw [List.filter_map]
  rfl

/-- Replacing drops the paths within the scope and adds the given ones behind the others. -/
theorem replace (h : c.Coherent) (ingress egress : Option ConnectPoint)
    (paths : List WdmPath) :
    (c.replace ingress egress paths).1.Coherent ∧
      (c.replace ingress egress paths).1.toList =
        (c.toList.filter fun p => !p.inScope ingress egress) ++ paths := by
  obtain ⟨hcoherent, -⟩ := h.foldl_erase (c.scope ingress egress)
  obtain ⟨hcoherent', hlist⟩ := hcoherent.foldl_insert paths
  refine ⟨hcoherent', hlist.trans ?_⟩
  rw [h.toList_foldl_erase (h.mem_scope ingress egress)]

/-- Replacing everything leaves just the given paths. -/
theorem replace_all (h : c.Coherent) (paths : List WdmPath) :
    (c.replace none none paths).1.Coherent ∧ (c.replace none none paths).1.toList = paths := by
  obtain ⟨hcoherent, hlist⟩ := h.replace none none paths
  have hnone : (c.toList.filter fun p => !p.inScope none none) = [] :=
    List.filter_eq_nil_iff.2 fun p _ => by simp [WdmPath.inScope_all]
  rw [hnone, List.nil_append] at hlist
  exact ⟨hcoherent, hlist⟩

/-- What replacing reports as removed are the paths within the scope, each as often as it is there. -/
theorem removed_perm (h : c.Coherent) (ingress egress : Option ConnectPoint) (paths : List WdmPath) :
    (c.replace ingress egress paths).2.removed.Perm
      (c.toList.filter fun p => p.inScope ingress egress) :=
  resolve_perm_filter (nodup_scope c ingress egress) (h.mem_scope ingress egress)

/-- A cleared catalog lists nothing. -/
theorem clear (c : Catalog) : c.clear.1.Coherent ∧ c.clear.1.toList = [] := by
  refine ⟨⟨fun _ _ h => (nomatch h), lists_empty _, lists_empty _, lists_empty _⟩, rfl⟩

end Coherent

theorem size_eq (c : Catalog) : c.size = c.toList.length := by
  rw [size, toList, SortedMap.size, SortedMap.values, List.length_map]

end Catalog

end Lightpath

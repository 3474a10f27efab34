import Lightpath.Network.Route
import Lightpath.Routing.Shortest
import Mathlib.Data.List.Induction
import Mathlib.Data.List.Nodup
import Mathlib.Order.Lattice

/-!
# Ways — what a search is about

A way is a list of links that join one device to another and that a search may use (`Graph.IsWay`);
it is loop-free if it visits no device twice (`LoopFree`).

`LawfulCost` says what the searches need of costs: the sums that arise have keys in a linear order
that agree with both comparisons, and adding a weight never lowers the key. `Graph.Costs` relates
links to what the edges over them add up to; in a lawful graph, where no two edges share their ends,
that is one cost (`Graph.Lawful.costOfAll_eq`).
-/

namespace Lightpath

/-! ## Lawful costs -/

/-- Costs whose sums are ordered by a key, and weights that never make a sum cheaper. -/
class LawfulCost (W : Type) [Cost W] where
  Key : Type
  keyOrder : LinearOrder Key
  /-- A key that ascends with the cost of a way. -/
  key : W → Key
  /-- The costs that ways can have. -/
  IsSum : W → Prop
  /-- The costs that links may have. -/
  IsWeight : W → Prop
  isSum_zero : IsSum Cost.zero
  isSum_add : ∀ {a w : W}, IsSum a → IsWeight w → IsSum (Cost.add a w)
  key_le_add : ∀ {a w : W}, IsSum a → IsWeight w → key a ≤ key (Cost.add a w)
  less_iff : ∀ {a b : W}, IsSum a → IsSum b → (Cost.less a b = true ↔ key a < key b)
  order_eq : ∀ {a b : W}, IsSum a → IsSum b → Cost.order a b = compare (key a) (key b)

open LawfulCost

attribute [reducible, instance] LawfulCost.keyOrder

instance : LawfulCost Nat where
  Key := Nat
  keyOrder := inferInstance
  key n := n
  IsSum _ := True
  IsWeight _ := True
  isSum_zero := trivial
  isSum_add _ _ := trivial
  key_le_add {a w} _ _ := Nat.le_add_right a w
  less_iff _ _ := decide_eq_true_iff
  order_eq _ _ := rfl

/-! ## Joined links -/

/-- The links lead from one device to another, each from where the one before it ends. -/
def Joins (a : DeviceId) : List Link → DeviceId → Prop
  | [], b => a = b
  | l :: rest, b => l.src.device = a ∧ Joins l.dst.device rest b

/-- No device is visited twice on the way from a device over the links. -/
def LoopFree (a : DeviceId) (links : List Link) : Prop :=
  (a :: links.map (fun l => l.dst.device)).Nodup

theorem joins_append {a b : DeviceId} {xs ys : List Link} :
    Joins a (xs ++ ys) b ↔ ∃ m, Joins a xs m ∧ Joins m ys b := by
  induction xs generalizing a with
  | nil =>
    constructor
    · intro h
      exact ⟨a, rfl, h⟩
    · rintro ⟨m, rfl, h⟩
      exact h
  | cons l rest ih =>
    rw [List.cons_append, Joins, ih]
    constructor
    · rintro ⟨hl, m, hm, hb⟩
      exact ⟨m, ⟨hl, hm⟩, hb⟩
    · rintro ⟨m, ⟨hl, hm⟩, hb⟩
      exact ⟨hl, m, hm, hb⟩

/-- The links lead to one device only. -/
theorem Joins.unique {a b b' : DeviceId} {links : List Link} (h : Joins a links b)
    (h' : Joins a links b') : b = b' := by
  induction links generalizing a with
  | nil => exact h.symm.trans h'
  | cons l rest ih => exact ih h.2 h'.2

/-- The devices where the links start, and then the last one, are the devices that they visit. -/
theorem Joins.devices {a b : DeviceId} {links : List Link} (h : Joins a links b) :
    links.map (fun l => l.src.device) ++ [b] = a :: links.map (fun l => l.dst.device) := by
  induction links generalizing a with
  | nil => rw [show a = b from h]; rfl
  | cons l rest ih => rw [List.map_cons, List.cons_append, ih h.2, h.1, List.map_cons]

/-- A list of links is loop-free if it starts on different devices up to some point, and goes on
from there without visiting them again. -/
theorem Joins.loopFree_append {a b : DeviceId} {xs ys : List Link} (h : Joins a xs b) :
    LoopFree a (xs ++ ys) ↔ (xs.map (fun l => l.src.device)).Nodup ∧ LoopFree b ys ∧
      ∀ l ∈ xs, l.src.device ∉ b :: ys.map (fun l => l.dst.device) := by
  have hdevices : a :: (xs ++ ys).map (fun l => l.dst.device) =
      xs.map (fun l => l.src.device) ++ b :: ys.map (fun l => l.dst.device) := by
    rw [List.map_append, ← List.cons_append, ← h.devices, List.append_assoc, List.singleton_append]
  rw [LoopFree, hdevices, List.nodup_append]
  constructor
  · rintro ⟨hxs, hys, hne⟩
    exact ⟨hxs, hys, fun l hl hmem => hne _ (List.mem_map.2 ⟨l, hl, rfl⟩) _ hmem rfl⟩
  · rintro ⟨hxs, hys, hne⟩
    refine ⟨hxs, hys, ?_⟩
    intro x hx y hy hxy
    obtain ⟨l, hl, rfl⟩ := List.mem_map.1 hx
    exact hne l hl (hxy ▸ hy)

theorem loopFree_nil (a : DeviceId) : LoopFree a [] :=
  List.nodup_cons.2 ⟨List.not_mem_nil, .nil⟩

theorem Joins.loopFree_iff {a b : DeviceId} {links : List Link} (h : Joins a links b) :
    LoopFree a links ↔
      (links.map (fun l => l.src.device)).Nodup ∧ ∀ l ∈ links, l.src.device ≠ b := by
  rw [← List.append_nil links, h.loopFree_append, List.append_nil]
  simp only [loopFree_nil, true_and, List.map_nil, List.mem_singleton, ne_eq]

/-- A loop-free way goes on over a link to a device that it has not visited. -/
theorem LoopFree.snoc {a b : DeviceId} {links : List Link} {l : Link} (h : LoopFree a links)
    (hjoins : Joins a links b) (hne : l.dst.device ≠ b)
    (hnew : ∀ m ∈ links, m.src.device ≠ l.dst.device) : LoopFree a (links ++ [l]) := by
  obtain ⟨hnodup, hsrc⟩ := hjoins.loopFree_iff.1 h
  refine hjoins.loopFree_append.2 ⟨hnodup, ?_, ?_⟩
  · exact List.nodup_cons.2 ⟨List.mem_singleton.not.2 hne.symm, loopFree_nil _⟩
  · intro m hm hmem
    rcases List.mem_cons.1 hmem with hmem | hmem
    · exact hsrc m hm hmem
    · exact hnew m hm (List.mem_singleton.1 hmem)

/-- Of two loop-free lists of links between the same devices neither is a proper beginning of the
other. -/
theorem Joins.eq_of_prefix {a b : DeviceId} {xs ys : List Link} (hx : Joins a xs b)
    (hy : Joins a ys b) (hloop : LoopFree a ys) (hle : xs <+: ys) : xs = ys := by
  obtain ⟨rest, rfl⟩ := hle
  obtain ⟨m, hm, hrest⟩ := joins_append.1 hy
  obtain rfl := hm.unique hx
  cases rest with
  | nil => exact (List.append_nil xs).symm
  | cons l rest =>
    -- the rest starts on the last device, which would be visited again at its end
    have hlast := (hy.loopFree_iff.1 hloop).2 l (List.mem_append_right _ List.mem_cons_self)
    exact absurd hrest.1 hlast

/-- No link of a loop-free way ends on the device where it starts. -/
theorem Joins.ends_apart {a b : DeviceId} {links : List Link} (h : Joins a links b)
    (hloop : LoopFree a links) : ∀ l ∈ links, l.src.device ≠ l.dst.device := by
  induction links generalizing a with
  | nil => exact fun _ hl => nomatch hl
  | cons l rest ih =>
    obtain ⟨hnew, hrest⟩ := List.nodup_cons.1 hloop
    intro m hm
    rcases List.mem_cons.1 hm with rfl | hm
    · intro heq
      exact hnew (List.mem_map.2 ⟨m, List.mem_cons_self, heq.symm.trans h.1⟩)
    · exact ih h.2 hrest m hm

/-! ## Mirror images -/

theorem mirrored_cons (l : Link) (links : List Link) :
    mirrored (l :: links) = mirrored links ++ [l.reversed] := by
  rw [mirrored, List.map_cons, List.reverse_cons]
  rfl

@[simp]
theorem mirrored_mirrored (links : List Link) : mirrored (mirrored links) = links := by
  simp [mirrored, Function.comp_def]

theorem Joins.mirrored {a b : DeviceId} {links : List Link} (h : Joins a links b) :
    Joins b (mirrored links) a := by
  induction links generalizing a with
  | nil => exact Eq.symm h
  | cons l rest ih =>
    rw [mirrored_cons]
    exact joins_append.2 ⟨l.dst.device, ih h.2, rfl, h.1⟩

theorem Joins.loopFree_mirrored {a b : DeviceId} {links : List Link} (h : Joins a links b)
    (hloop : LoopFree a links) : LoopFree b (Lightpath.mirrored links) := by
  have hdevices : b :: (Lightpath.mirrored links).map (fun l => l.dst.device) =
      (a :: links.map fun l => l.dst.device).reverse := by
    rw [← h.devices, List.reverse_append, Lightpath.mirrored, List.map_reverse, List.map_map]
    rfl
  rw [LoopFree, hdevices, List.nodup_reverse]
  exact hloop

/-! ## Ways through a graph -/

theorem Search.mayUse_iff {closed : Closed} {src : DeviceId} {l : Link} :
    Search.mayUse closed src l = true ↔
      l.dst.device ∉ closed.devices ∧ l.dst.device ≠ src ∧ l.ends ∉ closed.links := by
  simp [Search.mayUse, and_assoc]

namespace Graph

variable {W : Type}

/-- The links lead from one device to another, and a search from the first one may use them. -/
structure IsWay (g : Graph W) (closed : Closed) (a b : DeviceId) (links : List Link) : Prop where
  joins : Joins a links b
  edges : ∀ l ∈ links, ∃ w, (l, w) ∈ g.edges
  usable : ∀ l ∈ links, Search.mayUse closed a l = true

variable {g : Graph W} {closed : Closed} {a b : DeviceId}

theorem isWay_nil : g.IsWay closed a a [] where
  joins := rfl
  edges := fun _ h => nomatch h
  usable := fun _ h => nomatch h

/-- A way goes on over a further link. -/
theorem IsWay.snoc {links : List Link} {l : Link} {w : W} (h : g.IsWay closed a b links)
    (hl : (l, w) ∈ g.edges) (hsrc : l.src.device = b) (huse : Search.mayUse closed a l = true) :
    g.IsWay closed a l.dst.device (links ++ [l]) := by
  refine ⟨joins_append.2 ⟨b, h.joins, hsrc, rfl⟩, ?_, ?_⟩
  · intro m hm
    rcases List.mem_append.1 hm with hm | hm
    · exact h.edges m hm
    · rw [List.mem_singleton] at hm
      exact ⟨w, hm ▸ hl⟩
  · intro m hm
    rcases List.mem_append.1 hm with hm | hm
    · exact h.usable m hm
    · rw [List.mem_singleton] at hm
      exact hm ▸ huse

variable [Cost W]

theorem costOfAll_snoc (g : Graph W) (links : List Link) (l : Link) :
    g.costOfAll (links ++ [l]) = Cost.add (g.costOfAll links) (g.costOf l) := by
  rw [costOfAll, List.foldl_append]
  rfl

/-- The links are edges of the graph, and weights of these edges add up to a cost from the first one
on. -/
inductive Costs (g : Graph W) : List Link → W → Prop
  | nil : Costs g [] Cost.zero
  | snoc {links : List Link} {cost : W} {e : Link × W} (h : Costs g links cost)
      (he : e ∈ g.edges) : Costs g (links ++ [e.1]) (Cost.add cost e.2)

theorem costs_nil_iff {cost : W} : g.Costs [] cost ↔ cost = Cost.zero := by
  constructor
  · intro h
    generalize hnil : ([] : List Link) = links at h
    cases h with
    | nil => rfl
    | snoc => simp at hnil
  · rintro rfl
    exact .nil

/-- Links that are edges have a cost. -/
theorem exists_costs {links : List Link} (hlinks : ∀ l ∈ links, ∃ w, (l, w) ∈ g.edges) :
    ∃ cost, g.Costs links cost := by
  induction links using List.reverseRecOn with
  | nil => exact ⟨_, .nil⟩
  | append_singleton links l ih =>
    obtain ⟨cost, hcost⟩ := ih fun m hm => hlinks m (List.mem_append_left _ hm)
    obtain ⟨w, hw⟩ := hlinks l (List.mem_append_right _ (List.mem_singleton_self l))
    exact ⟨_, hcost.snoc hw⟩

variable [LawfulCost W]

/-- Links may have the weights of the edges. -/
def Weighed (g : Graph W) : Prop := ∀ e ∈ g.edges, IsWeight e.2

/-- Every edge is the only one between its ends, and has a weight. -/
structure Lawful (g : Graph W) : Prop where
  weights : g.Weighed
  distinct : ∀ e ∈ g.edges, ∀ e' ∈ g.edges, e.1.ends = e'.1.ends → e = e'

theorem Costs.isSum {links : List Link} {cost : W} (h : g.Costs links cost) (hw : g.Weighed) :
    IsSum cost := by
  induction h with
  | nil => exact isSum_zero
  | snoc _ he ih => exact isSum_add ih (hw _ he)

theorem Lawful.costOf_eq (h : g.Lawful) {l : Link} {w : W} (hl : (l, w) ∈ g.edges) :
    g.costOf l = w := by
  unfold costOf
  split
  next e he =>
    have hends : e.1.ends = l.ends := by simpa using List.find?_some he
    rw [h.distinct e (List.mem_of_find?_eq_some he) (l, w) hl hends]
  next hnone =>
    have hne := List.find?_eq_none.1 hnone (l, w) hl
    simp at hne

/-- In a lawful graph links have one cost only. -/
theorem Lawful.costOfAll_eq (h : g.Lawful) {links : List Link} {cost : W}
    (hcost : g.Costs links cost) : g.costOfAll links = cost := by
  induction hcost with
  | nil => rfl
  | snoc _ he ih => rw [costOfAll_snoc, h.costOf_eq he, ih]

end Graph

end Lightpath

import Lightpath.Proofs.Routing.Exact
import Mathlib.Algebra.Order.BigOperators.Group.List
import Mathlib.Algebra.Order.Ring.Rat

/-!
# Walks — a search finds the lightest one, or there is none

A walk leads over edges of a graph from one device to another and meets nothing that is closed. It
may come back to a device, also to the one where it starts, and its edges may share their ends with
others of a different weight. From its last visit to its first device on, a walk is a way that a
search can take (`Graph.IsWalk.exists_isWay`), and this part is not heavier than the whole.

`Graph.SearchesOptimally` says what a search with exact weights does: it ends, it finds a loop-free
walk that no other walk undercuts, and it finds nothing only where no walk exists.
-/

namespace Lightpath

namespace Graph

/-! ## Walks through a graph -/

section Walks

variable {W : Type} {g : Graph W} {closed : Closed} {a b c : DeviceId} {walk : List (Link × W)}

/-- The edges lead one after the other from one device to another; no link among them is closed, nor
is any device that they visit, the first one included. -/
structure IsWalk (g : Graph W) (closed : Closed) (a b : DeviceId) (walk : List (Link × W)) :
    Prop where
  joins : Joins a (walk.map Prod.fst) b
  edges : ∀ e ∈ walk, e ∈ g.edges
  links : ∀ e ∈ walk, e.1.ends ∉ closed.links
  devices : ∀ id ∈ a :: walk.map (fun e => e.1.dst.device), id ∉ closed.devices

/-- A way over edges between devices that are not closed is a walk. -/
theorem IsWay.isWalk (h : g.IsWay closed a b (walk.map Prod.fst))
    (hedges : ∀ e ∈ walk, e ∈ g.edges) (ha : a ∉ closed.devices) : g.IsWalk closed a b walk := by
  have huse : ∀ e ∈ walk, Search.mayUse closed a e.1 = true :=
    fun e he => h.usable e.1 (List.mem_map.2 ⟨e, he, rfl⟩)
  constructor
  case joins => exact h.joins
  case edges => exact hedges
  case links =>
    intro e he
    exact (Search.mayUse_iff.1 (huse e he)).2.2
  case devices =>
    intro id hid
    rcases List.mem_cons.1 hid with rfl | hid
    · exact ha
    · obtain ⟨e, he, rfl⟩ := List.mem_map.1 hid
      exact (Search.mayUse_iff.1 (huse e he)).1

/-- Joined edges never enter a device, or they go on from it without entering it again. -/
theorem exists_lastVisit (h : Joins c (walk.map Prod.fst) b) (a : DeviceId) :
    (∀ e ∈ walk, e.1.dst.device ≠ a) ∨
      ∃ before after, walk = before ++ after ∧ Joins a (after.map Prod.fst) b ∧
        ∀ e ∈ after, e.1.dst.device ≠ a := by
  induction walk generalizing c with
  | nil => exact .inl fun _ he => nomatch he
  | cons e rest ih =>
    rcases ih h.2 with hnever | ⟨before, after, rfl, hjoins, hlast⟩
    · by_cases hdst : e.1.dst.device = a
      · exact .inr ⟨[e], rest, rfl, hdst ▸ h.2, hnever⟩
      · refine .inl fun e' he' => ?_
        rcases List.mem_cons.1 he' with rfl | he'
        · exact hdst
        · exact hnever e' he'
    · exact .inr ⟨e :: before, after, rfl, hjoins, hlast⟩

/-- Behind its last visit to its first device a walk is a way. -/
theorem IsWalk.exists_isWay (h : g.IsWalk closed a b walk) :
    ∃ before after, walk = before ++ after ∧ g.IsWay closed a b (after.map Prod.fst) := by
  obtain ⟨before, after, rfl, hjoins, hlast⟩ : ∃ before after, walk = before ++ after ∧
      Joins a (after.map Prod.fst) b ∧ ∀ e ∈ after, e.1.dst.device ≠ a := by
    rcases exists_lastVisit h.joins a with hnever | hlast
    · exact ⟨[], walk, rfl, h.joins, hnever⟩
    · exact hlast
  refine ⟨before, after, rfl, hjoins, ?_, ?_⟩
  · intro l hl
    obtain ⟨e, he, rfl⟩ := List.mem_map.1 hl
    exact ⟨e.2, h.edges e (List.mem_append_right _ he)⟩
  · intro l hl
    obtain ⟨e, he, rfl⟩ := List.mem_map.1 hl
    have hmem := List.mem_append_right before he
    refine Search.mayUse_iff.2 ⟨?_, hlast e he, h.links e hmem⟩
    exact h.devices _ (List.mem_cons_of_mem _ (List.mem_map.2 ⟨e, hmem, rfl⟩))

end Walks

/-! ## Weights of walks -/

variable {W : Type} [AddCommMonoid W] [LinearOrder W]

/-- The weights of the edges, added up. -/
def weightOf (walk : List (Link × W)) : W := (walk.map Prod.snd).sum

variable {g : Graph W} {closed : Closed} {src dst : DeviceId}

/-- Links cost what edges over them weigh. -/
theorem costs_iff {links : List Link} {cost : W} :
    g.Costs links cost ↔
      ∃ walk, (∀ e ∈ walk, e ∈ g.edges) ∧ walk.map Prod.fst = links ∧ weightOf walk = cost := by
  constructor
  · intro h
    induction h with
    | nil => exact ⟨[], by simp, rfl, rfl⟩
    | @snoc links cost e _ he ih =>
      obtain ⟨walk, hedges, rfl, rfl⟩ := ih
      refine ⟨walk ++ [e], ?_, List.map_append, ?_⟩
      · intro e' he'
        rcases List.mem_append.1 he' with he' | he'
        · exact hedges e' he'
        · exact List.mem_singleton.1 he' ▸ he
      · rw [weightOf, List.map_append, List.sum_append, List.map_singleton, List.sum_singleton]
        rfl
  · rintro ⟨walk, hedges, rfl, rfl⟩
    induction walk using List.reverseRecOn with
    | nil => exact .nil
    | append_singleton walk e ih =>
      have hbegin := ih fun e' he' => hedges e' (List.mem_append_left _ he')
      rw [weightOf, List.map_append, List.map_append, List.sum_append, List.map_singleton,
        List.map_singleton, List.sum_singleton]
      exact hbegin.snoc (hedges e (List.mem_append_right _ (List.mem_singleton_self e)))

variable [IsOrderedAddMonoid W]

/-- The end of a list of edges weighs no more than the whole. -/
theorem Weighed.weightOf_le (hg : g.Weighed) {before after : List (Link × W)}
    (hbefore : ∀ e ∈ before, e ∈ g.edges) : weightOf after ≤ weightOf (before ++ after) := by
  have hweight : 0 ≤ weightOf before := by
    refine List.sum_nonneg ?_
    intro w hw
    obtain ⟨e, he, rfl⟩ := List.mem_map.1 hw
    exact hg e (hbefore e he)
  rw [weightOf, weightOf, List.map_append, List.sum_append]
  exact le_add_of_nonneg_left hweight

/-! ## Optimal searches -/

/-- A search comes to its end, after taking no more devices from its queue than there are edges and
the source; it finds nothing exactly if no walk leads to its destination; and what it finds is a
walk without a loop, at its weight, and no walk weighs less. -/
structure SearchesOptimally (g : Graph W) (closed : Closed) (src dst : DeviceId) : Prop where
  ends : g.SearchEnds closed src dst
  bounded : ∀ fuel, g.edges.length < fuel →
    (Search.start src).run g closed src dst fuel = g.explore closed src dst
  eq_none_iff : g.shortest? closed src dst = none ↔ ¬ ∃ walk, g.IsWalk closed src dst walk
  found : ∀ r, g.shortest? closed src dst = some r → LoopFree src r.links ∧
    ∃ walk, g.IsWalk closed src dst walk ∧ walk.map Prod.fst = r.links ∧ weightOf walk = r.cost
  lightest : ∀ r, g.shortest? closed src dst = some r →
    ∀ walk, g.IsWalk closed src dst walk → r.cost ≤ weightOf walk

/-- What a search takes from its queue is bounded by the edges, whatever fuel it has beyond that. -/
theorem Weighed.run_eq_explore (hg : g.Weighed) {fuel : Nat} (hfuel : g.edges.length < fuel) :
    (Search.start src).run g closed src dst fuel = g.explore closed src dst := by
  have hends := (hg.run_ends closed src dst (Nat.lt_succ_self g.edges.length)).1
  have hmore {fuel' : Nat} (hfuel' : g.edges.length < fuel') :
      (Search.start src).run g closed src dst fuel' =
        (Search.start src).run g closed src dst (g.edges.length + 1) :=
    Search.run_of_ends hfuel' hends
  exact (hmore hfuel).trans (hmore Nat.lt_two_pow_self).symm

/-- What a search finds is a walk at its weight. -/
theorem Weighed.exists_isWalk_of_shortest? (hg : g.Weighed) (hsrc : src ∉ closed.devices)
    {r : Weighted W} (h : g.shortest? closed src dst = some r) :
    ∃ walk, g.IsWalk closed src dst walk ∧ walk.map Prod.fst = r.links ∧
      weightOf walk = r.cost := by
  obtain ⟨walk, hedges, hlinks, hweight⟩ := costs_iff.1 (hg.costs_of_shortest? h)
  have hway := isWay_of_shortest? h
  rw [← hlinks] at hway
  exact ⟨walk, hway.isWalk hedges hsrc, hlinks, hweight⟩

/-- No walk weighs less than what a search finds. -/
theorem Weighed.cost_le_weightOf (hg : g.Weighed) {r : Weighted W}
    (h : g.shortest? closed src dst = some r) {walk : List (Link × W)}
    (hwalk : g.IsWalk closed src dst walk) : r.cost ≤ weightOf walk := by
  obtain ⟨before, after, rfl, hway⟩ := hwalk.exists_isWay
  have hafter : ∀ e ∈ after, e ∈ g.edges :=
    fun e he => hwalk.edges e (List.mem_append_right _ he)
  calc r.cost ≤ weightOf after :=
        hg.cost_le_of_shortest? h hway (costs_iff.2 ⟨after, hafter, rfl, rfl⟩)
    _ ≤ weightOf (before ++ after) :=
        hg.weightOf_le fun e he => hwalk.edges e (List.mem_append_left _ he)

/-- A search of a graph whose weights are exact and not negative ends and is optimal, whatever links
and devices are closed to it beside its source. -/
theorem searches_optimally (g : Graph W) (hweights : ∀ e ∈ g.edges, 0 ≤ e.2) (closed : Closed)
    (src dst : DeviceId) (hsrc : src ∉ closed.devices) : g.SearchesOptimally closed src dst := by
  have hg : g.Weighed := hweights
  constructor
  case ends => exact hg.searchEnds closed src dst
  case bounded =>
    intro fuel hfuel
    exact hg.run_eq_explore hfuel
  case eq_none_iff =>
    constructor
    · rintro hnone ⟨walk, hwalk⟩
      obtain ⟨before, after, -, hway⟩ := hwalk.exists_isWay
      have hsome := hg.shortest?_isSome hway
      rw [hnone] at hsome
      cases hsome
    · intro hnever
      refine Option.eq_none_iff_forall_ne_some.2 ?_
      intro r hr
      obtain ⟨walk, hwalk, -⟩ := hg.exists_isWalk_of_shortest? hsrc hr
      exact hnever ⟨walk, hwalk⟩
  case found =>
    intro r hr
    exact ⟨loopFree_of_shortest? hr, hg.exists_isWalk_of_shortest? hsrc hr⟩
  case lightest =>
    intro r hr walk hwalk
    exact hg.cost_le_weightOf hr hwalk

/-- Two devices on a ring that weighs nothing, with links to and from it, one of them twice with
different weights. -/
def weightlessRing : Graph ℚ :=
  ⟨[(.between ⟨"A", 1⟩ ⟨"B", 1⟩, 5), (.between ⟨"A", 2⟩ ⟨"C", 1⟩, 1),
    (.between ⟨"C", 2⟩ ⟨"B", 2⟩, 0), (.between ⟨"B", 2⟩ ⟨"C", 2⟩, 0),
    (.between ⟨"B", 3⟩ ⟨"D", 1⟩, 5 / 2), (.between ⟨"B", 3⟩ ⟨"D", 1⟩, 2),
    (.between ⟨"C", 3⟩ ⟨"D", 2⟩, 3), (.between ⟨"A", 3⟩ ⟨"D", 3⟩, 0),
    (.between ⟨"A", 4⟩ ⟨"E", 1⟩, 0), (.between ⟨"E", 2⟩ ⟨"D", 4⟩, 0)]⟩

/-- The direct link and the device on the other short route. -/
def shortcuts : Closed := ⟨[⟨⟨"A", 3⟩, ⟨"D", 3⟩⟩], ["E"]⟩

/-- With the shortcuts closed the lightest route uses the ring, after `B` and `D` were each reached
in several ways. -/
theorem weightlessRing_searches_optimally :
    (∀ e ∈ weightlessRing.edges, 0 ≤ e.2) ∧ "A" ∉ shortcuts.devices ∧
      weightlessRing.SearchesOptimally shortcuts "A" "D" ∧
      (weightlessRing.shortest? shortcuts "A" "D").map (fun r => (r.links, r.cost)) =
        some ([.between ⟨"A", 2⟩ ⟨"C", 1⟩, .between ⟨"C", 2⟩ ⟨"B", 2⟩, .between ⟨"B", 3⟩ ⟨"D", 1⟩],
          3) := by
  have hweights : ∀ e ∈ weightlessRing.edges, 0 ≤ e.2 := by decide +kernel
  exact ⟨hweights, by decide, weightlessRing.searches_optimally hweights shortcuts "A" "D" (by decide),
    by decide +kernel⟩

end Graph

end Lightpath

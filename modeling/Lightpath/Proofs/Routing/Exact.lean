import Lightpath.Proofs.Routing.Search
import Mathlib.Algebra.BigOperators.Group.List.Basic
import Mathlib.Algebra.Order.Monoid.Defs

/-!
# Exact costs — a search finds a cheapest way

Costs from a linearly ordered monoid are added up without rounding. Making a sum smaller then makes
every longer sum smaller too. So before the destination is taken from the queue, every way to a
device either has a label that is not dearer or passes through a device that waits in the queue at a
cost that is not dearer (`Search.Inv.reached`), and what a search finds is not dearer than any other
way (`Graph.Weighed.cost_le_of_shortest?`).
-/

namespace Lightpath

open LawfulCost

variable {W : Type} [AddCommMonoid W] [LinearOrder W]

/-- Exact costs, in the order of their monoid. -/
instance (priority := low) exactCost : Cost W where
  zero := 0
  add x y := x + y
  less x y := x < y
  order := compare

variable [IsOrderedAddMonoid W]

/-- Links whose weights are not negative make no sum smaller. -/
instance (priority := low) exactLawful : LawfulCost W where
  Key := W
  keyOrder := inferInstance
  key w := w
  IsSum w := 0 ≤ w
  IsWeight w := 0 ≤ w
  isSum_zero := le_rfl
  isSum_add hsum hweight := add_nonneg hsum hweight
  key_le_add _ hweight := le_add_of_nonneg_right hweight
  less_iff _ _ := decide_eq_true_iff
  order_eq _ _ := rfl

namespace Graph

omit [IsOrderedAddMonoid W] in
/-- The cost of a list of links is the sum of their costs. -/
theorem costOfAll_eq_sum (g : Graph W) (links : List Link) :
    g.costOfAll links = (links.map g.costOf).sum := by
  rw [List.sum_eq_foldl, List.foldl_map]
  rfl

omit [IsOrderedAddMonoid W] in
theorem costOfAll_append (g : Graph W) (xs ys : List Link) :
    g.costOfAll (xs ++ ys) = g.costOfAll xs + g.costOfAll ys := by
  rw [costOfAll_eq_sum, costOfAll_eq_sum, costOfAll_eq_sum, List.map_append, List.sum_append]

end Graph

namespace Search

variable {g : Graph W} {closed : Closed} {src dst : DeviceId} {done : List DeviceId} {level : W}
  {s : Search W}

/-- The label of the source costs nothing. -/
theorem Inv.label_src (h : Inv g closed src done [] level s) :
    ∃ label, s.labels.find? src = some label ∧ label.cost = 0 := by
  obtain ⟨label, hlabel⟩ := Option.isSome_iff_exists.1 h.source
  obtain ⟨links, htold⟩ := h.told hlabel
  obtain rfl : links = [] := htold.traced.unique .source
  exact ⟨label, hlabel, Graph.costs_nil_iff.1 htold.cost⟩

/-- A way leads to a device that is done at no higher cost, or some device waits in the queue at no
higher cost. -/
theorem Inv.reached (h : Inv g closed src done [] level s) (hg : g.Weighed) {id : DeviceId}
    {links : List Link} {cost : W} (hway : g.IsWay closed src id links)
    (hcost : g.Costs links cost) :
    (id ∈ done ∧ ∃ label, s.labels.find? id = some label ∧ label.cost ≤ cost) ∨
      ∃ e ∈ s.queue, e.1 ≤ cost := by
  -- a device with a label of this cost is done or waits at the cost of its label
  have hlabelled {id : DeviceId} {label : Label W} {cost : W}
      (hlabel : s.labels.find? id = some label) (hle : label.cost ≤ cost) :
      (id ∈ done ∧ ∃ label, s.labels.find? id = some label ∧ label.cost ≤ cost) ∨
        ∃ e ∈ s.queue, e.1 ≤ cost := by
    rcases h.waiting hlabel with hdone | hqueue
    · exact .inl ⟨hdone, label, hlabel, hle⟩
    · exact .inr ⟨_, hqueue, hle⟩
  induction hcost generalizing id with
  | nil =>
    obtain rfl : src = id := hway.joins
    obtain ⟨label, hlabel, hzero⟩ := h.label_src
    exact hlabelled hlabel hzero.le
  | @snoc links cost e _ hedge ih =>
    obtain ⟨m, hjoins, hsrc, rfl⟩ := joins_append.1 hway.joins
    have huse := hway.usable e.1 (List.mem_append_right _ (List.mem_singleton_self e.1))
    have hweight : 0 ≤ e.2 := hg _ hedge
    have hbegin : g.IsWay closed src m links :=
      ⟨hjoins, fun x hx => hway.edges x (List.mem_append_left _ hx),
        fun x hx => hway.usable x (List.mem_append_left _ hx)⟩
    rcases ih hbegin with ⟨hdone, label, hlabel, hle⟩ | ⟨e', he', hle⟩
    · -- the link has been tried from a label that is not dearer than the way up to there
      have hrelaxed := h.relaxed e hedge (hsrc ▸ hdone) huse
      obtain ⟨a, b, ha, hb, hkey⟩ := hrelaxed.resolve_left List.not_mem_nil
      obtain rfl : label = a := Option.some.inj (hlabel.symm.trans (hsrc ▸ ha))
      refine hlabelled hb (le_trans hkey ?_)
      show label.cost + e.2 ≤ cost + e.2
      exact add_le_add_left hle e.2
    · exact .inr ⟨e', he', hle.trans (le_add_of_nonneg_right hweight)⟩

/-- When no step is left, the label of the destination is not dearer than any way there. -/
theorem Inv.label_le (h : Inv g closed src done [] level s) (hg : g.Weighed)
    (hstep : s.step? g closed src dst = none) {label : Label W}
    (hlabel : s.labels.find? dst = some label) {links : List Link} {cost : W}
    (hway : g.IsWay closed src dst links) (hcost : g.Costs links cost) : label.cost ≤ cost := by
  rcases h.reached hg hway hcost with ⟨-, label', hlabel', hle⟩ | ⟨e, he, hle⟩
  · obtain rfl := Option.some.inj (hlabel.symm.trans hlabel')
    exact hle
  · -- the destination is first in the queue, so nothing there is cheaper
    rcases queue_of_step?_eq_none hstep with hqueue | ⟨cost, rest, hqueue⟩
    · rw [hqueue] at he
      exact nomatch he
    · obtain ⟨-, label', hlabel', hfirst, -⟩ := h.queued (cost, dst) (hqueue ▸ List.mem_cons_self)
      obtain rfl := Option.some.inj (hlabel.symm.trans hlabel')
      have hhead : cost ≤ e.1 := by
        rw [hqueue] at he
        rcases List.mem_cons.1 he with rfl | he
        · exact le_rfl
        · exact ((List.pairwise_cons.1 (hqueue ▸ h.ordered)).1 e he).1
      exact le_trans hfirst (hhead.trans hle)

end Search

namespace Graph

variable {g : Graph W} {closed : Closed} {src dst : DeviceId} {r : Weighted W} {links : List Link}

/-- What a search finds is not dearer than any other way. -/
theorem Weighed.cost_le_of_shortest? (hg : g.Weighed) (h : g.shortest? closed src dst = some r)
    {cost : W} (hway : g.IsWay closed src dst links) (hcost : g.Costs links cost) :
    r.cost ≤ cost := by
  obtain ⟨hstep, done, level, hinv⟩ := hg.explore_ends closed src dst
  obtain ⟨label, hlabel, -, heq⟩ := shortest?_eq_some_iff.1 h
  exact heq ▸ hinv.label_le hg hstep hlabel hway hcost

theorem Lawful.cost_le_of_shortest? (hg : g.Lawful) (h : g.shortest? closed src dst = some r)
    (hway : g.IsWay closed src dst links) : r.cost ≤ g.costOfAll links := by
  obtain ⟨cost, hcost⟩ := exists_costs hway.edges
  exact hg.costOfAll_eq hcost ▸ hg.weights.cost_le_of_shortest? h hway hcost

end Graph

end Lightpath

import Lightpath.Proofs.Routing.Exact
import Lightpath.Proofs.Routing.Routes
import Mathlib.Data.Rat.Defs

/-!
# Cheapest routes — ranked routes are the cheapest ones in order

With exact costs a detour is not dearer than any route that could use it, so between the rounds
there is, for every route that is not found, a candidate that is not dearer. The cheapest candidate
is then the cheapest route that is not found, and not cheaper than those found before
(`Graph.Cheapest.round`).

`Topology.RanksCheapest` says so about the routes of a topology.
-/

namespace Lightpath

variable {W : Type} [AddCommMonoid W] [LinearOrder W]

/-- No candidate is cheaper than the one that is taken. -/
theorem cost_le_of_takeCheapest {candidates others : List (Weighted W)} {best : Weighted W}
    (h : takeCheapest candidates = some (best, others)) : ∀ c ∈ candidates, best.cost ≤ c.cost := by
  induction candidates generalizing best others with
  | nil => exact nomatch h
  | cons c rest ih =>
    intro c' hc'
    unfold takeCheapest at h
    split at h
    next hnone =>
      obtain ⟨rfl, -⟩ := Prod.mk.inj (Option.some.inj h)
      rw [takeCheapest_eq_none hnone] at hc'
      rw [List.mem_singleton.1 hc']
    next best' others' hbest =>
      split at h
      next hlt =>
        obtain ⟨rfl, -⟩ := Prod.mk.inj (Option.some.inj h)
        have hlt : best'.cost < c.cost := compare_lt_iff_lt.1 hlt
        rcases List.mem_cons.1 hc' with rfl | hc'
        · exact hlt.le
        · exact ih hbest c' hc'
      next hge =>
        obtain ⟨rfl, -⟩ := Prod.mk.inj (Option.some.inj h)
        have hge : c.cost ≤ best'.cost := not_lt.1 fun hlt => hge (compare_lt_iff_lt.2 hlt)
        rcases List.mem_cons.1 hc' with rfl | hc'
        · exact le_rfl
        · exact hge.trans (ih hbest c' hc')

variable [IsOrderedAddMonoid W]

namespace Graph

variable {g : Graph W} {src dst : DeviceId} {found candidates others : List (Weighted W)}
  {previous best : Weighted W} {k left : Nat}

/-! ## Costs of detours -/

/-- The first list of links is not dearer than the second. -/
def NotDearer (g : Graph W) (links links' : List Link) : Prop := g.costOfAll links ≤ g.costOfAll links'

theorem Lawful.findsBest (hg : g.Lawful) : g.FindsBest g.NotDearer := by
  intro closed a b r hr way hway root
  have hle : g.costOfAll r.links ≤ g.costOfAll way := by
    rw [← hg.cost_of_shortest? hr]
    exact hg.cost_le_of_shortest? hr hway
  show g.costOfAll (root ++ r.links) ≤ g.costOfAll (root ++ way)
  rw [costOfAll_append, costOfAll_append]
  exact add_le_add_right hle (g.costOfAll root)

/-- The cost of every route is that of its links. -/
def Priced (g : Graph W) (l : List (Weighted W)) : Prop := ∀ f ∈ l, f.cost = g.costOfAll f.links

theorem Lawful.cost_of_detour? (hg : g.Lawful) {links : List Link} {i : Nat} {c : Weighted W}
    (h : g.detour? dst found links i = some c) : c.cost = g.costOfAll c.links := by
  obtain ⟨root, l, rest, rfl, rfl⟩ := split_of_detour? h
  rw [detour?_append, Option.map_eq_some_iff] at h
  obtain ⟨spur, hspur, rfl⟩ := h
  rw [costOfAll_append, ← hg.cost_of_shortest? hspur]
  rfl

theorem Lawful.priced_addDetour (hg : g.Lawful) (h : g.Priced candidates) (links : List Link)
    (i : Nat) : g.Priced (g.addDetour dst found links candidates i) := by
  unfold addDetour
  split
  next => exact h
  next c hc =>
    split
    next => exact h
    next =>
      intro f hf
      rcases List.mem_append.1 hf with hf | hf
      · exact h f hf
      · rw [List.mem_singleton.1 hf]
        exact hg.cost_of_detour? hc

theorem Lawful.priced_withDetours (hg : g.Lawful) (h : g.Priced candidates) (links : List Link) :
    g.Priced (g.withDetours dst found links candidates) := by
  unfold withDetours
  generalize List.range links.length = positions
  induction positions generalizing candidates with
  | nil => exact h
  | cons i rest ih => exact ih (hg.priced_addDetour h links i)

/-! ## Rounds -/

/-- The routes found ascend in cost, and none of the others is cheaper. -/
structure Cheapest (g : Graph W) (src dst : DeviceId) (found candidates : List (Weighted W)) :
    Prop where
  priced : g.Priced found
  candidates : g.Priced candidates
  ascending : found.Pairwise fun f f' => f.cost ≤ f'.cost
  others : ∀ links, g.IsRoute src dst links → (∀ f ∈ found, f.links ≠ links) →
    ∀ f ∈ found, f.cost ≤ g.costOfAll links

omit [IsOrderedAddMonoid W] in
theorem cheapest_nil : g.Cheapest src dst [] [] where
  priced := fun _ hf => nomatch hf
  candidates := fun _ hf => nomatch hf
  ascending := .nil
  others := fun _ _ _ _ hf => nomatch hf

theorem Lawful.cheapest_first (hg : g.Lawful) {first : Weighted W}
    (h : g.shortest? ⟨[], []⟩ src dst = some first) : g.Cheapest src dst [first] [] where
  priced := by
    intro f hf
    rw [List.mem_singleton.1 hf]
    exact hg.cost_of_shortest? h
  candidates := fun _ hf => nomatch hf
  ascending := List.pairwise_singleton _ _
  others := by
    intro links hroute _ f hf
    rw [List.mem_singleton.1 hf]
    exact hg.cost_le_of_shortest? h hroute.isWay

/-- The candidate that is taken is not dearer than any route that is not found. -/
theorem Cheapest.best_le (h : g.Cheapest src dst found candidates) (hg : g.Lawful)
    (hranking : g.Ranking src dst g.NotDearer k left found candidates)
    (hlast : found.getLast? = some previous)
    (htake : takeCheapest (g.withDetours dst found previous.links candidates) = some (best, others))
    {links : List Link} (hroute : g.IsRoute src dst links) (hnew : ∀ f ∈ found, f.links ≠ links) :
    best.cost ≤ g.costOfAll links := by
  obtain ⟨c, hc, hle⟩ := hranking.exists_candidate hg hg.findsBest hlast hroute hnew
  calc best.cost ≤ c.cost := cost_le_of_takeCheapest htake c hc
    _ = g.costOfAll c.links := hg.priced_withDetours h.candidates previous.links c hc
    _ ≤ g.costOfAll links := hle

/-- A round finds the cheapest of the other routes. -/
theorem Cheapest.round (h : g.Cheapest src dst found candidates) (hg : g.Lawful)
    (hranking : g.Ranking src dst g.NotDearer k (left + 1) found candidates)
    (hlast : found.getLast? = some previous)
    (htake : takeCheapest (g.withDetours dst found previous.links candidates) =
      some (best, others)) : g.Cheapest src dst (found ++ [best]) others := by
  have hpriced : g.Priced (g.withDetours dst found previous.links candidates) :=
    hg.priced_withDetours h.candidates previous.links
  have hmem (c : Weighted W) := (takeCheapest_perm htake).mem_iff (a := c)
  have hbest : best.cost = g.costOfAll best.links :=
    hpriced best ((hmem best).2 List.mem_cons_self)
  have hroutes := (hranking.areRoutes.round hlast htake).left
  have hroute : g.IsRoute src dst best.links :=
    hroutes.routes best (List.mem_append_right _ (List.mem_singleton_self best))
  -- the candidate was not found before
  have hnew : ∀ f ∈ found, f.links ≠ best.links := by
    intro f hf heq
    have hnodup := hroutes.nodup
    rw [List.map_append, List.nodup_append] at hnodup
    exact hnodup.2.2 _ (List.mem_map.2 ⟨f, hf, rfl⟩) _ (List.mem_singleton_self _) heq
  constructor
  case priced =>
    intro f hf
    rcases List.mem_append.1 hf with hf | hf
    · exact h.priced f hf
    · exact List.mem_singleton.1 hf ▸ hbest
  case candidates =>
    intro f hf
    exact hpriced f ((hmem f).2 (List.mem_cons_of_mem _ hf))
  case ascending =>
    refine List.pairwise_append.2 ⟨h.ascending, List.pairwise_singleton _ _, ?_⟩
    intro f hf f' hf'
    rw [List.mem_singleton.1 hf', hbest]
    exact h.others best.links hroute hnew f hf
  case others =>
    intro links hlinks hother f hf
    have hbefore : ∀ f ∈ found, f.links ≠ links :=
      fun f hf => hother f (List.mem_append_left _ hf)
    rcases List.mem_append.1 hf with hf | hf
    · exact h.others links hlinks hbefore f hf
    · rw [List.mem_singleton.1 hf]
      exact h.best_le hg hranking hlast htake hlinks hbefore

/-- The ranked routes of a lawful graph are the cheapest ones in order. -/
theorem Lawful.cheapest_ranked (hg : g.Lawful) (src dst : DeviceId) (k : Nat) :
    ∃ candidates, g.Cheapest src dst (g.ranked src dst k) candidates := by
  by_cases hempty : k = 0 ∨ src = dst
  · rw [ranked_eq_nil hempty]
    exact ⟨[], cheapest_nil⟩
  · obtain ⟨hk, hne⟩ := not_or.1 hempty
    have hends := ranked_ends (P := fun left found candidates =>
      g.Ranking src dst g.NotDearer k left found candidates ∧ g.Cheapest src dst found candidates)
      hk hne (fun first hfirst => ⟨ranking_first hk hfirst, hg.cheapest_first hfirst⟩)
      fun ⟨hranking, h⟩ hlast htake =>
        ⟨hranking.round hg hg.findsBest hlast htake, h.round hg hranking hlast htake⟩
    rcases hends with ⟨-, hnil⟩ | ⟨left, candidates, last, ⟨-, h⟩, -⟩
    · rw [hnil]
      exact ⟨[], cheapest_nil⟩
    · exact ⟨candidates, h⟩

end Graph

/-! ## Routes of a topology -/

/-- The weight of a list of links: what the weigher gives, added up. -/
def Weigher.total (weigh : Weigher W) (links : List Link) : W :=
  (links.map fun l => (weigh l).getD 0).sum

theorem Graph.Lawful.costOfAll_eq_total {weigh : Weigher W} {links : List Link}
    (hg : (Graph.ofLinks weigh links).Lawful) {way : List Link}
    (hway : ∀ l ∈ way, ∃ w, (l, w) ∈ (Graph.ofLinks weigh links).edges) :
    (Graph.ofLinks weigh links).costOfAll way = weigh.total way := by
  rw [Graph.costOfAll_eq_sum, Weigher.total]
  refine congrArg List.sum (List.map_congr_left ?_)
  intro l hl
  obtain ⟨w, hw⟩ := hway l hl
  rw [hg.costOf_eq hw, (Graph.mem_edges_ofLinks.1 hw).2, Option.getD_some]

/-- The ranked routes of a topology are different loop-free routes, up to `k` of them and all there
are if they are fewer. Each has the sum of the weights of its links, these sums ascend, and no
loop-free route that is not ranked is cheaper than one that is. -/
structure Topology.RanksCheapest (t : Topology) (weigh : Weigher W) (src dst : DeviceId) (k : Nat)
    (ranked : List (Weighted W)) : Prop where
  returned : ∀ weight : W → Float,
    (t.rankedRoutesBy weigh weight src dst k).map (fun r => (r.links, r.weight)) =
      ranked.map fun f => (f.links, weight f.cost)
  sound : ∀ f ∈ ranked, t.IsLoopFreeRoute weigh src dst f.links
  distinct : (ranked.map Weighted.links).Nodup
  length_le : ranked.length ≤ k
  complete : ranked.length < k → ∀ links, t.IsLoopFreeRoute weigh src dst links →
    links ∈ ranked.map Weighted.links
  weighed : ∀ f ∈ ranked, f.cost = weigh.total f.links
  ascending : ranked.Pairwise fun f f' => f.cost ≤ f'.cost
  cheapest : ∀ links, t.IsLoopFreeRoute weigh src dst links → links ∉ ranked.map Weighted.links →
    ∀ f ∈ ranked, f.cost ≤ weigh.total links

/-- Ranking routes by exact weights that are not negative gives the cheapest ones in order. -/
theorem Topology.rankedRoutes_cheapest (t : Topology) (weigh : Weigher W)
    (hweigh : ∀ l ∈ t.links, ∀ w, weigh l = some w → 0 ≤ w) (src dst : DeviceId) (hne : src ≠ dst)
    (k : Nat) :
    t.RanksCheapest weigh src dst k ((Graph.ofLinks weigh t.links).ranked src dst k) := by
  have hg : (Graph.ofLinks weigh t.links).Lawful := t.lawful_ofLinks hweigh
  obtain ⟨hroutes, hlength, hcomplete⟩ := hg.ranksUpTo_ranked hne k
  obtain ⟨candidates, hcheapest⟩ := hg.cheapest_ranked src dst k
  have htotal {links : List Link} (hroute : (Graph.ofLinks weigh t.links).IsRoute src dst links) :
      (Graph.ofLinks weigh t.links).costOfAll links = weigh.total links :=
    hg.costOfAll_eq_total hroute.edges
  constructor
  case returned =>
    intro weight
    exact t.map_rankedRoutesBy weigh weight src dst k
  case sound =>
    intro f hf
    exact (Topology.isRoute_iff hne).1 (hroutes.routes f hf)
  case distinct => exact hroutes.nodup
  case length_le => exact hlength
  case complete =>
    intro hlt links hroute
    exact List.mem_map.2 (hcomplete hlt links ((Topology.isRoute_iff hne).2 hroute))
  case weighed =>
    intro f hf
    exact (hcheapest.priced f hf).trans (htotal (hroutes.routes f hf))
  case ascending => exact hcheapest.ascending
  case cheapest =>
    intro links hroute hnew f hf
    have hroute := (Topology.isRoute_iff hne).2 hroute
    rw [← htotal hroute]
    refine hcheapest.others links hroute ?_ f hf
    intro f' hf' heq
    exact hnew (List.mem_map.2 ⟨f', hf', heq⟩)

/-- The lengths of the lines in the square as exact numbers. -/
def squareLengths : Weigher ℚ := fun l =>
  if l.src.port = 3 then some 1
  else if l.src.device = "D" ∨ l.dst.device = "D" then some (31 / 2)
  else some 10

/-- The four cheapest of the six routes across the square. -/
theorem square_rankedRoutes_cheapest :
    (∀ l ∈ square.links, ∀ w, squareLengths l = some w → 0 ≤ w) ∧ "A" ≠ "C" ∧
      square.RanksCheapest squareLengths "A" "C" 4
        ((Graph.ofLinks squareLengths square.links).ranked "A" "C" 4) ∧
      ((Graph.ofLinks squareLengths square.links).ranked "A" "C" 4).map Weighted.cost =
        [20, 20, 53 / 2, 53 / 2] := by
  have hweigh : ∀ l ∈ square.links, ∀ w, squareLengths l = some w → 0 ≤ w := by
    intro l hl w hw
    have hall : square.links.all (fun l => (squareLengths l).all (fun w => 0 ≤ w)) = true := by
      decide +kernel
    have hlink := List.all_eq_true.1 hall l hl
    rw [hw] at hlink
    exact of_decide_eq_true hlink
  exact ⟨hweigh, by decide,
    square.rankedRoutes_cheapest squareLengths hweigh "A" "C" (by decide) 4, by decide +kernel⟩

end Lightpath

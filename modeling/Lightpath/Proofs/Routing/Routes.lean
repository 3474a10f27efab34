import Lightpath.Proofs.Numeric.Sums
import Lightpath.Proofs.Routing.Ranked

/-!
# Routes of a topology — sound and complete

`Topology.IsLoopFreeRoute` says what a route between two devices is without mentioning a search:
viable links that follow each other and visit no device twice. `Topology.RanksLoopFreeRoutes` says
that the ranked routes are such routes, and all of them if they are fewer than asked for.

Lengths are doubles. A double that is not negative never makes a sum smaller, however it is rounded,
so lengths are lawful costs.
-/

namespace Lightpath

open LawfulCost

instance : LawfulCost Float where
  Key := Int
  keyOrder := inferInstance
  key := totalKey
  IsSum x := x.toBits.toNat ≤ infiniteWord
  IsWeight w := 0.0 ≤ w
  isSum_zero := Nat.zero_le _
  isSum_add hsum hweight := (toBits_add hsum hweight).2
  key_le_add := by
    intro sum weight hsum hweight
    obtain ⟨hle, hsum'⟩ := toBits_add hsum hweight
    show totalKey sum ≤ totalKey (sum + weight)
    rw [totalKey_eq hsum, totalKey_eq hsum']
    exact Int.ofNat_le.2 hle
  less_iff := by
    intro x y hx hy
    show decide (x < y) = true ↔ totalKey x < totalKey y
    rw [decide_eq_true_iff, lt_iff_toBits hx hy, totalKey_eq hx, totalKey_eq hy, Int.ofNat_lt]
  order_eq _ _ := rfl

/-! ## Loop-free routes -/

/-- Links that start on one device and end on another are joined exactly if they are contiguous. -/
theorem joins_iff {a b : DeviceId} {links : List Link} (hne : links ≠ []) :
    Joins a links b ↔ Contiguous links ∧ links.head?.map (fun l => l.src.device) = some a ∧
      links.getLast?.map (fun l => l.dst.device) = some b := by
  induction links generalizing a with
  | nil => exact absurd rfl hne
  | cons l rest ih =>
    cases rest with
    | nil =>
      show l.src.device = a ∧ l.dst.device = b ↔
        True ∧ some l.src.device = some a ∧ some l.dst.device = some b
      rw [true_and, Option.some.injEq, Option.some.injEq]
    | cons m rest =>
      rw [Joins, ih (List.cons_ne_nil m rest), List.getLast?_cons_cons]
      show _ ↔ (l.dst.device = m.src.device ∧ Contiguous (m :: rest)) ∧
        some l.src.device = some a ∧ _
      constructor
      · rintro ⟨rfl, hcontiguous, hsrc, hdst⟩
        exact ⟨⟨(Option.some.inj hsrc).symm, hcontiguous⟩, rfl, hdst⟩
      · rintro ⟨⟨hmeet, hcontiguous⟩, hsrc, hdst⟩
        exact ⟨Option.some.inj hsrc, hcontiguous, congrArg some hmeet.symm, hdst⟩

/-- The links are viable, follow each other from one device to another, and visit no device twice. -/
structure Topology.IsLoopFreeRoute {W : Type} (t : Topology) (weigh : Weigher W)
    (src dst : DeviceId) (links : List Link) : Prop where
  viable : ∀ l ∈ links, l ∈ t.links ∧ (weigh l).isSome
  contiguous : Contiguous links
  starts : links.head?.map (fun l => l.src.device) = some src
  ends : links.getLast?.map (fun l => l.dst.device) = some dst
  loopFree : (src :: links.map (fun l => l.dst.device)).Nodup

section Topology

variable {W : Type} {t : Topology} {weigh : Weigher W} {src dst : DeviceId}

theorem Graph.mem_edges_ofLinks {links : List Link} {l : Link} {w : W} :
    (l, w) ∈ (Graph.ofLinks weigh links).edges ↔ l ∈ links ∧ weigh l = some w := by
  simp only [Graph.ofLinks, List.mem_filterMap, Option.map_eq_some_iff, Prod.mk.injEq]
  constructor
  · rintro ⟨l', hl', w', hw', rfl, rfl⟩
    exact ⟨hl', hw'⟩
  · rintro ⟨hl, hw⟩
    exact ⟨l, hl, w, hw, rfl, rfl⟩

/-- Where a route between two devices starts and ends. -/
theorem Topology.IsLoopFreeRoute.joins {links : List Link} (h : t.IsLoopFreeRoute weigh src dst links) :
    Joins src links dst := by
  have hlinks : links ≠ [] := by
    rintro rfl
    exact nomatch h.starts
  exact (joins_iff hlinks).2 ⟨h.contiguous, h.starts, h.ends⟩

/-- Between two devices the routes of a topology are those of its graph. -/
theorem Topology.isRoute_iff (hne : src ≠ dst) {links : List Link} :
    (Graph.ofLinks weigh t.links).IsRoute src dst links ↔
      t.IsLoopFreeRoute weigh src dst links := by
  constructor
  · intro h
    have hlinks : links ≠ [] := by
      rintro rfl
      exact hne h.joins
    obtain ⟨hcontiguous, hsrc, hdst⟩ := (joins_iff hlinks).1 h.joins
    refine ⟨?_, hcontiguous, hsrc, hdst, h.loopFree⟩
    intro l hl
    obtain ⟨w, hw⟩ := h.edges l hl
    obtain ⟨hmem, hweight⟩ := Graph.mem_edges_ofLinks.1 hw
    exact ⟨hmem, hweight ▸ rfl⟩
  · intro h
    refine ⟨h.joins, ?_, h.loopFree⟩
    intro l hl
    obtain ⟨hmem, hviable⟩ := h.viable l hl
    obtain ⟨w, hw⟩ := Option.isSome_iff_exists.1 hviable
    exact ⟨w, Graph.mem_edges_ofLinks.2 ⟨hmem, hw⟩⟩

variable [Cost W] [LawfulCost W]

/-- A topology has one link between two connect points, so its graph is lawful if the weights are. -/
theorem Topology.lawful_ofLinks (t : Topology) {weigh : Weigher W}
    (hweigh : ∀ l ∈ t.links, ∀ w, weigh l = some w → IsWeight w) :
    (Graph.ofLinks weigh t.links).Lawful := by
  constructor
  · intro e he
    obtain ⟨hmem, hw⟩ := Graph.mem_edges_ofLinks.1 he
    exact hweigh e.1 hmem e.2 hw
  · intro e he e' he' hends
    obtain ⟨hmem, hw⟩ := Graph.mem_edges_ofLinks.1 he
    obtain ⟨hmem', hw'⟩ := Graph.mem_edges_ofLinks.1 he'
    have hlink : e.1 = e'.1 := t.links_keyed.eq_of_mem_values hmem hmem' hends
    refine Prod.ext hlink (Option.some.inj ?_)
    rw [← hw, ← hw', hlink]

/-! ## Routes from lists of links -/

omit [LawfulCost W] [Cost W] in
theorem Route.ofLinks_of_contiguous {links : List Link} (hne : links ≠ [])
    (hcontiguous : Contiguous links) (weight : Float) :
    Route.ofLinks links weight = .ok ⟨links, weight, hne, hcontiguous⟩ := by
  unfold Route.ofLinks
  rw [dif_neg hne]
  split
  next hgap =>
    rw [firstGap?_of_contiguous hcontiguous] at hgap
    exact nomatch hgap
  next => rfl

omit [LawfulCost W] in
/-- Every ranked list of links is a route between two devices, and becomes one with its weight. -/
theorem Topology.map_rankedRoutesBy (t : Topology) (weigh : Weigher W) (weight : W → Float)
    (src dst : DeviceId) (k : Nat) :
    (t.rankedRoutesBy weigh weight src dst k).map (fun r => (r.links, r.weight)) =
      ((Graph.ofLinks weigh t.links).ranked src dst k).map fun f => (f.links, weight f.cost) := by
  unfold Topology.rankedRoutesBy
  by_cases hne : src = dst
  · rw [Graph.ranked_eq_nil (.inr hne)]
    rfl
  · have hroutes := ((Graph.ofLinks weigh t.links).areRoutes_ranked src dst k).1.routes
    generalize (Graph.ofLinks weigh t.links).ranked src dst k = ranked at hroutes
    induction ranked with
    | nil => rfl
    | cons f rest ih =>
      have hroute := Topology.isRoute_iff hne |>.1 (hroutes f List.mem_cons_self)
      have hlinks : f.links ≠ [] := fun hnil => nomatch hnil ▸ hroute.starts
      rw [List.filterMap_cons_some (b := ⟨f.links, weight f.cost, hlinks, hroute.contiguous⟩),
        List.map_cons, List.map_cons, ih fun f' hf' => hroutes f' (List.mem_cons_of_mem f hf')]
      rw [Route.ofLinks_of_contiguous hlinks hroute.contiguous]
      rfl

omit [LawfulCost W] in
/-- No ranked list of links is lost on the way to a route. -/
theorem Topology.map_links_rankedRoutesBy (t : Topology) (weigh : Weigher W) (weight : W → Float)
    (src dst : DeviceId) (k : Nat) :
    (t.rankedRoutesBy weigh weight src dst k).map Route.links =
      ((Graph.ofLinks weigh t.links).ranked src dst k).map Weighted.links := by
  have hpairs := congrArg (List.map Prod.fst) (t.map_rankedRoutesBy weigh weight src dst k)
  rwa [List.map_map, List.map_map] at hpairs

end Topology

/-! ## Soundness and completeness -/

/-- The searches behind the ranked routes end, and the routes are up to `k` different loop-free
ones; if they are fewer there are no others. -/
structure Topology.RanksLoopFreeRoutes (t : Topology) (weigh : Weigher Float) (src dst : DeviceId)
    (k : Nat) : Prop where
  ends : ∀ closed a b, (Graph.ofLinks weigh t.links).SearchEnds closed a b
  length_le : (t.rankedRoutes weigh src dst k).length ≤ k
  distinct : ((t.rankedRoutes weigh src dst k).map Route.links).Nodup
  sound : ∀ r ∈ t.rankedRoutes weigh src dst k, t.IsLoopFreeRoute weigh src dst r.links
  complete : (t.rankedRoutes weigh src dst k).length < k →
    ∀ links, t.IsLoopFreeRoute weigh src dst links →
      ∃ r ∈ t.rankedRoutes weigh src dst k, r.links = links

/-- Whatever the weights are, up to `k` different loop-free routes are ranked. -/
theorem Topology.rankedRoutes_sound (t : Topology) (weigh : Weigher Float) {src dst : DeviceId}
    (hne : src ≠ dst) (k : Nat) :
    (t.rankedRoutes weigh src dst k).length ≤ k ∧
      ((t.rankedRoutes weigh src dst k).map Route.links).Nodup ∧
        ∀ r ∈ t.rankedRoutes weigh src dst k, t.IsLoopFreeRoute weigh src dst r.links := by
  obtain ⟨hroutes, hlength⟩ := (Graph.ofLinks weigh t.links).areRoutes_ranked src dst k
  have hlinks := t.map_links_rankedRoutesBy weigh id src dst k
  have hsame : (t.rankedRoutes weigh src dst k).length =
      ((Graph.ofLinks weigh t.links).ranked src dst k).length := by
    have hlengths := congrArg List.length hlinks
    rwa [List.length_map, List.length_map] at hlengths
  refine ⟨hsame ▸ hlength, hlinks ▸ hroutes.nodup, ?_⟩
  intro r hr
  have hmem : r.links ∈ (t.rankedRoutes weigh src dst k).map Route.links :=
    List.mem_map.2 ⟨r, hr, rfl⟩
  obtain ⟨f, hf, heq⟩ := List.mem_map.1 (hlinks ▸ hmem)
  exact heq ▸ (Topology.isRoute_iff hne).1 (hroutes.routes f hf)

theorem Graph.Lawful.ranksLoopFreeRoutes {t : Topology} {weigh : Weigher Float}
    (hg : (Graph.ofLinks weigh t.links).Lawful) {src dst : DeviceId} (hne : src ≠ dst) (k : Nat) :
    t.RanksLoopFreeRoutes weigh src dst k := by
  obtain ⟨hlength, hdistinct, hsound⟩ := t.rankedRoutes_sound weigh hne k
  have hlinks : (t.rankedRoutes weigh src dst k).map Route.links =
      ((Graph.ofLinks weigh t.links).ranked src dst k).map Weighted.links :=
    t.map_links_rankedRoutesBy weigh id src dst k
  refine ⟨fun closed a b => hg.weights.searchEnds closed a b, hlength, hdistinct, hsound, ?_⟩
  intro hlt links hroute
  have hsame := congrArg List.length hlinks
  rw [List.length_map, List.length_map] at hsame
  obtain ⟨f, hf, rfl⟩ := (hg.ranksUpTo_ranked hne k).complete (hsame ▸ hlt) links
    ((Topology.isRoute_iff hne).2 hroute)
  exact List.mem_map.1 (hlinks ▸ List.mem_map.2 ⟨f, hf, rfl⟩)

/-- Ranking routes is sound and complete for every weigher whose weights are not negative. -/
theorem Topology.rankedRoutes_sound_complete (t : Topology) (weigh : Weigher Float)
    (hweigh : ∀ l ∈ t.links, ∀ w, weigh l = some w → 0.0 ≤ w) (src dst : DeviceId)
    (hne : src ≠ dst) (k : Nat) : t.RanksLoopFreeRoutes weigh src dst k :=
  (t.lawful_ofLinks hweigh).ranksLoopFreeRoutes hne k

/-- A square of four devices with two lines along one side and a short line across it. -/
def square : Topology :=
  [Link.between ⟨"A", 1⟩ ⟨"B", 1⟩, .between ⟨"B", 2⟩ ⟨"C", 1⟩, .between ⟨"A", 2⟩ ⟨"D", 1⟩,
      .between ⟨"D", 2⟩ ⟨"C", 2⟩, .between ⟨"B", 3⟩ ⟨"D", 3⟩, .between ⟨"A", 4⟩ ⟨"B", 4⟩].foldl
    (fun t l => (t.addLink l).addLink l.reversed) ∅

/-- The lengths of the lines in the square. -/
def squareKm : Weigher Float := fun l =>
  if l.src.port = 3 then some 1.0
  else if l.src.device = "D" ∨ l.dst.device = "D" then some 15.0
  else some 10.0

/-- With the double line there are six loop-free routes across the square. -/
theorem square_rankedRoutes_sound_complete :
    (∀ l ∈ square.links, ∀ w, squareKm l = some w → 0.0 ≤ w) ∧
      square.RanksLoopFreeRoutes squareKm "A" "C" 8 ∧
        (square.rankedRoutes squareKm "A" "C" 8).length = 6 := by
  have hweigh : ∀ l ∈ square.links, ∀ w, squareKm l = some w → 0.0 ≤ w := by
    intro l hl w hw
    have hall : square.links.all (fun l => (squareKm l).all (fun w => 0.0 ≤ w)) = true := by
      decide +kernel
    have hlink := List.all_eq_true.1 hall l hl
    rw [hw] at hlink
    exact of_decide_eq_true hlink
  exact ⟨hweigh, square.rankedRoutes_sound_complete squareKm hweigh "A" "C" (by decide) 8,
    by decide +kernel⟩

/-! ## Lengths of links -/

/-- The weigher of line links only gives positive lengths. -/
theorem fiberKm_pos {t : Topology} {d : LinkDetails} {l : Link} {w : Float}
    (h : fiberKm t d l = some w) (hnumber : w.isNaN = false) : 0.0 < w := by
  unfold fiberKm at h
  split at h
  next =>
    simp only at h
    split at h
    next => exact nomatch h
    next hle =>
      obtain rfl := Option.some.inj h
      exact zero_lt_of_not_le hnumber hle
  next => exact nomatch h

/-- Ranking routes by length is sound and complete where all lengths are numbers. -/
theorem ranksLoopFreeRoutes_fiberKm (t : Topology) (d : LinkDetails)
    (hnumbers : ∀ l ∈ t.links, ∀ w, fiberKm t d l = some w → w.isNaN = false) {src dst : DeviceId}
    (hne : src ≠ dst) (k : Nat) : t.RanksLoopFreeRoutes (fiberKm t d) src dst k := by
  refine (t.lawful_ofLinks ?_).ranksLoopFreeRoutes hne k
  intro l hl w hw
  exact float_le_of_lt (fiberKm_pos hw (hnumbers l hl w hw))

end Lightpath

import Lightpath.Wavelength.Candidate
import Mathlib.Data.List.ProdSigma
import Mathlib.Data.Prod.Lex

/-!
# Candidates — which legs protect each other, and the order of offers

The devices that a leg passes through are collected from the far ends of its links. On a route that starts
at the add device these are the visited devices without the two ends, so two legs are disjoint exactly if
what both visit is an end of one of them and one of them passes through something at all
(`Leg.isDisjoint_iff`). Candidates are sorted by quality with a stable sort (`RankedBy`).
-/

namespace Lightpath

/-! ## Visited devices -/

/-- Every device of a contiguous list of links is the first one or one that a link leads to. -/
theorem mem_devices_hopsOf {links : List Link} (h : Contiguous links) {first : Link}
    (hfirst : links.head? = some first) {d : DeviceId} :
    d ∈ (Route.hopsOf links).map ConnectPoint.device ↔
      d = first.src.device ∨ d ∈ links.map fun l => l.dst.device := by
  induction links generalizing first with
  | nil => cases hfirst
  | cons l rest ih =>
    obtain rfl := Option.some.inj hfirst
    cases rest with
    | nil => simp [Route.hopsOf]
    | cons next rest =>
      have hnext := ih h.2 (List.head?_cons ..)
      have hmeet : l.dst.device = next.src.device := h.1
      rw [Route.hopsOf, List.flatMap_cons, List.map_append, List.mem_append]
      change _ ∨ d ∈ (Route.hopsOf (next :: rest)).map _ ↔ _
      rw [hnext, List.map_cons (a := l), List.mem_cons, hmeet]
      simp only [List.map_cons, List.map_nil, List.mem_cons, List.not_mem_nil, or_false, hmeet]
      tauto

namespace Leg

variable {l m : Leg} {d : DeviceId}

/-- The devices that a leg visits between its edges, its add and drop devices included. -/
def visited (l : Leg) : List DeviceId := l.route.hops.map ConnectPoint.device

/-- The add or the drop device of a leg. -/
def IsEnd (l : Leg) (d : DeviceId) : Prop := d = l.addPort.device ∨ d = l.dropPort.device

instance (l : Leg) (d : DeviceId) : Decidable (l.IsEnd d) :=
  inferInstanceAs (Decidable (_ ∨ _))

/-- Every device that both legs visit is an end of one of them, and one of them passes through a device
that is not one of its ends. -/
def Apart (l m : Leg) : Prop :=
  (∀ d ∈ l.visited, d ∈ m.visited → l.IsEnd d ∨ m.IsEnd d) ∧
    ((∃ d ∈ l.visited, ¬ l.IsEnd d) ∨ ∃ d ∈ m.visited, ¬ m.IsEnd d)

instance (l m : Leg) : Decidable (l.Apart m) := inferInstanceAs (Decidable (_ ∧ _))

/-- On a route that starts at the add device, a leg passes through what it visits apart from its ends. -/
theorem mem_transit (h : l.route.src.device = l.addPort.device) :
    d ∈ l.transit ↔ d ∈ l.visited ∧ ¬ l.IsEnd d := by
  have hvisited := mem_devices_hopsOf (d := d) l.route.contiguous
    (List.head?_eq_some_head l.route.nonempty)
  rw [transit, List.mem_filter, visited, Route.hops, hvisited, Bool.and_eq_true, bne_iff_ne,
    bne_iff_ne, IsEnd, not_or]
  constructor
  · rintro ⟨hmem, hends⟩
    exact ⟨.inr hmem, hends⟩
  · rintro ⟨hfirst | hmem, hends⟩
    · exact absurd (hfirst.trans h) hends.1
    · exact ⟨hmem, hends⟩

theorem isDisjoint_eq_true_iff : l.isDisjoint m = true ↔
    ((∃ d, d ∈ l.transit) ∨ ∃ d, d ∈ m.transit) ∧ ∀ d ∈ l.transit, d ∉ m.transit := by
  have hne (xs : List DeviceId) : (∃ d, d ∈ xs) ↔ xs.isEmpty = false := by
    cases xs with
    | nil => simp
    | cons x rest => exact iff_of_true ⟨x, List.mem_cons_self⟩ rfl
  rw [isDisjoint, Bool.and_eq_true, hne, hne]
  cases l.transit.isEmpty <;> cases m.transit.isEmpty <;> simp

/-- Disjointness does not depend on which leg is the main one. -/
theorem isDisjoint_comm (l m : Leg) : l.isDisjoint m = m.isDisjoint l := by
  rw [Bool.eq_iff_iff, isDisjoint_eq_true_iff, isDisjoint_eq_true_iff, or_comm]
  refine and_congr_right fun _ => ?_
  exact ⟨fun h d hm hl => h d hl hm, fun h d hl hm => h d hm hl⟩

/-- A leg does not protect itself. -/
theorem isDisjoint_self (l : Leg) : l.isDisjoint l = false := by
  rw [Bool.eq_false_iff, ne_eq, isDisjoint_eq_true_iff]
  rintro ⟨⟨d, hd⟩ | ⟨d, hd⟩, hapart⟩
  · exact hapart d hd hd
  · exact hapart d hd hd

/-- Legs whose routes start at their add devices are disjoint exactly if they are apart. -/
theorem isDisjoint_iff (hl : l.route.src.device = l.addPort.device)
    (hm : m.route.src.device = m.addPort.device) : l.isDisjoint m = true ↔ l.Apart m := by
  rw [isDisjoint_eq_true_iff, Apart, and_comm]
  refine and_congr ?_ ?_
  · constructor
    · intro h d hdl hdm
      by_contra hends
      rw [not_or] at hends
      exact h d ((mem_transit hl).2 ⟨hdl, hends.1⟩) ((mem_transit hm).2 ⟨hdm, hends.2⟩)
    · intro h d hdl hdm
      obtain ⟨hvisited, hend⟩ := (mem_transit hl).1 hdl
      obtain ⟨hvisited', hend'⟩ := (mem_transit hm).1 hdm
      rcases h d hvisited hvisited' with hends | hends
      · exact hend hends
      · exact hend' hends
  · refine or_congr ?_ ?_
    · exact exists_congr fun d => mem_transit hl
    · exact exists_congr fun d => mem_transit hm

end Leg

/-! ## Ranking -/

/-- `ranked` lists the items by descending key, and items of one key in their old order. -/
structure RankedBy {α κ : Type} [LinearOrder κ] (key : α → κ) (items ranked : List α) : Prop where
  perm : ranked.Perm items
  descending : ranked.Pairwise fun a b => key b ≤ key a
  stable : ∀ k, ranked.filter (fun a => key a = k) = items.filter fun a => key a = k

/-- Merge sort by descending keys ranks the items. -/
theorem rankedBy_mergeSort {α κ : Type} [LinearOrder κ] (key : α → κ) (le : α → α → Bool)
    (hle : ∀ a b, le a b = true ↔ key b ≤ key a) (items : List α) :
    RankedBy key items (items.mergeSort le) := by
  have htrans (a b c : α) (hab : le a b = true) (hbc : le b c = true) : le a c = true :=
    (hle a c).2 (le_trans ((hle b c).1 hbc) ((hle a b).1 hab))
  have htotal (a b : α) : (le a b || le b a) = true := by
    rw [Bool.or_eq_true, hle, hle]
    exact le_total (key b) (key a)
  have hperm := List.mergeSort_perm items le
  constructor
  case perm => exact hperm
  case descending => exact (List.pairwise_mergeSort htrans htotal items).imp fun h => (hle _ _).1 h
  case stable =>
    intro k
    -- items of one key are in order already, so that sorting keeps them as a sublist
    have hordered : (items.filter fun a => key a = k).Pairwise fun a b => le a b = true := by
      refine List.pairwise_of_forall_mem_list fun a ha b hb => (hle a b).2 ?_
      have hka := of_decide_eq_true (List.mem_filter.1 ha).2
      have hkb := of_decide_eq_true (List.mem_filter.1 hb).2
      rw [hka, hkb]
    have hsublist := List.sublist_mergeSort htrans htotal hordered List.filter_sublist
    have hfiltered := hsublist.filter fun a => key a = k
    rw [List.filter_filter] at hfiltered
    simp only [Bool.and_self] at hfiltered
    exact (hfiltered.eq_of_length (hperm.filter _).length_eq.symm).symm

namespace Offer

variable {mains tributaries : List Offer} {c : Candidate}

/-- The Q of an offer by its place in the total order. -/
def qKey (x : Offer) : Int := totalKey x.leg.quality.q

/-- The Q of the main offer of a pair, then that of its tributary. -/
def pairKey (x : Offer × Offer) : Int ×ₗ Int := toLex (x.1.qKey, x.2.qKey)

theorem isLE_rank_iff {a b : Offer} : (rank a b).isLE = true ↔ b.qKey ≤ a.qKey := by
  rw [rank, totalOrder, Int.isLE_compare]
  rfl

theorem isLE_rankPairs_iff {a b : Offer × Offer} :
    (rankPairs a b).isLE = true ↔ pairKey b ≤ pairKey a := by
  rw [rankPairs, Ordering.isLE_then_iff_or, isLE_rank_iff, pairKey, pairKey,
    Prod.Lex.toLex_le_toLex]
  have hlt : rank a.1 b.1 = .lt ↔ b.1.qKey < a.1.qKey := Int.compare_eq_lt
  have heq : rank a.1 b.1 = .eq ↔ b.1.qKey = a.1.qKey := Int.compare_eq_eq
  rw [hlt, heq]

/-- Single candidates are the offers, ranked by quality. -/
theorem singles_ranked (offers : List Offer) : ∃ ranked, RankedBy qKey offers ranked ∧
    singles offers = ranked.map .single :=
  ⟨_, rankedBy_mergeSort qKey (fun a b => (rank a b).isLE) (fun _ _ => isLE_rank_iff) offers, rfl⟩

/-- Pairs are found main offer by main offer, each with its tributaries in their order. -/
theorem disjointPairs_eq (mains tributaries : List Offer) : disjointPairs mains tributaries =
    (mains.product tributaries).filter fun x => x.1.leg.isDisjoint x.2.leg := by
  rw [disjointPairs, List.product, List.filter_flatMap]
  congr 1
  funext m
  rw [List.filter_map]
  rfl

/-- Pair candidates are the disjoint pairs, ranked by the main quality and then by the other one. -/
theorem pairs_ranked (mains tributaries : List Offer) :
    ∃ ranked, RankedBy pairKey
        ((mains.product tributaries).filter fun x => x.1.leg.isDisjoint x.2.leg) ranked ∧
      pairs mains tributaries = ranked.map fun x => .pair x.1 x.2 := by
  rw [← disjointPairs_eq]
  exact ⟨_, rankedBy_mergeSort pairKey (fun a b => (rankPairs a b).isLE)
    (fun _ _ => isLE_rankPairs_iff) _, rfl⟩

theorem mem_singles : c ∈ singles mains ↔ ∃ x ∈ mains, c = .single x := by
  obtain ⟨ranked, hranked, heq⟩ := singles_ranked mains
  rw [heq, List.mem_map]
  constructor
  · rintro ⟨x, hx, rfl⟩
    exact ⟨x, hranked.perm.mem_iff.1 hx, rfl⟩
  · rintro ⟨x, hx, rfl⟩
    exact ⟨x, hranked.perm.mem_iff.2 hx, rfl⟩

theorem mem_pairs : c ∈ pairs mains tributaries ↔
    ∃ m ∈ mains, ∃ t ∈ tributaries, m.leg.isDisjoint t.leg = true ∧ c = .pair m t := by
  obtain ⟨ranked, hranked, heq⟩ := pairs_ranked mains tributaries
  rw [heq, List.mem_map]
  constructor
  · rintro ⟨⟨m, t⟩, hx, rfl⟩
    obtain ⟨hmem, hdisjoint⟩ := List.mem_filter.1 (hranked.perm.mem_iff.1 hx)
    obtain ⟨hm, ht⟩ := List.mem_product.1 hmem
    exact ⟨m, hm, t, ht, hdisjoint, rfl⟩
  · rintro ⟨m, hm, t, ht, hdisjoint, rfl⟩
    refine ⟨(m, t), hranked.perm.mem_iff.2 (List.mem_filter.2 ⟨?_, hdisjoint⟩), rfl⟩
    exact List.mem_product.2 ⟨hm, ht⟩

end Offer

end Lightpath

import Lightpath.Proofs.Routing.Search
import Lightpath.Routing.Ranked

/-!
# Detours — loop-free routes that leave a known route

A detour keeps a beginning `root` of a known route and searches on from there. What it closes makes
the result loop-free and different from every found route (`isRoute_of_detour`), and nothing
else is closed: a route that begins with `root` and then takes a link that no found route takes
there makes the search succeed (`Lawful.detour?_isSome`).
-/

namespace Lightpath

namespace Graph

variable {W : Type} {g : Graph W} {src dst : DeviceId}

/-- The links are a loop-free way of edges from one device to another. -/
structure IsRoute (g : Graph W) (src dst : DeviceId) (links : List Link) : Prop where
  joins : Joins src links dst
  edges : ∀ l ∈ links, ∃ w, (l, w) ∈ g.edges
  loopFree : LoopFree src links

/-- Of two routes neither is a proper beginning of the other. -/
theorem IsRoute.eq_of_prefix {xs ys : List Link} (hx : g.IsRoute src dst xs)
    (hy : g.IsRoute src dst ys) (h : xs <+: ys) : xs = ys :=
  hx.joins.eq_of_prefix hy.joins hy.loopFree h

/-- A route does not go on from its destination. -/
theorem IsRoute.not_append_cons {links rest : List Link} {l : Link}
    (h : g.IsRoute src dst links) : ¬ g.IsRoute src dst (links ++ l :: rest) := by
  intro hlonger
  have heq := h.eq_of_prefix hlonger (List.prefix_append links (l :: rest))
  rw [List.self_eq_append_right] at heq
  exact nomatch heq

/-- Two routes with the same beginning go on from the same device. -/
theorem IsRoute.src_eq {root rest rest' : List Link} {l l' : Link}
    (h : g.IsRoute src dst (root ++ l :: rest)) (h' : g.IsRoute src dst (root ++ l' :: rest')) :
    l.src.device = l'.src.device := by
  obtain ⟨a, hroot, hsrc, -⟩ := joins_append.1 h.joins
  obtain ⟨a', hroot', hsrc', -⟩ := joins_append.1 h'.joins
  rw [hsrc, hsrc', hroot'.unique hroot]

/-- A route can be used when nothing is closed. -/
theorem IsRoute.isWay {links : List Link} (h : g.IsRoute src dst links) :
    g.IsWay ⟨[], []⟩ src dst links := by
  refine ⟨h.joins, h.edges, fun l hl => Search.mayUse_iff.2 ⟨List.not_mem_nil, ?_, List.not_mem_nil⟩⟩
  intro heq
  exact (List.nodup_cons.1 h.loopFree).1 (List.mem_map.2 ⟨l, hl, heq⟩)

/-! ## What is closed -/

theorem getElem?_append_length (root rest : List Link) (l : Link) :
    (root ++ l :: rest)[root.length]? = some l := by
  rw [List.getElem?_append_right le_rfl, Nat.sub_self]
  rfl

/-- The beginning and the link after it, read off the list. -/
theorem take_eq_and_getElem?_iff {links root : List Link} {l : Link} :
    links.take root.length = root ∧ links[root.length]? = some l ↔
      ∃ rest, links = root ++ l :: rest := by
  constructor
  · rintro ⟨htake, hget⟩
    obtain ⟨hlt, rfl⟩ := List.getElem?_eq_some_iff.1 hget
    refine ⟨links.drop (root.length + 1), ?_⟩
    rw [List.getElem_cons_drop]
    conv_rhs => arg 1; rw [← htake]
    exact (List.take_append_drop _ _).symm
  · rintro ⟨rest, rfl⟩
    exact ⟨List.take_left, getElem?_append_length root rest l⟩

theorem mem_links_closedAt {found : List (Weighted W)} {root : List Link} {ends : Ends} :
    ends ∈ (closedAt found root root.length).links ↔
      ∃ f ∈ found, ∃ l, (∃ rest, f.links = root ++ l :: rest) ∧ l.ends = ends := by
  unfold closedAt
  rw [List.mem_filterMap]
  refine exists_congr fun f => and_congr_right fun _ => ?_
  simp only [← take_eq_and_getElem?_iff]
  split
  next htake => simp only [htake, true_and, Option.map_eq_some_iff]
  next htake => simp only [htake, false_and, exists_false, reduceCtorEq]

theorem mem_devices_closedAt {found : List (Weighted W)} {root : List Link} {id : DeviceId} :
    id ∈ (closedAt found root root.length).devices ↔ ∃ l ∈ root, l.src.device = id :=
  List.mem_map

/-! ## One detour -/

variable [Cost W]

theorem detour?_append (g : Graph W) (dst : DeviceId) (found : List (Weighted W))
    (root rest : List Link) (l : Link) :
    g.detour? dst found (root ++ l :: rest) root.length =
      (g.shortest? (closedAt found root root.length) l.src.device dst).map fun spur =>
        ⟨root ++ spur.links, Cost.add (g.costOfAll root) spur.cost⟩ := by
  unfold detour?
  rw [List.take_left, getElem?_append_length]

/-- A detour leaves a route at a position of that route. -/
theorem split_of_detour? {found : List (Weighted W)} {previous : List Link} {i : Nat} {c : Weighted W}
    (h : g.detour? dst found previous i = some c) :
    ∃ root l rest, previous = root ++ l :: rest ∧ root.length = i := by
  unfold detour? at h
  simp only at h
  split at h
  next => exact nomatch h
  next l hget =>
    obtain ⟨hlt, rfl⟩ := List.getElem?_eq_some_iff.1 hget
    refine ⟨previous.take i, previous[i], previous.drop (i + 1), ?_, ?_⟩
    · rw [List.getElem_cons_drop, List.take_append_drop]
    · rw [List.length_take]
      omega

/-- A detour is a route that begins where it should and is none of those found. -/
theorem isRoute_of_detour {found : List (Weighted W)} {root rest : List Link} {l : Link}
    (hroute : g.IsRoute src dst (root ++ l :: rest)) {c : Weighted W}
    (h : g.detour? dst found (root ++ l :: rest) root.length = some c) :
    g.IsRoute src dst c.links ∧ root <+: c.links ∧ ∀ f ∈ found, f.links ≠ c.links := by
  rw [detour?_append, Option.map_eq_some_iff] at h
  obtain ⟨spur, hspur, rfl⟩ := h
  have hway := isWay_of_shortest? hspur
  have hloop := loopFree_of_shortest? hspur
  obtain ⟨a, hroot, rfl, hrest⟩ := joins_append.1 hroute.joins
  obtain ⟨hnodup, -, houtside⟩ := hroot.loopFree_append.1 hroute.loopFree
  refine ⟨⟨joins_append.2 ⟨_, hroot, hway.joins⟩, ?_, ?_⟩, List.prefix_append _ _, ?_⟩
  · intro m hm
    rcases List.mem_append.1 hm with hm | hm
    · exact hroute.edges m (List.mem_append_left _ hm)
    · exact hway.edges m hm
  · refine hroot.loopFree_append.2 ⟨hnodup, hloop, ?_⟩
    intro m hm hmem
    rcases List.mem_cons.1 hmem with hmem | hmem
    · exact houtside m hm (hmem ▸ List.mem_cons_self)
    · obtain ⟨x, hx, hdst⟩ := List.mem_map.1 hmem
      exact (Search.mayUse_iff.1 (hway.usable x hx)).1 (mem_devices_closedAt.2 ⟨m, hm, hdst.symm⟩)
  · intro f hf heq
    -- the route goes on after the root, so the spur has a first link, which is closed
    cases hlinks : spur.links with
    | nil =>
      have hdst : l.src.device = dst := by
        have hjoins := hway.joins
        rwa [hlinks] at hjoins
      have hlast := (hroute.joins.loopFree_iff.1 hroute.loopFree).2 l
      exact hlast (List.mem_append_right _ List.mem_cons_self) hdst
    | cons m tail =>
      have huse := Search.mayUse_iff.1 (hway.usable m (hlinks ▸ List.mem_cons_self))
      exact huse.2.2 (mem_links_closedAt.2 ⟨f, hf, m, ⟨tail, hlinks ▸ heq⟩, rfl⟩)

variable [LawfulCost W]

/-- A route that takes a new link after the root can be used by the detour there. -/
theorem Lawful.isWay_closedAt (hg : g.Lawful) {found : List (Weighted W)} {root rest : List Link}
    {l : Link} (hfound : ∀ f ∈ found, g.IsRoute src dst f.links)
    (hroute : g.IsRoute src dst (root ++ l :: rest))
    (hnew : ∀ f ∈ found, ∀ tail, f.links ≠ root ++ l :: tail) :
    g.IsWay (closedAt found root root.length) l.src.device dst (l :: rest) := by
  obtain ⟨a, hroot, rfl, hrest⟩ := joins_append.1 hroute.joins
  obtain ⟨-, hloop, houtside⟩ := hroot.loopFree_append.1 hroute.loopFree
  have hedges : ∀ m ∈ l :: rest, ∃ w, (m, w) ∈ g.edges :=
    fun m hm => hroute.edges m (List.mem_append_right _ hm)
  refine ⟨⟨rfl, hrest⟩, hedges, fun m hm => Search.mayUse_iff.2 ⟨?_, ?_, ?_⟩⟩
  · intro hmem
    obtain ⟨x, hx, heq⟩ := mem_devices_closedAt.1 hmem
    exact houtside x hx (List.mem_cons_of_mem _ (List.mem_map.2 ⟨m, hm, heq.symm⟩))
  · intro heq
    exact (List.nodup_cons.1 hloop).1 (List.mem_map.2 ⟨m, hm, heq⟩)
  · intro hmem
    obtain ⟨f, hf, x, ⟨tail, htail⟩, hends⟩ := mem_links_closedAt.1 hmem
    -- the link of the found route starts where the root ends, so only `l` can be the same
    have hfroute := htail ▸ hfound f hf
    obtain ⟨b, hroot', hxsrc, -⟩ := joins_append.1 hfroute.joins
    obtain ⟨w, hw⟩ := hedges m hm
    obtain ⟨w', hw'⟩ := hfroute.edges x (List.mem_append_right _ List.mem_cons_self)
    have hxm : x = m := congrArg Prod.fst (hg.distinct _ hw' _ hw hends)
    have hmsrc : m.src.device = l.src.device :=
      hxm ▸ hxsrc.trans (hroot'.unique hroot)
    rcases List.mem_cons.1 hm with rfl | hm
    · exact hnew f hf tail (hxm ▸ htail)
    · have hsources := (Joins.loopFree_iff (show Joins l.src.device (l :: rest) dst from
        ⟨rfl, hrest⟩)).1 hloop
      exact (List.nodup_cons.1 hsources.1).1 (List.mem_map.2 ⟨m, hm, hmsrc⟩)

/-- There is a detour if some route takes a new link after the root. -/
theorem Lawful.detour?_isSome (hg : g.Lawful) {found : List (Weighted W)}
    {root rest rest' : List Link} {l l' : Link} (hfound : ∀ f ∈ found, g.IsRoute src dst f.links)
    (hprevious : g.IsRoute src dst (root ++ l :: rest))
    (hroute : g.IsRoute src dst (root ++ l' :: rest'))
    (hnew : ∀ f ∈ found, ∀ tail, f.links ≠ root ++ l' :: tail) :
    (g.detour? dst found (root ++ l :: rest) root.length).isSome := by
  have hsome := hg.weights.shortest?_isSome (hg.isWay_closedAt hfound hroute hnew)
  rw [detour?_append, Option.isSome_map, hprevious.src_eq hroute]
  exact hsome

end Graph

end Lightpath

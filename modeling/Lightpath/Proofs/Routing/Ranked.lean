import Lightpath.Proofs.Routing.Detours

/-!
# Ranked routes — every loop-free route is found in the end

A round looks for the detours of the route found last and moves the cheapest candidate to the routes
found. What rounds preserve holds of the ranked routes (`ranked_ends`); whatever the costs are, the
routes found and the candidates are different routes (`AreRoutes`).

A beginning of a found route is swept (`Swept`) if every route that goes on from it in a way that no
found route does has a candidate with the same beginning that is as good. What "as good" means is
left open: a search has to find something as good as every way that it could have found
(`FindsBest`). Looking for detours then sweeps all beginnings of the route found last. Moving a
candidate to the routes found undoes this only for beginnings of that candidate, which are looked at
next. Between the rounds there is thus a candidate for every route that is not found
(`Ranking.exists_candidate`), and once no candidate is left the found routes are all there are.
-/

namespace Lightpath

/-! ## The cheapest candidate -/

section Cheapest

variable {W : Type} [Cost W]

theorem takeCheapest_perm {candidates others : List (Weighted W)} {best : Weighted W}
    (h : takeCheapest candidates = some (best, others)) : candidates.Perm (best :: others) := by
  induction candidates generalizing best others with
  | nil => exact nomatch h
  | cons c rest ih =>
    unfold takeCheapest at h
    split at h
    next hnone =>
      obtain ⟨rfl, rfl⟩ := Prod.mk.inj (Option.some.inj h)
      cases rest with
      | nil => exact .refl _
      | cons c' rest =>
        unfold takeCheapest at hnone
        split at hnone
        next => exact nomatch hnone
        next => split at hnone <;> exact nomatch hnone
    next best' others' hbest =>
      split at h
      next =>
        obtain ⟨rfl, rfl⟩ := Prod.mk.inj (Option.some.inj h)
        exact ((ih hbest).cons c).trans (.swap _ _ _)
      next =>
        obtain ⟨rfl, rfl⟩ := Prod.mk.inj (Option.some.inj h)
        exact .refl _

theorem takeCheapest_eq_none {candidates : List (Weighted W)} (h : takeCheapest candidates = none) :
    candidates = [] := by
  cases candidates with
  | nil => rfl
  | cons c rest =>
    unfold takeCheapest at h
    split at h
    next => exact nomatch h
    next => split at h <;> exact nomatch h

end Cheapest

namespace Graph

variable {W : Type}

/-! ## Different routes -/

/-- The lists of links are routes and different from each other. -/
structure AreRoutes (g : Graph W) (src dst : DeviceId) (l : List (Weighted W)) : Prop where
  routes : ∀ f ∈ l, g.IsRoute src dst f.links
  nodup : (l.map Weighted.links).Nodup

variable {g : Graph W} {src dst : DeviceId} {found candidates : List (Weighted W)}

theorem areRoutes_nil : g.AreRoutes src dst [] where
  routes := fun _ hf => nomatch hf
  nodup := .nil

theorem AreRoutes.perm {l l' : List (Weighted W)} (h : g.AreRoutes src dst l) (hperm : l.Perm l') :
    g.AreRoutes src dst l' :=
  ⟨fun f hf => h.routes f (hperm.mem_iff.2 hf), (hperm.map _).nodup_iff.1 h.nodup⟩

theorem AreRoutes.left {l l' : List (Weighted W)} (h : g.AreRoutes src dst (l ++ l')) :
    g.AreRoutes src dst l := by
  refine ⟨fun f hf => h.routes f (List.mem_append_left _ hf), ?_⟩
  exact h.nodup.sublist ((List.sublist_append_left l l').map _)

theorem AreRoutes.snoc {l : List (Weighted W)} {c : Weighted W} (h : g.AreRoutes src dst l)
    (hc : g.IsRoute src dst c.links) (hnew : ∀ f ∈ l, f.links ≠ c.links) :
    g.AreRoutes src dst (l ++ [c]) := by
  constructor
  · intro f hf
    rcases List.mem_append.1 hf with hf | hf
    · exact h.routes f hf
    · exact List.mem_singleton.1 hf ▸ hc
  · rw [List.map_append, List.nodup_append]
    refine ⟨h.nodup, List.pairwise_singleton _ _, ?_⟩
    intro x hx y hy hxy
    obtain ⟨f, hf, rfl⟩ := List.mem_map.1 hx
    rw [List.map_singleton, List.mem_singleton] at hy
    exact hnew f hf (hxy.trans hy)

/-- A candidate is moved to the routes found. -/
theorem AreRoutes.move {others : List (Weighted W)} {best : Weighted W}
    (h : g.AreRoutes src dst (found ++ candidates)) (hperm : candidates.Perm (best :: others)) :
    g.AreRoutes src dst ((found ++ [best]) ++ others) := by
  rw [List.append_assoc, List.singleton_append]
  exact h.perm (hperm.append_left found)

/-- A route that is not found leaves the found ones: after some beginning of a found route it takes
a link that no found route takes there. -/
theorem AreRoutes.exists_branch (h : g.AreRoutes src dst found) (hne : found ≠ [])
    {links : List Link} (hroute : g.IsRoute src dst links) (hnew : ∀ f ∈ found, f.links ≠ links) :
    ∃ root l rest, links = root ++ l :: rest ∧
      (∃ f ∈ found, ∃ m tail, f.links = root ++ m :: tail) ∧
        ∀ f ∈ found, ∀ tail, f.links ≠ root ++ l :: tail := by
  -- as long as the beginning is one of a found route it can be made longer
  suffices hbegin : ∀ rest root, root ++ rest = links → (∃ f ∈ found, root <+: f.links) →
      ∃ root l rest, links = root ++ l :: rest ∧
        (∃ f ∈ found, ∃ m tail, f.links = root ++ m :: tail) ∧
          ∀ f ∈ found, ∀ tail, f.links ≠ root ++ l :: tail by
    obtain ⟨f, hf⟩ := List.exists_mem_of_ne_nil found hne
    exact hbegin links [] (List.nil_append links) ⟨f, hf, List.nil_prefix⟩
  intro rest
  induction rest with
  | nil =>
    rintro root heq ⟨f, hf, hprefix⟩
    rw [List.append_nil] at heq
    subst heq
    exact absurd (hroute.eq_of_prefix (h.routes f hf) hprefix).symm (hnew f hf)
  | cons l rest ih =>
    rintro root heq ⟨f, hf, tail, htail⟩
    by_cases hgoes : ∃ f ∈ found, ∃ tail, f.links = root ++ l :: tail
    · obtain ⟨f', hf', tail', htail'⟩ := hgoes
      refine ih (root ++ [l]) ?_ ⟨f', hf', tail', ?_⟩
      · rw [List.append_assoc, List.singleton_append, heq]
      · rw [htail', List.append_assoc, List.singleton_append]
    · cases tail with
      | nil =>
        rw [List.append_nil] at htail
        have hlonger := hroute
        rw [← heq, htail] at hlonger
        exact absurd hlonger (h.routes f hf).not_append_cons
      | cons m tail =>
        refine ⟨root, l, rest, heq.symm, ⟨f, hf, m, tail, htail.symm⟩, ?_⟩
        intro f' hf' tail' htail'
        exact hgoes ⟨f', hf', tail', htail'⟩

/-! ## Rounds -/

section Rounds

theorem isKnown_iff {links : List Link} {l : List (Weighted W)} :
    isKnown links l = true ↔ ∃ f ∈ l, f.links = links := by
  simp [isKnown]

variable [Cost W]

theorem mem_addDetour {previous : List Link} {c : Weighted W} (h : c ∈ candidates) (i : Nat) :
    c ∈ g.addDetour dst found previous candidates i := by
  unfold addDetour
  split
  next => exact h
  next =>
    split
    next => exact h
    next => exact List.mem_append_left _ h

theorem mem_foldl_addDetour {previous : List Link} {c : Weighted W} (h : c ∈ candidates)
    (positions : List Nat) : c ∈ positions.foldl (g.addDetour dst found previous) candidates := by
  induction positions generalizing candidates with
  | nil => exact h
  | cons i rest ih => exact ih (mem_addDetour h i)

/-- A detour that is added is a new route. -/
theorem AreRoutes.addDetour {previous : List Link} (h : g.AreRoutes src dst (found ++ candidates))
    (hprevious : g.IsRoute src dst previous) (i : Nat) :
    g.AreRoutes src dst (found ++ g.addDetour dst found previous candidates i) := by
  unfold Graph.addDetour
  split
  next => exact h
  next c hsome =>
    split
    next => exact h
    next hnew =>
      obtain ⟨root, l, rest, rfl, rfl⟩ := split_of_detour? hsome
      obtain ⟨hroute, -, -⟩ := isRoute_of_detour hprevious hsome
      rw [← List.append_assoc]
      refine h.snoc hroute ?_
      intro f hf heq
      refine hnew ?_
      rw [Bool.or_eq_true]
      exact (List.mem_append.1 hf).imp (fun hf => isKnown_iff.2 ⟨f, hf, heq⟩)
        fun hf => isKnown_iff.2 ⟨f, hf, heq⟩

theorem AreRoutes.foldl_addDetour {previous : List Link}
    (h : g.AreRoutes src dst (found ++ candidates)) (hprevious : g.IsRoute src dst previous)
    (positions : List Nat) :
    g.AreRoutes src dst (found ++ positions.foldl (g.addDetour dst found previous) candidates) := by
  induction positions generalizing candidates with
  | nil => exact h
  | cons i rest ih => exact ih (h.addDetour hprevious i)

/-- The candidates with the detours of a route. -/
def withDetours (g : Graph W) (dst : DeviceId) (found : List (Weighted W)) (previous : List Link)
    (candidates : List (Weighted W)) : List (Weighted W) :=
  (List.range previous.length).foldl (g.addDetour dst found previous) candidates

/-- What a round preserves holds in the end, when no round is left or there is no candidate. -/
theorem rankedFrom_ends {P : Nat → List (Weighted W) → List (Weighted W) → Prop}
    (hround : ∀ {left found candidates previous best others}, P (left + 1) found candidates →
      found.getLast? = some previous →
      takeCheapest (g.withDetours dst found previous.links candidates) = some (best, others) →
      P left (found ++ [best]) others)
    {more : Nat} {last : Weighted W} (h : P more found candidates)
    (hlast : found.getLast? = some last) :
    ∃ left candidates' last', P left (g.rankedFrom dst more found candidates) candidates' ∧
      (g.rankedFrom dst more found candidates).getLast? = some last' ∧
        (left = 0 ∨ g.withDetours dst (g.rankedFrom dst more found candidates) last'.links
          candidates' = []) := by
  induction more generalizing found candidates last with
  | zero => exact ⟨0, candidates, last, h, hlast, .inl rfl⟩
  | succ more ih =>
    unfold rankedFrom
    rw [hlast]
    simp only
    split
    next hnone =>
      exact ⟨more + 1, candidates, last, h, hlast, .inr (takeCheapest_eq_none hnone)⟩
    next best others hbest => exact ih (hround h hlast hbest) List.getLast?_concat

/-- The ranked routes come from rounds after the first search, unless that search finds nothing. -/
theorem ranked_ends {P : Nat → List (Weighted W) → List (Weighted W) → Prop} {k : Nat} (hk : k ≠ 0)
    (hne : src ≠ dst)
    (hfirst : ∀ first, g.shortest? ⟨[], []⟩ src dst = some first → P (k - 1) [first] [])
    (hround : ∀ {left found candidates previous best others}, P (left + 1) found candidates →
      found.getLast? = some previous →
      takeCheapest (g.withDetours dst found previous.links candidates) = some (best, others) →
      P left (found ++ [best]) others) :
    (g.shortest? ⟨[], []⟩ src dst = none ∧ g.ranked src dst k = []) ∨
      ∃ left candidates last, P left (g.ranked src dst k) candidates ∧
        (g.ranked src dst k).getLast? = some last ∧
          (left = 0 ∨ g.withDetours dst (g.ranked src dst k) last.links candidates = []) := by
  unfold ranked
  rw [if_neg (not_or.2 ⟨hk, hne⟩)]
  split
  next hnone => exact .inl ⟨hnone, rfl⟩
  next first hsome => exact .inr (rankedFrom_ends hround (hfirst first hsome) rfl)

theorem ranked_eq_nil {k : Nat} (h : k = 0 ∨ src = dst) : g.ranked src dst k = [] := by
  unfold ranked
  rw [if_pos h]

/-- The first search finds a route. -/
theorem areRoutes_first {first : Weighted W} (h : g.shortest? ⟨[], []⟩ src dst = some first) :
    g.AreRoutes src dst ([first] ++ []) := by
  have hway := isWay_of_shortest? h
  exact areRoutes_nil.snoc ⟨hway.joins, hway.edges, loopFree_of_shortest? h⟩ fun f hf => nomatch hf

/-- A round leaves different routes. -/
theorem AreRoutes.round {previous best : Weighted W} {others : List (Weighted W)}
    (h : g.AreRoutes src dst (found ++ candidates)) (hlast : found.getLast? = some previous)
    (hbest : takeCheapest (g.withDetours dst found previous.links candidates) = some (best, others)) :
    g.AreRoutes src dst ((found ++ [best]) ++ others) := by
  have hprevious := h.routes previous (List.mem_append_left _ (List.mem_of_getLast? hlast))
  exact (h.foldl_addDetour hprevious _).move (takeCheapest_perm hbest)

/-- Whatever the costs are, up to `k` different routes are ranked. -/
theorem areRoutes_ranked (g : Graph W) (src dst : DeviceId) (k : Nat) :
    g.AreRoutes src dst (g.ranked src dst k) ∧ (g.ranked src dst k).length ≤ k := by
  by_cases hempty : k = 0 ∨ src = dst
  · rw [ranked_eq_nil hempty]
    exact ⟨areRoutes_nil, Nat.zero_le k⟩
  · obtain ⟨hk, hne⟩ := not_or.1 hempty
    have hends := ranked_ends (g := g) (P := fun left found candidates =>
      g.AreRoutes src dst (found ++ candidates) ∧ found.length + left = k) hk hne ?first ?round
    case first =>
      intro first hfirst
      refine ⟨areRoutes_first hfirst, ?_⟩
      rw [List.length_singleton]
      omega
    case round =>
      rintro left found candidates previous best others ⟨h, hlength⟩ hlast hbest
      refine ⟨h.round hlast hbest, ?_⟩
      rw [List.length_append, List.length_singleton]
      omega
    rcases hends with ⟨-, hnil⟩ | ⟨left, candidates, -, ⟨h, hlength⟩, -⟩
    · rw [hnil]
      exact ⟨areRoutes_nil, Nat.zero_le k⟩
    · exact ⟨h.left, by omega⟩

end Rounds

/-! ## Swept beginnings -/

section Swept

variable {asGood : List Link → List Link → Prop}

/-- Every route that goes on from these links unlike those found has a candidate that begins with
them and is as good. -/
def Swept (g : Graph W) (src dst : DeviceId) (asGood : List Link → List Link → Prop)
    (found candidates : List (Weighted W)) (root : List Link) : Prop :=
  ∀ l rest, g.IsRoute src dst (root ++ l :: rest) →
    (∃ f ∈ found, ∃ tail, f.links = root ++ l :: tail) ∨
      ∃ c ∈ candidates, root <+: c.links ∧ asGood c.links (root ++ l :: rest)

/-- All shorter beginnings of found routes are swept. -/
def AllSwept (g : Graph W) (src dst : DeviceId) (asGood : List Link → List Link → Prop)
    (found candidates : List (Weighted W)) : Prop :=
  ∀ f ∈ found, ∀ root l rest, f.links = root ++ l :: rest →
    g.Swept src dst asGood found candidates root

/-- All beginnings of found routes are swept except for those of one list of links. -/
def SweptBut (g : Graph W) (src dst : DeviceId) (asGood : List Link → List Link → Prop)
    (found candidates : List (Weighted W)) (links : List Link) : Prop :=
  ∀ f ∈ found, ∀ root l rest, f.links = root ++ l :: rest →
    g.Swept src dst asGood found candidates root ∨ ∃ l' rest', links = root ++ l' :: rest'

theorem Swept.mono {found' candidates' : List (Weighted W)} {root : List Link}
    (h : g.Swept src dst asGood found candidates root) (hfound : ∀ f ∈ found, f ∈ found')
    (hcandidates : ∀ c ∈ candidates, c ∈ candidates') :
    g.Swept src dst asGood found' candidates' root := by
  intro l rest hroute
  rcases h l rest hroute with ⟨f, hf, htail⟩ | ⟨c, hc, hgood⟩
  · exact .inl ⟨f, hfound f hf, htail⟩
  · exact .inr ⟨c, hcandidates c hc, hgood⟩

/-- A candidate that is moved to the routes found leaves only its own beginnings to sweep. -/
theorem AllSwept.move {best : Weighted W} {others : List (Weighted W)}
    (hswept : g.AllSwept src dst asGood found candidates)
    (h : g.AreRoutes src dst (found ++ candidates)) (hperm : candidates.Perm (best :: others)) :
    g.SweptBut src dst asGood (found ++ [best]) others best.links := by
  intro f hf root l rest heq
  by_cases hbegin : ∃ l' rest', best.links = root ++ l' :: rest'
  · exact .inr hbegin
  · rcases List.mem_append.1 hf with hf | hf
    · left
      intro l' rest' hroute
      rcases hswept f hf root l rest heq l' rest' hroute with ⟨f', hf', htail⟩ | ⟨c, hc, hprefix, hgood⟩
      · exact .inl ⟨f', List.mem_append_left _ hf', htail⟩
      · rcases List.mem_cons.1 (hperm.mem_iff.1 hc) with rfl | hother
        · -- the candidate is not a proper beginning of the route, so it goes on from the root
          obtain ⟨tail, htail⟩ := hprefix
          cases tail with
          | nil =>
            rw [List.append_nil] at htail
            have hlonger := hroute
            rw [htail] at hlonger
            exact absurd hlonger (h.routes c (List.mem_append_right _ hc)).not_append_cons
          | cons m tail => exact absurd ⟨m, tail, htail.symm⟩ hbegin
        · exact .inr ⟨c, hother, hprefix, hgood⟩
    · exact absurd ⟨l, rest, List.mem_singleton.1 hf ▸ heq⟩ hbegin

/-- When all beginnings are swept there is a candidate as good as any route that is not found. -/
theorem AllSwept.exists_candidate (hswept : g.AllSwept src dst asGood found candidates)
    (h : g.AreRoutes src dst found) (hne : found ≠ []) {links : List Link}
    (hroute : g.IsRoute src dst links) (hnew : ∀ f ∈ found, f.links ≠ links) :
    ∃ c ∈ candidates, asGood c.links links := by
  obtain ⟨root, l, rest, rfl, ⟨f, hf, m, tail, htail⟩, hbranch⟩ := h.exists_branch hne hroute hnew
  rcases hswept f hf root m tail htail l rest hroute with ⟨f', hf', tail', htail'⟩ | ⟨c, hc, -, hgood⟩
  · exact absurd htail' (hbranch f' hf' tail')
  · exact ⟨c, hc, hgood⟩

/-! ## Sweeping -/

variable [Cost W]

/-- What a search finds is as good as every way that it could have found, behind any beginning. -/
def FindsBest (g : Graph W) (asGood : List Link → List Link → Prop) : Prop :=
  ∀ closed a b r, g.shortest? closed a b = some r → ∀ way, g.IsWay closed a b way →
    ∀ root, asGood (root ++ r.links) (root ++ way)

variable [LawfulCost W]

/-- Adding the detour after a beginning sweeps it. -/
theorem Lawful.addDetour_sweeps (hg : g.Lawful) (hbest : g.FindsBest asGood) {root rest : List Link}
    {l : Link} (h : g.AreRoutes src dst (found ++ candidates))
    (hprevious : g.IsRoute src dst (root ++ l :: rest)) :
    g.Swept src dst asGood found
      (g.addDetour dst found (root ++ l :: rest) candidates root.length) root := by
  have hfound : ∀ f ∈ found, g.IsRoute src dst f.links :=
    fun f hf => h.routes f (List.mem_append_left _ hf)
  intro l' rest' hroute
  by_cases hgoes : ∃ f ∈ found, ∃ tail, f.links = root ++ l' :: tail
  · exact .inl hgoes
  · right
    have hnew : ∀ f ∈ found, ∀ tail, f.links ≠ root ++ l' :: tail :=
      fun f hf tail htail => hgoes ⟨f, hf, tail, htail⟩
    obtain ⟨c, hc⟩ := Option.isSome_iff_exists.1 (hg.detour?_isSome hfound hprevious hroute hnew)
    obtain ⟨-, hprefix, hne⟩ := isRoute_of_detour hprevious hc
    -- the route could be used by the detour, which is therefore as good
    have hgood : asGood c.links (root ++ l' :: rest') := by
      obtain ⟨spur, hspur, rfl⟩ := Option.map_eq_some_iff.1 (detour?_append g dst found root rest l ▸ hc)
      rw [hprevious.src_eq hroute] at hspur
      exact hbest _ _ _ spur hspur _ (hg.isWay_closedAt hfound hroute hnew) root
    unfold addDetour
    rw [hc]
    simp only
    split
    next hknown =>
      rcases Bool.or_eq_true _ _ ▸ hknown with hknown | hknown
      · obtain ⟨f, hf, heq⟩ := isKnown_iff.1 hknown
        exact absurd heq (hne f hf)
      · obtain ⟨c', hc', heq⟩ := isKnown_iff.1 hknown
        exact ⟨c', hc', heq ▸ hprefix, heq ▸ hgood⟩
    next =>
      exact ⟨c, List.mem_append_right _ (List.mem_singleton_self c), hprefix, hgood⟩

/-- Looking for detours at some positions of a route sweeps the beginnings up to there. -/
theorem Lawful.foldl_addDetour_sweeps (hg : g.Lawful) (hbest : g.FindsBest asGood)
    {root rest : List Link} {l : Link} (h : g.AreRoutes src dst (found ++ candidates))
    (hprevious : g.IsRoute src dst (root ++ l :: rest)) {positions : List Nat}
    (hmem : root.length ∈ positions) :
    g.Swept src dst asGood found
      (positions.foldl (g.addDetour dst found (root ++ l :: rest)) candidates) root := by
  induction positions generalizing candidates with
  | nil => exact nomatch hmem
  | cons i others ih =>
    rcases List.mem_cons.1 hmem with rfl | hmem
    · exact (hg.addDetour_sweeps hbest h hprevious).mono (fun f hf => hf)
        fun c hc => mem_foldl_addDetour hc others
    · exact ih (h.addDetour hprevious i) hmem

/-- Looking for detours at every position of the route found last sweeps all beginnings. -/
theorem Lawful.sweep (hg : g.Lawful) (hbest : g.FindsBest asGood) {previous : Weighted W}
    (h : g.AreRoutes src dst (found ++ candidates)) (hmem : previous ∈ found)
    (hswept : g.SweptBut src dst asGood found candidates previous.links) :
    g.AllSwept src dst asGood found (g.withDetours dst found previous.links candidates) := by
  have hprevious := h.routes previous (List.mem_append_left _ hmem)
  intro f hf root l rest heq
  rcases hswept f hf root l rest heq with hroot | ⟨l', rest', heq'⟩
  · exact hroot.mono (fun f hf => hf) fun c hc => mem_foldl_addDetour hc _
  · have hlt : root.length < previous.links.length := by
      rw [heq', List.length_append, List.length_cons]
      omega
    unfold withDetours
    rw [heq'] at hprevious hlt ⊢
    exact hg.foldl_addDetour_sweeps hbest h hprevious (List.mem_range.2 hlt)

/-! ## The state between rounds -/

/-- Between rounds the routes found and the candidates are different routes, and all beginnings of
routes found are swept except for those of the last one. -/
structure Ranking (g : Graph W) (src dst : DeviceId) (asGood : List Link → List Link → Prop)
    (k left : Nat) (found candidates : List (Weighted W)) : Prop where
  areRoutes : g.AreRoutes src dst (found ++ candidates)
  count : found.length + left = k
  swept : ∀ previous, found.getLast? = some previous →
    g.SweptBut src dst asGood found candidates previous.links

variable {k left : Nat} {previous best : Weighted W} {others : List (Weighted W)}

omit [LawfulCost W] in
theorem ranking_first (hk : k ≠ 0) {first : Weighted W}
    (h : g.shortest? ⟨[], []⟩ src dst = some first) :
    g.Ranking src dst asGood k (k - 1) [first] [] where
  areRoutes := areRoutes_first h
  count := by
    rw [List.length_singleton]
    omega
  swept := by
    intro previous hlast f hf root l rest heq
    obtain rfl := Option.some.inj hlast
    rw [List.mem_singleton.1 hf] at heq
    exact .inr ⟨l, rest, heq⟩

theorem Ranking.allSwept (h : g.Ranking src dst asGood k left found candidates) (hg : g.Lawful)
    (hbest : g.FindsBest asGood) (hlast : found.getLast? = some previous) :
    g.AllSwept src dst asGood found (g.withDetours dst found previous.links candidates) :=
  hg.sweep hbest h.areRoutes (List.mem_of_getLast? hlast) (h.swept previous hlast)

/-- There is a candidate as good as any route that is not found. -/
theorem Ranking.exists_candidate (h : g.Ranking src dst asGood k left found candidates)
    (hg : g.Lawful) (hbest : g.FindsBest asGood) (hlast : found.getLast? = some previous)
    {links : List Link} (hroute : g.IsRoute src dst links) (hnew : ∀ f ∈ found, f.links ≠ links) :
    ∃ c ∈ g.withDetours dst found previous.links candidates, asGood c.links links :=
  (h.allSwept hg hbest hlast).exists_candidate h.areRoutes.left
    (List.ne_nil_of_mem (List.mem_of_getLast? hlast)) hroute hnew

theorem Ranking.round (h : g.Ranking src dst asGood k (left + 1) found candidates) (hg : g.Lawful)
    (hbest : g.FindsBest asGood) (hlast : found.getLast? = some previous)
    (htake : takeCheapest (g.withDetours dst found previous.links candidates) = some (best, others)) :
    g.Ranking src dst asGood k left (found ++ [best]) others where
  areRoutes := h.areRoutes.round hlast htake
  count := by
    have hcount := h.count
    rw [List.length_append, List.length_singleton]
    omega
  swept := by
    intro previous' hlast'
    rw [List.getLast?_concat] at hlast'
    obtain rfl := Option.some.inj hlast'
    have hprevious :=
      h.areRoutes.routes previous (List.mem_append_left _ (List.mem_of_getLast? hlast))
    exact (h.allSwept hg hbest hlast).move (h.areRoutes.foldl_addDetour hprevious _)
      (takeCheapest_perm htake)

end Swept

/-! ## Whole searches -/

/-- The lists of links are different routes, up to `k` of them, and all there are if they are
fewer. -/
structure RanksUpTo (g : Graph W) (src dst : DeviceId) (k : Nat) (l : List (Weighted W)) : Prop where
  areRoutes : g.AreRoutes src dst l
  length_le : l.length ≤ k
  complete : l.length < k → ∀ links, g.IsRoute src dst links → ∃ f ∈ l, f.links = links

variable [Cost W] [LawfulCost W]

/-- Ranking the routes between two devices of a lawful graph is sound and complete. -/
theorem Lawful.ranksUpTo_ranked (hg : g.Lawful) (hne : src ≠ dst) (k : Nat) :
    g.RanksUpTo src dst k (g.ranked src dst k) := by
  obtain ⟨hroutes, hlength⟩ := g.areRoutes_ranked src dst k
  refine ⟨hroutes, hlength, ?_⟩
  intro hlt links hroute
  have hk : k ≠ 0 := Nat.ne_zero_of_lt hlt
  have hbest : g.FindsBest fun _ _ => True := fun _ _ _ _ _ _ _ _ => trivial
  rcases ranked_ends (P := g.Ranking src dst (fun _ _ => True) k) hk hne
    (fun first hfirst => ranking_first hk hfirst)
    (fun h hlast htake => h.round hg hbest hlast htake) with
    ⟨hnone, -⟩ | ⟨left, candidates, last, h, hlast, hend⟩
  · have hsome := hg.weights.shortest?_isSome hroute.isWay
    rw [hnone] at hsome
    exact nomatch hsome
  · by_contra hnew
    obtain ⟨c, hc, -⟩ := h.exists_candidate hg hbest hlast hroute fun f hf heq => hnew ⟨f, hf, heq⟩
    rcases hend with rfl | hnil
    · have hcount := h.count
      omega
    · rw [hnil] at hc
      exact nomatch hc

end Graph

end Lightpath

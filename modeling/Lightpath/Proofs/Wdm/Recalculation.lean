import Lightpath.Proofs.Wdm.Planner

/-!
# Recalculation — what a restricted calculation gives again

Only one direction of every device pair is searched, the other one is its mirror. A calculation of
everything searches from the device that comes first; a calculation restricted to a port searches from
the given ingress, or towards the given egress (`Planner.Searches`). So it gives the paths of its scope
again exactly if every search that it turns around finds the mirrored routes
(`Planner.gives_again_iff`), as over two-way lines where no route is left out for want of `k`
(`Planner.turnedSearchesMirror_of_twoWay`).
-/

namespace Lightpath

/-! ## Paths up to their OSNR -/

namespace WdmPath

/-- Whether a list holds a path between the same ports over the same route. -/
def isAmong (p : WdmPath) (l : List WdmPath) : Bool := l.any fun q => q.same p

theorem same_iff {p q : WdmPath} :
    p.same q = true ↔ p.ends = q.ends ∧ p.route.links = q.route.links := by
  simp [same, Route.same]

theorem isAmong_iff {p : WdmPath} {l : List WdmPath} :
    p.isAmong l = true ↔ ∃ q ∈ l, q.ends = p.ends ∧ q.route.links = p.route.links := by
  simp [isAmong, same_iff]

theorem isAmong_append {p : WdmPath} {l l' : List WdmPath} :
    p.isAmong (l ++ l') = true ↔ p.isAmong l = true ∨ p.isAmong l' = true := by
  simp [isAmong]

theorem isAmong_perm {p : WdmPath} {l l' : List WdmPath} (h : l.Perm l') :
    p.isAmong l = p.isAmong l' := h.any_eq

/-- A condition on the ends of paths selects those paths from a list that meet it. -/
theorem isAmong_filter {p : WdmPath} {l : List WdmPath} {f : WdmPath → Bool}
    (hf : ∀ q : WdmPath, q.ends = p.ends → f q = f p) :
    p.isAmong (l.filter f) = true ↔ p.isAmong l = true ∧ f p = true := by
  simp only [isAmong_iff, List.mem_filter]
  constructor
  · rintro ⟨q, ⟨hq, hfq⟩, hends, hlinks⟩
    exact ⟨⟨q, hq, hends, hlinks⟩, (hf q hends).symm.trans hfq⟩
  · rintro ⟨⟨q, hq, hends, hlinks⟩, hfp⟩
    exact ⟨q, ⟨hq, (hf q hends).trans hfp⟩, hends, hlinks⟩

/-- The path in the opposite direction over the mirrored route. -/
def reversed (p : WdmPath) : WdmPath := ⟨p.ends.reversed, p.route.reverse, p.osnr⟩

end WdmPath

/-- Two lists hold the same paths, whatever their OSNR, their order and how often they occur. -/
def SamePaths (l l' : List WdmPath) : Prop := ∀ p : WdmPath, p.isAmong l = p.isAmong l'

/-- It is enough to look at the paths of the lists. -/
theorem samePaths_iff {l l' : List WdmPath} : SamePaths l l' ↔
    (∀ p ∈ l, p.isAmong l' = true) ∧ ∀ p ∈ l', p.isAmong l = true := by
  have hself {p : WdmPath} {l : List WdmPath} (hp : p ∈ l) : p.isAmong l = true :=
    WdmPath.isAmong_iff.2 ⟨p, hp, rfl, rfl⟩
  have hwithin {l l' : List WdmPath} (h : ∀ p ∈ l, p.isAmong l' = true) {p : WdmPath}
      (hp : p.isAmong l = true) : p.isAmong l' = true := by
    obtain ⟨q, hq, hends, hlinks⟩ := WdmPath.isAmong_iff.1 hp
    obtain ⟨q', hq', hends', hlinks'⟩ := WdmPath.isAmong_iff.1 (h q hq)
    exact WdmPath.isAmong_iff.2 ⟨q', hq', hends'.trans hends, hlinks'.trans hlinks⟩
  constructor
  · intro h
    exact ⟨fun p hp => h p ▸ hself hp, fun p hp => h p ▸ hself hp⟩
  · rintro ⟨h, h'⟩ p
    exact Bool.eq_iff_iff.2 ⟨hwithin h, hwithin h'⟩

instance (l l' : List WdmPath) : Decidable (SamePaths l l') :=
  decidable_of_iff _ samePaths_iff.symm

section Scope

variable {l paths removed : List WdmPath} {ingress egress : Option ConnectPoint}

theorem WdmPath.isAmong_inScope {p : WdmPath} :
    p.isAmong (l.filter fun q => q.inScope ingress egress) = true ↔
      p.isAmong l = true ∧ p.inScope ingress egress = true :=
  isAmong_filter fun _ hq => inScope_congr hq ingress egress

/-- The paths taken out of a scope are the ones put in, exactly if those put in are the ones that were
within the scope. -/
theorem samePaths_removed_iff
    (hremoved : removed.Perm (l.filter fun p => p.inScope ingress egress)) :
    SamePaths paths removed ↔ ∀ p : WdmPath,
      p.isAmong paths = true ↔ p.isAmong l = true ∧ p.inScope ingress egress = true := by
  refine forall_congr' fun p => ?_
  rw [WdmPath.isAmong_perm hremoved, Bool.eq_iff_iff, WdmPath.isAmong_inScope]

/-- Exchanging the paths of a scope leaves the same paths, exactly if those put in are the ones that
were within the scope. -/
theorem samePaths_exchanged_iff (hinside : ∀ p ∈ paths, p.inScope ingress egress = true) :
    SamePaths ((l.filter fun p => !p.inScope ingress egress) ++ paths) l ↔ ∀ p : WdmPath,
      p.isAmong paths = true ↔ p.isAmong l = true ∧ p.inScope ingress egress = true := by
  refine forall_congr' fun p => ?_
  have hkept : p.isAmong (l.filter fun q => !q.inScope ingress egress) = true ↔
      p.isAmong l = true ∧ (!p.inScope ingress egress) = true :=
    WdmPath.isAmong_filter fun q hq => congrArg not (WdmPath.inScope_congr hq ingress egress)
  have hin : p.isAmong paths = true → p.inScope ingress egress = true := by
    intro hp
    obtain ⟨q, hq, hends, -⟩ := WdmPath.isAmong_iff.1 hp
    rw [← WdmPath.inScope_congr hends ingress egress]
    exact hinside q hq
  rw [Bool.eq_iff_iff, WdmPath.isAmong_append, hkept]
  cases hscope : p.inScope ingress egress with
  | true => simp
  | false =>
    -- a path outside the scope is not put in
    have hout : p.isAmong paths ≠ true := fun hp => by
      rw [hin hp] at hscope
      exact nomatch hscope
    simp [hout]

end Scope

/-! ## Searches -/

/-- Whether a search between two devices finds a route. -/
def Topology.finds (t : Topology) (weigh : Weigher Float) (k : Nat) (a b : DeviceId) (r : Route) :
    Bool :=
  (t.rankedRoutes weigh a b k).any fun q => q.same r

/-- The searches between two devices find mirrored routes, whichever device they start from. -/
def Topology.SearchesMirror (t : Topology) (weigh : Weigher Float) (k : Nat) (a b : DeviceId) : Prop :=
  ∀ r : Route, t.finds weigh k a b r = t.finds weigh k b a r.reverse

/-! ## Two-way lines -/

/-- Every usable link has a usable mirror image. -/
def Topology.TwoWay (t : Topology) (weigh : Weigher Float) : Prop :=
  ∀ l ∈ t.links, (weigh l).isSome = true → l.reversed ∈ t.links ∧ (weigh l.reversed).isSome = true

section TwoWay

variable {t : Topology} {weigh : Weigher Float} {k : Nat} {a b : DeviceId}

theorem Topology.finds_iff {r : Route} :
    t.finds weigh k a b r = true ↔ ∃ q ∈ t.rankedRoutes weigh a b k, q.links = r.links := by
  simp [finds, Route.same]

theorem Topology.IsLoopFreeRoute.mirrored (htwo : t.TwoWay weigh) {links : List Link}
    (h : t.IsLoopFreeRoute weigh a b links) :
    t.IsLoopFreeRoute weigh b a (Lightpath.mirrored links) := by
  have hne : Lightpath.mirrored links ≠ [] := by
    intro hnil
    have hlinks := mirrored_mirrored links
    rw [hnil] at hlinks
    have hstarts := h.starts
    rw [← hlinks] at hstarts
    exact nomatch hstarts
  obtain ⟨hcontiguous, hstarts, hends⟩ := (joins_iff hne).1 h.joins.mirrored
  refine ⟨?_, hcontiguous, hstarts, hends, h.joins.loopFree_mirrored h.loopFree⟩
  intro l hl
  rw [Lightpath.mirrored, List.mem_reverse, List.mem_map] at hl
  obtain ⟨l, hl, rfl⟩ := hl
  exact htwo l (h.viable l hl).1 (h.viable l hl).2

/-- Over two-way lines, searches that leave no route out find mirrored routes. -/
theorem Topology.searchesMirror_of_twoWay (htwo : t.TwoWay weigh)
    (hforth : t.RanksLoopFreeRoutes weigh a b k) (hback : t.RanksLoopFreeRoutes weigh b a k)
    (hfew : (t.rankedRoutes weigh a b k).length < k) : t.SearchesMirror weigh k a b := by
  -- the mirror images of the routes back are routes forth, so there are few of them as well
  have hfew' : (t.rankedRoutes weigh b a k).length < k := by
    refine lt_of_le_of_lt ?_ hfew
    have hnodup : (((t.rankedRoutes weigh b a k).map Route.links).map mirrored).Nodup :=
      hback.distinct.map fun xs ys heq => by rw [← mirrored_mirrored xs, heq, mirrored_mirrored]
    have hsubset : ((t.rankedRoutes weigh b a k).map Route.links).map mirrored ⊆
        (t.rankedRoutes weigh a b k).map Route.links := by
      intro links hlinks
      simp only [List.mem_map, exists_exists_and_eq_and] at hlinks
      obtain ⟨r, hr, rfl⟩ := hlinks
      exact List.mem_map.2 (hforth.complete hfew _ ((hback.sound r hr).mirrored htwo))
    have hlength := hnodup.length_le_of_subset hsubset
    rwa [List.length_map, List.length_map, List.length_map] at hlength
  intro r
  rw [Bool.eq_iff_iff, finds_iff, finds_iff]
  constructor
  · rintro ⟨q, hq, hlinks⟩
    have hroute := (hforth.sound q hq).mirrored htwo
    rw [hlinks] at hroute
    exact hback.complete hfew' _ hroute
  · rintro ⟨q, hq, hlinks⟩
    have hroute := (hback.sound q hq).mirrored htwo
    rw [hlinks, show mirrored r.reverse.links = r.links from mirrored_mirrored r.links] at hroute
    exact hforth.complete hfew _ hroute

end TwoWay

namespace Planner

/-- The routes of a port pair are searched from its first port to its second one. -/
structure Searches (t : Topology) (ingress egress : Option ConnectPoint) (e : Ends) : Prop where
  add : t.isAddDropPort e.src = true
  drop : t.isAddDropPort e.dst = true
  from_ingress : ingress.all (fun g => e.src == g) = true
  to_egress : egress.all (fun g => e.dst == g) = true
  apart : e.src.device ≠ e.dst.device
  /-- If neither port is given, the search starts from the device that comes first. -/
  first : ingress = none → egress = none → compare e.dst.device e.src.device ≠ .lt

/-- Every search that goes the other way than in a calculation of everything finds the mirrored routes. -/
def TurnedSearchesMirror (t : Topology) (weigh : Weigher Float) (k : Nat)
    (ingress egress : Option ConnectPoint) : Prop :=
  ∀ e, Searches t ingress egress e → compare e.dst.device e.src.device = .lt →
    t.SearchesMirror weigh k e.src.device e.dst.device

/-- A calculation gives a path in the direction in which it searches, or the mirror of such a path. -/
def Gives (t : Topology) (weigh : Weigher Float) (k : Nat) (ingress egress : Option ConnectPoint)
    (p : WdmPath) : Prop :=
  (Searches t ingress egress p.ends ∧
      t.finds weigh k p.ends.src.device p.ends.dst.device p.route = true) ∨
    (Searches t ingress egress p.ends.reversed ∧
      t.finds weigh k p.ends.dst.device p.ends.src.device p.route.reverse = true)

variable {t : Topology} {weigh : Weigher Float} {k : Nat} {ingress egress : Option ConnectPoint}

theorem finds_congr {a b : DeviceId} {r r' : Route} (h : r.links = r'.links) :
    t.finds weigh k a b r = t.finds weigh k a b r' := by
  simp only [Topology.finds, Route.same, h]

theorem finds_reverse_reverse {a b : DeviceId} {r : Route} :
    t.finds weigh k a b r.reverse.reverse = t.finds weigh k a b r :=
  finds_congr (mirrored_mirrored r.links)

/-- The devices of a port pair that is searched are a pair between which routes are planned. -/
theorem Searches.mem_devicePairs {sources sinks : PortMap} {e : Ends}
    (hs : Searches t ingress egress e) (hsources : portsFor t (portMap t) ingress = .ok sources)
    (hsinks : portsFor t (portMap t) egress = .ok sinks) :
    (e.src.device, e.dst.device) ∈ devicePairs sources sinks := by
  refine Planner.mem_devicePairs.2
    ⟨(contains_portsFor hsources).2 ⟨e.src, rfl, hs.add, hs.from_ingress⟩,
      (contains_portsFor hsinks).2 ⟨e.dst, rfl, hs.drop, hs.to_egress⟩, hs.apart, ?_⟩
  rintro ⟨hsource, hsink, hlt⟩
  exact hs.first (given_eq_none hsources hs.from_ingress hsource hs.apart.symm)
    (given_eq_none hsinks hs.to_egress hsink hs.apart) hlt

/-- The port pairs that are served between two devices. -/
theorem mem_portPairs_portsFor {sources sinks : PortMap} {e : Ends} {a b : DeviceId}
    (hsources : portsFor t (portMap t) ingress = .ok sources)
    (hsinks : portsFor t (portMap t) egress = .ok sinks) :
    e ∈ portPairs ((sources.find? a).getD []) ((sinks.find? b).getD []) ↔
      (e.src.device = a ∧ t.isAddDropPort e.src = true ∧ ingress.all (fun g => e.src == g) = true) ∧
        e.dst.device = b ∧ t.isAddDropPort e.dst = true ∧
          egress.all (fun g => e.dst == g) = true := by
  rw [mem_portPairs, mem_portsFor hsources, mem_portsFor hsinks]

/-- The planned routes are those that the searches find. -/
theorem mem_planned_iff {plan : List PlannedRoute} (h : planned t weigh k ingress egress = .ok plan)
    {e : Ends} {r : Route} :
    (∃ q ∈ plan, e ∈ q.joins ∧ q.route = r) ↔
      Searches t ingress egress e ∧ r ∈ t.rankedRoutes weigh e.src.device e.dst.device k := by
  obtain ⟨-, -, sources, sinks, hsources, hsinks, rfl⟩ := planned_eq_ok_iff.1 h
  constructor
  · rintro ⟨q, hq, he, rfl⟩
    obtain ⟨a, b, hpair, hr, hjoins⟩ := mem_plan.1 hq
    rw [hjoins, mem_portPairs_portsFor hsources hsinks] at he
    obtain ⟨⟨rfl, hadd, hfrom⟩, rfl, hdrop, hto⟩ := he
    obtain ⟨-, -, hapart, hfirst⟩ := Planner.mem_devicePairs.1 hpair
    refine ⟨⟨hadd, hdrop, hfrom, hto, hapart, ?_⟩, hr⟩
    rintro rfl rfl hlt
    exact hfirst ⟨(contains_portsFor hsources).2 ⟨e.dst, rfl, hdrop, rfl⟩,
      (contains_portsFor hsinks).2 ⟨e.src, rfl, hadd, rfl⟩, hlt⟩
  · rintro ⟨hs, hr⟩
    refine ⟨⟨r, portPairs ((sources.find? e.src.device).getD []) ((sinks.find? e.dst.device).getD [])⟩,
      mem_plan.2 ⟨_, _, hs.mem_devicePairs hsources hsinks, hr, rfl⟩, ?_, rfl⟩
    exact (mem_portPairs_portsFor hsources hsinks).2
      ⟨⟨rfl, hs.add, hs.from_ingress⟩, rfl, hs.drop, hs.to_egress⟩

/-- The paths of a calculation are those that it gives. -/
theorem isAmong_assemble_iff {plan : List PlannedRoute} {osnr : List OsnrMap}
    (h : planned t weigh k ingress egress = .ok plan)
    (hosnr : osnr.length = (bothWays plan).length) {p : WdmPath} :
    p.isAmong (assemble plan osnr) = true ↔ Gives t weigh k ingress egress p := by
  have hmem : p.isAmong (assemble plan osnr) = true ↔
      (p.ends, p.route.links) ∈ (assemble plan osnr).map fun q => (q.ends, q.route.links) := by
    simp only [WdmPath.isAmong_iff, List.mem_map, Prod.mk.injEq]
  rw [hmem, map_assemble (fun e r => (e, r.links)) hosnr]
  simp only [List.mem_flatMap, List.mem_cons, List.not_mem_nil, or_false, Prod.mk.injEq]
  constructor
  · rintro ⟨q, hq, e, he, ⟨hends, hlinks⟩ | ⟨hends, hlinks⟩⟩
    · obtain rfl := hends
      obtain ⟨hs, hr⟩ := (mem_planned_iff h).1 ⟨q, hq, he, rfl⟩
      exact .inl ⟨hs, Topology.finds_iff.2 ⟨q.route, hr, hlinks.symm⟩⟩
    · obtain rfl : p.ends.reversed = e := by rw [hends, Ends.reversed_reversed]
      obtain ⟨hs, hr⟩ := (mem_planned_iff h).1 ⟨q, hq, he, rfl⟩
      refine .inr ⟨hs, Topology.finds_iff.2 ⟨q.route, hr, ?_⟩⟩
      show q.route.links = mirrored p.route.links
      rw [hlinks]
      exact (mirrored_mirrored _).symm
  · rintro (⟨hs, hfinds⟩ | ⟨hs, hfinds⟩)
    · obtain ⟨r, hr, hlinks⟩ := Topology.finds_iff.1 hfinds
      obtain ⟨q, hq, he, rfl⟩ := (mem_planned_iff h).2 ⟨hs, hr⟩
      exact ⟨q, hq, p.ends, he, .inl ⟨rfl, hlinks.symm⟩⟩
    · obtain ⟨r, hr, hlinks⟩ := Topology.finds_iff.1 hfinds
      obtain ⟨q, hq, he, rfl⟩ := (mem_planned_iff h).2 ⟨hs, hr⟩
      refine ⟨q, hq, p.ends.reversed, he, .inr ⟨rfl, ?_⟩⟩
      show p.route.links = mirrored q.route.links
      rw [hlinks]
      exact (mirrored_mirrored _).symm

/-! ## Directions -/

/-- A search that is not turned around is one of a calculation of everything. -/
theorem Searches.forth {e : Ends} (h : Searches t ingress egress e)
    (hforth : compare e.dst.device e.src.device ≠ .lt) : Searches t none none e :=
  ⟨h.add, h.drop, rfl, rfl, h.apart, fun _ _ => hforth⟩

/-- A search that is turned around goes the other way in a calculation of everything. -/
theorem Searches.back {e : Ends} (h : Searches t ingress egress e)
    (hback : compare e.dst.device e.src.device = .lt) : Searches t none none e.reversed := by
  refine ⟨h.drop, h.add, rfl, rfl, h.apart.symm, ?_⟩
  intro _ _ hlt
  rw [Ends.reversed, Std.OrientedCmp.gt_of_lt hback] at hlt
  cases hlt

/-- No port pair is searched in both directions. -/
theorem Searches.not_reversed {e : Ends} (h : Searches t ingress egress e) :
    ¬ Searches t ingress egress e.reversed := by
  intro h'
  cases ingress with
  | some g =>
    have hsrc : e.src = g := by simpa using h.from_ingress
    have hdst : e.dst = g := by simpa [Ends.reversed] using h'.from_ingress
    exact h.apart (by rw [hsrc, hdst])
  | none =>
    cases egress with
    | some g =>
      have hdst : e.dst = g := by simpa using h.to_egress
      have hsrc : e.src = g := by simpa [Ends.reversed] using h'.to_egress
      exact h.apart (by rw [hsrc, hdst])
    | none =>
      cases hcompare : compare e.dst.device e.src.device with
      | lt => exact h.first rfl rfl hcompare
      | eq => exact h.apart (Std.LawfulEqOrd.eq_of_compare hcompare).symm
      | gt => exact h'.first rfl rfl (Std.OrientedCmp.lt_of_gt hcompare)

/-- Where a port pair is searched, the path is given if that search finds its route. -/
theorem Searches.gives_iff {p : WdmPath} (h : Searches t ingress egress p.ends) :
    Gives t weigh k ingress egress p ↔
      t.finds weigh k p.ends.src.device p.ends.dst.device p.route = true := by
  rw [Gives, and_iff_right h, or_iff_left fun h' => h.not_reversed h'.1]

/-- Paths are given together with their mirror images. -/
theorem gives_reversed_iff {p : WdmPath} :
    Gives t weigh k ingress egress p.reversed ↔ Gives t weigh k ingress egress p := by
  rw [Gives, Gives, or_comm]
  refine or_congr (and_congr_right fun _ => ?_) .rfl
  rw [show p.reversed.route.reverse = p.route.reverse.reverse from rfl, finds_reverse_reverse]
  rfl

/-- A path whose ports are searched in its direction is within the scope. -/
theorem Searches.inScope {p : WdmPath} (h : Searches t ingress egress p.ends) :
    p.inScope ingress egress = true := by
  rw [WdmPath.inScope, WdmPath.runs, h.from_ingress, h.to_egress]
  rfl

/-- Of the port pairs that are searched at all, those within a scope are searched for it. -/
theorem Searches.restrict (hgiven : ingress ≠ none ∨ egress ≠ none) {p : WdmPath}
    (h : Searches t none none p.ends) (hin : p.inScope ingress egress = true) :
    Searches t ingress egress p.ends ∨ Searches t ingress egress p.ends.reversed := by
  have hfirst {i e : Option ConnectPoint} (hgiven : i ≠ none ∨ e ≠ none) {q : Prop} :
      i = none → e = none → q := by
    rintro rfl rfl
    simp at hgiven
  simp only [WdmPath.inScope, WdmPath.runs, Bool.or_eq_true, Bool.and_eq_true] at hin
  rcases hin with ⟨hfrom, hto⟩ | ⟨hto, hfrom⟩
  · exact .inl ⟨h.add, h.drop, hfrom, hto, h.apart, hfirst hgiven⟩
  · exact .inr ⟨h.drop, h.add, hfrom, hto, h.apart.symm, hfirst hgiven⟩

/-! ## Giving the same again -/

/-- A restricted search gives the same paths as a search of everything, exactly if it is not turned
around or finds the mirrored routes. -/
theorem Searches.same_iff {p : WdmPath} (h : Searches t ingress egress p.ends) :
    (Gives t weigh k ingress egress p ↔ Gives t weigh k none none p) ↔
      (compare p.ends.dst.device p.ends.src.device = .lt →
        t.finds weigh k p.ends.src.device p.ends.dst.device p.route =
          t.finds weigh k p.ends.dst.device p.ends.src.device p.route.reverse) := by
  rw [h.gives_iff]
  by_cases hback : compare p.ends.dst.device p.ends.src.device = .lt
  · rw [← gives_reversed_iff (p := p), Searches.gives_iff (p := p.reversed) (h.back hback)]
    exact ⟨fun h _ => Bool.eq_iff_iff.2 h, fun h => Bool.eq_iff_iff.1 (h hback)⟩
  · rw [(h.forth hback).gives_iff]
    exact iff_of_true .rfl fun hlt => absurd hlt hback

/-- A restricted calculation gives what a calculation of everything gives within its scope, exactly if
the searches that it turns around find mirrored routes. -/
theorem gives_again_iff (hgiven : ingress ≠ none ∨ egress ≠ none) :
    (∀ p, Gives t weigh k ingress egress p ↔
        Gives t weigh k none none p ∧ p.inScope ingress egress = true) ↔
      TurnedSearchesMirror t weigh k ingress egress := by
  constructor
  · intro hsame e hs hback r
    have hiff := hsame ⟨e, r, ∅⟩
    rw [and_iff_left (Searches.inScope (p := ⟨e, r, ∅⟩) hs)] at hiff
    exact (Searches.same_iff (p := ⟨e, r, ∅⟩) hs).1 hiff hback
  · intro hmirror p
    have hsearched {p : WdmPath} (hs : Searches t ingress egress p.ends) :
        Gives t weigh k ingress egress p ↔
          Gives t weigh k none none p ∧ p.inScope ingress egress = true := by
      rw [and_iff_left hs.inScope]
      exact hs.same_iff.2 fun hback => hmirror p.ends hs hback p.route
    have hscope : p.reversed.inScope ingress egress = p.inScope ingress egress :=
      WdmPath.inScope_of_reversed rfl ingress egress
    by_cases hs : Searches t ingress egress p.ends
    · exact hsearched hs
    by_cases hs' : Searches t ingress egress p.ends.reversed
    · rw [← gives_reversed_iff, hsearched (p := p.reversed) hs', gives_reversed_iff, hscope]
    · -- the port pair is outside the scope, or never searched
      refine iff_of_false ?_ ?_
      · rintro (⟨h, -⟩ | ⟨h, -⟩)
        · exact hs h
        · exact hs' h
      · rintro ⟨⟨h, -⟩ | ⟨h, -⟩, hin⟩
        · exact (h.restrict hgiven hin).elim hs hs'
        · exact (Searches.restrict (p := p.reversed) hgiven h (hscope.trans hin)).elim hs' hs

/-- Over two-way lines whose lengths are numbers, with fewer than `k` routes for every device pair, a
restricted calculation gives the same paths again. -/
theorem turnedSearchesMirror_of_twoWay {d : LinkDetails} (htwo : t.TwoWay (fiberKm t d))
    (hnumbers : ∀ l ∈ t.links, ∀ w, fiberKm t d l = some w → w.isNaN = false)
    (hfew : ∀ e, Searches t ingress egress e →
      (t.rankedRoutes (fiberKm t d) e.src.device e.dst.device k).length < k) :
    TurnedSearchesMirror t (fiberKm t d) k ingress egress := by
  intro e hs _
  exact Topology.searchesMirror_of_twoWay htwo (ranksLoopFreeRoutes_fiberKm t d hnumbers hs.apart k)
    (ranksLoopFreeRoutes_fiberKm t d hnumbers hs.apart.symm k) (hfew e hs)

end Planner

end Lightpath

import Lightpath.Proofs.Wdm.Recalculation

/-!
# Layout — which paths stand where after a calculation

No route is asked for twice (`Planner.nodup_bothWays`), so the OSNR maps that come back in the order of
the routes are a function of the route (`exists_eq_map_of_nodup`). Each path that is assembled then
carries the OSNR of its own route (`Planner.assemble_map`), and those of a port pair that is searched
run over the ranked routes in their order, forth and back (`Planner.filter_assemble`).
-/

namespace Lightpath

section Lists

variable {α β : Type} {l : List α}

/-- Where only one member of a list gives anything, its part is the whole. -/
theorem flatMap_eq_of_mem {f : α → List β} {a : α} (hnodup : l.Nodup) (ha : a ∈ l)
    (hother : ∀ x ∈ l, x ≠ a → f x = []) : l.flatMap f = f a := by
  obtain ⟨before, after, rfl⟩ := List.append_of_mem ha
  have hnothing : ∀ x ∈ before ++ after, f x = [] := by
    intro x hx
    refine hother x ?_ ?_
    · rcases List.mem_append.1 hx with hx | hx
      · exact List.mem_append_left _ hx
      · exact List.mem_append_right _ (List.mem_cons_of_mem _ hx)
    · rintro rfl
      exact (List.nodup_middle.1 hnodup).notMem hx
  have hbefore : before.flatMap f = [] :=
    List.flatMap_eq_nil_iff.2 fun x hx => hnothing x (List.mem_append_left _ hx)
  have hafter : after.flatMap f = [] :=
    List.flatMap_eq_nil_iff.2 fun x hx => hnothing x (List.mem_append_right _ hx)
  rw [List.flatMap_append, List.flatMap_cons, hbefore, hafter, List.nil_append, List.append_nil]

/-- What answers different questions in their order is a function of the question. -/
theorem exists_eq_map_of_nodup [Inhabited β] (hnodup : l.Nodup) {answers : List β}
    (hlength : answers.length = l.length) : ∃ f : α → β, answers = l.map f := by
  classical
  refine ⟨fun x => answers[l.idxOf x]?.getD default, List.ext_getElem ?_ ?_⟩
  · rw [List.length_map, hlength]
  · intro i hi hi'
    rw [List.getElem_map, hnodup.idxOf_getElem, List.getElem?_eq_getElem hi, Option.getD_some]

end Lists

theorem Ends.reversed_ne {e : Ends} (h : e.src.device ≠ e.dst.device) : e.reversed ≠ e := by
  intro heq
  exact h (congrArg (fun e : Ends => e.dst.device) heq)

/-- A list of links leads from one device to one other. -/
theorem Joins.terminals {a a' b b' : DeviceId} {links : List Link} (hne : links ≠ [])
    (h : Joins a links b) (h' : Joins a' links b') : a = a' ∧ b = b' := by
  cases links with
  | nil => exact absurd rfl hne
  | cons l rest =>
    obtain rfl : a = a' := h.1.symm.trans h'.1
    exact ⟨rfl, h.unique h'⟩

namespace Planner

variable {t : Topology} {weigh : Weigher Float} {k : Nat} {ingress egress : Option ConnectPoint}
  {sources sinks : PortMap} {plan : List PlannedRoute} {osnr : Route → OsnrMap} {e : Ends}

/-! ## The routes that are asked for -/

/-- A planned route leads from one device of a pair to the other. -/
theorem joins_of_mem_plan {q : PlannedRoute} (hq : q ∈ Planner.plan t weigh k sources sinks) :
    ∃ a b, (a, b) ∈ devicePairs sources sinks ∧ Joins a q.route.links b := by
  obtain ⟨a, b, hpair, hr, -⟩ := mem_plan.1 hq
  obtain ⟨-, -, hne, -⟩ := mem_devicePairs.1 hpair
  exact ⟨a, b, hpair, ((t.rankedRoutes_sound weigh hne k).2.2 _ hr).joins⟩

/-- No two planned routes lead over the same links. -/
theorem nodup_links_plan :
    ((Planner.plan t weigh k sources sinks).map fun q => q.route.links).Nodup := by
  rw [Planner.plan, List.map_flatMap, List.nodup_flatMap]
  refine ⟨?_, ?_⟩
  · rintro ⟨a, b⟩ hpair
    obtain ⟨-, -, hne, -⟩ := mem_devicePairs.1 hpair
    rw [List.map_map]
    exact (t.rankedRoutes_sound weigh hne k).2.1
  · refine (nodup_devicePairs sources sinks).imp_of_mem ?_
    rintro ⟨a, b⟩ ⟨a', b'⟩ hpair hpair' hne links hlinks hlinks'
    simp only [List.map_map, List.mem_map, Function.comp_apply] at hlinks hlinks'
    obtain ⟨r, hr, rfl⟩ := hlinks
    obtain ⟨r', hr', heq⟩ := hlinks'
    obtain ⟨-, -, hapart, -⟩ := mem_devicePairs.1 hpair
    obtain ⟨-, -, hapart', -⟩ := mem_devicePairs.1 hpair'
    have hjoins := ((t.rankedRoutes_sound weigh hapart k).2.2 r hr).joins
    have hjoins' := ((t.rankedRoutes_sound weigh hapart' k).2.2 r' hr').joins
    rw [heq] at hjoins'
    obtain ⟨rfl, rfl⟩ := hjoins.terminals r.nonempty hjoins'
    exact hne rfl

/-- No route is asked for twice: neither two planned routes nor their mirrors are the same. -/
theorem nodup_bothWays (h : planned t weigh k ingress egress = .ok plan) :
    ((bothWays plan).map Route.links).Nodup := by
  obtain ⟨sources, sinks, -, -, rfl⟩ := planned_eq_ok h
  have hways : (bothWays (Planner.plan t weigh k sources sinks)).map Route.links =
      ((Planner.plan t weigh k sources sinks).map fun q => q.route.links).flatMap
        fun links => [links, mirrored links] := by
    rw [bothWays, List.map_flatMap, List.flatMap_map]
    rfl
  rw [hways]
  apply nodup_withOpposites mirrored_mirrored nodup_links_plan
  -- a mirror leads the other way between a pair of devices, and no such pair is planned
  intro _ hlinks _ hlinks' heq
  obtain ⟨q, hq, rfl⟩ := List.mem_map.1 hlinks
  obtain ⟨q', hq', rfl⟩ := List.mem_map.1 hlinks'
  obtain ⟨a, b, hpair, hjoins⟩ := joins_of_mem_plan hq
  obtain ⟨a', b', hpair', hjoins'⟩ := joins_of_mem_plan hq'
  obtain ⟨rfl, rfl⟩ := hjoins.terminals q.route.nonempty (heq ▸ hjoins'.mirrored)
  exact not_mem_devicePairs_swap hpair hpair'

/-! ## The paths of a port pair -/

/-- The two paths of a port pair over a route and its mirror. -/
def pathsOver (osnr : Route → OsnrMap) (e : Ends) (r : Route) : List WdmPath :=
  [⟨e, r, osnr r⟩, ⟨e.reversed, r.reverse, osnr r.reverse⟩]

/-- If the OSNR maps come in the order of the routes, every path carries that of its own route. -/
theorem assemble_map (plan : List PlannedRoute) (osnr : Route → OsnrMap) :
    assemble plan ((bothWays plan).map osnr) =
      plan.flatMap fun q => q.joins.flatMap fun e => pathsOver osnr e q.route := by
  induction plan with
  | nil => rfl
  | cons q rest ih =>
    rw [List.flatMap_cons, ← ih]
    rfl

/-- Whether a path joins two ports in either direction. -/
def connects (e : Ends) (p : WdmPath) : Bool := p.inScope (some e.src) (some e.dst)

theorem connects_iff {p : WdmPath} : connects e p = true ↔ p.ends = e ∨ p.ends = e.reversed :=
  WdmPath.inScope_pair

theorem filter_pathsOver_self (r : Route) :
    (pathsOver osnr e r).filter (connects e) = pathsOver osnr e r := by
  refine List.filter_eq_self.2 fun p hp => connects_iff.2 ?_
  simp only [pathsOver, List.mem_cons, List.not_mem_nil, or_false] at hp
  rcases hp with rfl | rfl
  · exact .inl rfl
  · exact .inr rfl

theorem filter_pathsOver_of_ne {e' : Ends} (hne : e' ≠ e) (hne' : e' ≠ e.reversed) (r : Route) :
    (pathsOver osnr e' r).filter (connects e) = [] := by
  refine List.filter_eq_nil_iff.2 fun p hp => connects_iff.not.2 ?_
  simp only [pathsOver, List.mem_cons, List.not_mem_nil, or_false] at hp
  rcases hp with rfl | rfl
  · exact not_or.2 ⟨hne, hne'⟩
  · rintro (heq | heq)
    · exact hne' (heq ▸ e'.reversed_reversed.symm)
    · exact hne (congrArg Ends.reversed heq)

/-- Of the paths that a plan gives, those of a port pair that is searched run over the ranked routes
between its devices, in their order, forth and back. -/
theorem filter_assemble (h : planned t weigh k ingress egress = .ok plan)
    (he : Searches t ingress egress e) :
    (assemble plan ((bothWays plan).map osnr)).filter (connects e) =
      (t.rankedRoutes weigh e.src.device e.dst.device k).flatMap (pathsOver osnr e) := by
  obtain ⟨-, -, sources, sinks, hsources, hsinks, rfl⟩ := planned_eq_ok_iff.1 h
  have hpair := he.mem_devicePairs hsources hsinks
  rw [assemble_map, Planner.plan, List.flatMap_assoc, List.filter_flatMap]
  refine (flatMap_eq_of_mem (nodup_devicePairs sources sinks) hpair ?_).trans ?_
  · -- other devices have other ports
    rintro ⟨a, b⟩ hpair' hne
    rw [List.flatMap_map, List.filter_flatMap, List.flatMap_eq_nil_iff]
    intro r _
    rw [List.filter_flatMap, List.flatMap_eq_nil_iff]
    intro e' he'
    obtain ⟨⟨rfl, -⟩, rfl, -⟩ := (mem_portPairs_portsFor hsources hsinks).1 he'
    apply filter_pathsOver_of_ne
    · rintro rfl
      exact hne rfl
    · rintro rfl
      exact not_mem_devicePairs_swap hpair hpair'
  · rw [List.flatMap_map, List.filter_flatMap]
    refine List.flatMap_congr fun r _ => ?_
    rw [List.filter_flatMap]
    refine (flatMap_eq_of_mem (a := e) ?_ ?_ ?_).trans (filter_pathsOver_self r)
    · exact nodup_portPairs ((serves_portsFor hsources).nodup_getD _)
        ((serves_portsFor hsinks).nodup_getD _)
    · exact (mem_portPairs_portsFor hsources hsinks).2
        ⟨⟨rfl, he.add, he.from_ingress⟩, rfl, he.drop, he.to_egress⟩
    · intro e' he' hne
      refine filter_pathsOver_of_ne hne ?_ r
      rintro rfl
      exact he.apart.symm ((mem_portPairs_portsFor hsources hsinks).1 he').1.1

/-- Of the paths that a port pair has in both directions, those of one direction can be told apart. -/
theorem filter_ends_assemble (h : planned t weigh k ingress egress = .ok plan)
    (he : Searches t ingress egress e) {e' : Ends} (he' : e' = e ∨ e' = e.reversed) :
    (assemble plan ((bothWays plan).map osnr)).filter (fun p => p.ends == e') =
      (t.rankedRoutes weigh e.src.device e.dst.device k).flatMap fun r =>
        (pathsOver osnr e r).filter fun p => p.ends == e' := by
  rw [← List.filter_flatMap, ← filter_assemble h he, List.filter_filter]
  refine List.filter_congr fun p _ => ?_
  rw [Bool.eq_iff_iff, Bool.and_eq_true, beq_iff_eq]
  refine (and_iff_left_of_imp ?_).symm
  rintro rfl
  exact connects_iff.2 he'

/-- The paths of a port pair that is searched run over the ranked routes, in their order. -/
theorem filter_forth_assemble (h : planned t weigh k ingress egress = .ok plan)
    (he : Searches t ingress egress e) :
    (assemble plan ((bothWays plan).map osnr)).filter (fun p => p.ends == e) =
      (t.rankedRoutes weigh e.src.device e.dst.device k).map fun r => ⟨e, r, osnr r⟩ := by
  have hne : e.reversed ≠ e := Ends.reversed_ne he.apart
  rw [filter_ends_assemble h he (.inl rfl), List.map_eq_flatMap]
  refine List.flatMap_congr fun r _ => ?_
  simp [pathsOver, hne]

/-- The paths the other way run over the mirrored routes, in the same order. -/
theorem filter_back_assemble (h : planned t weigh k ingress egress = .ok plan)
    (he : Searches t ingress egress e) :
    (assemble plan ((bothWays plan).map osnr)).filter (fun p => p.ends == e.reversed) =
      (t.rankedRoutes weigh e.src.device e.dst.device k).map fun r =>
        ⟨e.reversed, r.reverse, osnr r.reverse⟩ := by
  have hne : e ≠ e.reversed := (Ends.reversed_ne he.apart).symm
  rw [filter_ends_assemble h he (.inr rfl), List.map_eq_flatMap]
  refine List.flatMap_congr fun r _ => ?_
  simp [pathsOver, hne]

/-- Every path of a plan runs over a route that is asked for, between ports that are searched in one
direction or the other. -/
theorem of_mem_assemble_searched (h : planned t weigh k ingress egress = .ok plan)
    {osnr : List OsnrMap} {p : WdmPath} (hp : p ∈ assemble plan osnr) :
    p.route ∈ bothWays plan ∧
      (Searches t ingress egress p.ends ∨ Searches t ingress egress p.ends.reversed) := by
  obtain ⟨q, hq, e, he, hcases⟩ := of_mem_assemble hp
  have hs : Searches t ingress egress e := ((mem_planned_iff h).1 ⟨q, hq, he, rfl⟩).1
  rw [bothWays, List.mem_flatMap]
  rcases hcases with ⟨rfl, hroute⟩ | ⟨hends, hroute⟩
  · exact ⟨⟨q, hq, by simp [hroute]⟩, .inl hs⟩
  · exact ⟨⟨q, hq, by simp [hroute]⟩, .inr (by rwa [hends, Ends.reversed_reversed])⟩

end Planner

end Lightpath

import Lightpath.Proofs.Routing.Routes
import Lightpath.Proofs.Wdm.Catalog
import Lightpath.Wdm.Planner

/-!
# Planning — which paths a calculation gives

A calculation plans trips in one direction between every two devices (`Planner.trips`). No trip is
planned twice, none is planned in both directions, and no port pair has more than `k`
(`Planner.SeparateTrips`), so the cap on the routes of a port pair takes none away
(`Planner.capped_plan`). Every trip becomes one path in each direction (`Planner.map_trip_assemble`),
so the paths of a calculation come in mirrored pairs and are all within the scope that they replace
(`Planner.IsOutput`).
-/

namespace Lightpath

/-- A port pair with the connect points on the way from one to the other. -/
structure Trip where
  ends : Ends
  hops : List ConnectPoint
deriving DecidableEq

/-- The same way in the opposite direction. -/
def Trip.reversed (x : Trip) : Trip := ⟨x.ends.reversed, x.hops.reverse⟩

@[simp]
theorem Trip.reversed_reversed (x : Trip) : x.reversed.reversed = x := by
  rw [reversed, reversed, List.reverse_reverse]
  rfl

/-- The trip of a WDM path. -/
def WdmPath.trip (p : WdmPath) : Trip := ⟨p.ends, p.route.hops⟩

/-- Whether a connect point is an add/drop port. -/
def Topology.isAddDropPort (t : Topology) (cp : ConnectPoint) : Bool :=
  (t.device? cp.device).any fun d => d.isAddDropPort cp.port

/-- The path joins add/drop ports of two different devices, and its route leads from one device to
the other and visits no device twice. -/
structure WdmPath.JoinsAddDropPorts (t : Topology) (p : WdmPath) : Prop where
  add : t.isAddDropPort p.ends.src = true
  drop : t.isAddDropPort p.ends.dst = true
  apart : p.ends.src.device ≠ p.ends.dst.device
  starts : p.route.src.device = p.ends.src.device
  ends : p.route.dst.device = p.ends.dst.device
  loopFree : (p.route.src.device :: p.route.links.map fun l => l.dst.device).Nodup

/-- A path joins ports if its links lead from one device to the other without a loop. -/
theorem WdmPath.joinsAddDropPorts_of_joins {t : Topology} {p : WdmPath}
    (hadd : t.isAddDropPort p.ends.src = true) (hdrop : t.isAddDropPort p.ends.dst = true)
    (hne : p.ends.src.device ≠ p.ends.dst.device)
    (hjoins : Joins p.ends.src.device p.route.links p.ends.dst.device)
    (hloop : LoopFree p.ends.src.device p.route.links) : p.JoinsAddDropPorts t := by
  obtain ⟨-, hsrc, hdst⟩ := (joins_iff p.route.nonempty).1 hjoins
  rw [List.head?_eq_some_head p.route.nonempty] at hsrc
  rw [List.getLast?_eq_some_getLast p.route.nonempty] at hdst
  have hstarts : p.route.src.device = p.ends.src.device := Option.some.inj hsrc
  exact ⟨hadd, hdrop, hne, hstarts, Option.some.inj hdst, hstarts ▸ hloop⟩

namespace Planner

/-! ## Ports -/

/-- The entries of a port map list different add/drop ports of their devices, and only the given one
if one is given. -/
def Serves (t : Topology) (given : Option ConnectPoint) (ports : PortMap) : Prop :=
  ∀ a cps, ports.find? a = some cps → cps.Nodup ∧
    ∀ cp ∈ cps, cp.device = a ∧ t.isAddDropPort cp = true ∧ given.all (fun g => cp == g) = true

/-- The listed add/drop ports of a device are its add/drop ports. -/
theorem mem_addDropPorts {d : Device} {cp : ConnectPoint} :
    cp ∈ d.addDropPorts ↔ cp.device = d.id ∧ d.isAddDropPort cp.port = true := by
  unfold Device.addDropPorts Device.isAddDropPort
  split
  next hroadm =>
    rw [hroadm, Bool.true_and, List.mem_map]
    constructor
    · rintro ⟨p, hp, rfl⟩
      obtain ⟨hmem, hkind⟩ := List.mem_filter.1 hp
      -- no other port has the same number
      have hport : d.port? p.number = some p := by
        unfold Device.port?
        cases hfind : d.ports.find? (fun q => q.number == p.number) with
        | none =>
          have hnone := List.find?_eq_none.1 hfind p hmem
          simp at hnone
        | some q =>
          have hnumber : q.number = p.number := by simpa using List.find?_some hfind
          exact congrArg some (List.inj_on_of_nodup_map d.ports_nodup
            (List.mem_of_find?_eq_some hfind) hmem hnumber)
      exact ⟨rfl, by rw [hport]; exact hkind⟩
    · rintro ⟨hid, hport⟩
      obtain ⟨p, hp, hkind⟩ := (Option.any_eq_true ..).1 hport
      have hnumber : p.number = cp.port := by simpa using List.find?_some hp
      refine ⟨p, List.mem_filter.2 ⟨List.mem_of_find?_eq_some hp, hkind⟩, ?_⟩
      rw [hnumber, ← hid]
  next hroadm =>
    rw [Bool.not_eq_true] at hroadm
    simp [hroadm]

theorem nodup_addDropPorts (d : Device) : d.addDropPorts.Nodup := by
  unfold Device.addDropPorts
  split
  next =>
    have hnumbers : ((d.ports.filter Device.isAddDropEntry).map PortEntry.number).Nodup :=
      d.ports_nodup.sublist (List.filter_sublist.map _)
    refine List.Nodup.of_map ConnectPoint.port ?_
    rw [List.map_map]
    exact hnumbers
  next => exact .nil

theorem find?_portMap {t : Topology} {a : DeviceId} {cps : List ConnectPoint} :
    (portMap t).find? a = some cps ↔ ∃ d, t.device? a = some d ∧ d.addDropPorts = cps ∧ cps ≠ [] := by
  rw [portMap, SortedMap.find?_filter, SortedMap.find?_map, Option.filter_eq_some_iff,
    Option.map_eq_some_iff, Bool.not_eq_true', List.isEmpty_eq_false_iff]
  constructor
  · rintro ⟨⟨d, hd, hports⟩, hne⟩
    exact ⟨d, hd, hports, hne⟩
  · rintro ⟨d, hd, hports, hne⟩
    exact ⟨⟨d, hd, hports⟩, hne⟩

theorem serves_portMap (t : Topology) : Serves t none (portMap t) := by
  intro a cps hcps
  obtain ⟨d, hd, rfl, -⟩ := find?_portMap.1 hcps
  have hid : d.id = a := t.devices_keyed.of_find? hd
  refine ⟨nodup_addDropPorts d, ?_⟩
  intro cp hcp
  obtain ⟨hdevice, hport⟩ := mem_addDropPorts.1 hcp
  refine ⟨hdevice.trans hid, ?_, rfl⟩
  rw [Topology.isAddDropPort, hdevice, hid, hd]
  exact hport

section PortsFor

variable {t : Topology} {given : Option ConnectPoint} {ports : PortMap} {a : DeviceId}
  {cp : ConnectPoint}

/-- A given port has to be an add/drop port, and stands alone in its port map. -/
theorem portsFor_some_eq_ok {all : PortMap} : portsFor t all (some cp) = .ok ports ↔
    t.isAddDropPort cp = true ∧ SortedMap.empty.insert cp.device [cp] = ports := by
  rw [portsFor, ← Topology.isAddDropPort]
  cases t.isAddDropPort cp <;> simp

theorem find?_insert_empty {b : DeviceId} {cps : List ConnectPoint} :
    ((SortedMap.empty : PortMap).insert b cps).find? a = if a = b then some cps else none := by
  rw [SortedMap.find?_insert, SortedMap.find?_empty]

theorem serves_portsFor (h : portsFor t (portMap t) given = .ok ports) : Serves t given ports := by
  cases given with
  | none =>
    cases h
    exact serves_portMap t
  | some cp =>
    obtain ⟨hport, rfl⟩ := portsFor_some_eq_ok.1 h
    intro a cps hcps
    rw [find?_insert_empty] at hcps
    split at hcps
    next ha =>
      cases hcps
      refine ⟨List.nodup_singleton cp, ?_⟩
      intro cp' hcp'
      obtain rfl := List.mem_singleton.1 hcp'
      exact ⟨ha.symm, hport, beq_self_eq_true cp'⟩
    next => exact nomatch hcps

/-- What a port map serves under a device. -/
theorem Serves.of_mem_getD (h : Serves t given ports) (hcp : cp ∈ (ports.find? a).getD []) :
    cp.device = a ∧ t.isAddDropPort cp = true ∧ given.all (fun g => cp == g) = true := by
  cases hfind : ports.find? a with
  | none =>
    rw [hfind] at hcp
    exact nomatch hcp
  | some cps =>
    rw [hfind] at hcp
    exact (h a cps hfind).2 cp hcp

theorem Serves.nodup_getD (h : Serves t given ports) (a : DeviceId) :
    ((ports.find? a).getD []).Nodup := by
  cases hfind : ports.find? a with
  | none => exact .nil
  | some cps => exact (h a cps hfind).1

/-- The ports from which paths may start or where they may end: every add/drop port, or the given one. -/
theorem mem_portsFor (h : portsFor t (portMap t) given = .ok ports) :
    cp ∈ (ports.find? a).getD [] ↔
      cp.device = a ∧ t.isAddDropPort cp = true ∧ given.all (fun g => cp == g) = true := by
  refine ⟨(serves_portsFor h).of_mem_getD, ?_⟩
  rintro ⟨rfl, hport, hgiven⟩
  cases given with
  | none =>
    cases h
    obtain ⟨d, hd, hport⟩ := (Option.any_eq_true ..).1 hport
    have hid : d.id = cp.device := t.devices_keyed.of_find? hd
    have hmem : cp ∈ d.addDropPorts := mem_addDropPorts.2 ⟨hid.symm, hport⟩
    rw [find?_portMap.2 ⟨d, hd, rfl, List.ne_nil_of_mem hmem⟩]
    exact hmem
  | some g =>
    obtain rfl : cp = g := by simpa using hgiven
    obtain ⟨-, rfl⟩ := portsFor_some_eq_ok.1 h
    rw [find?_insert_empty, if_pos rfl]
    exact List.mem_singleton_self cp

theorem ne_nil_of_find?_portsFor (h : portsFor t (portMap t) given = .ok ports)
    {cps : List ConnectPoint} (hcps : ports.find? a = some cps) : cps ≠ [] := by
  cases given with
  | none =>
    cases h
    obtain ⟨-, -, -, hne⟩ := find?_portMap.1 hcps
    exact hne
  | some g =>
    obtain ⟨-, rfl⟩ := portsFor_some_eq_ok.1 h
    rw [find?_insert_empty] at hcps
    split at hcps
    · cases hcps
      exact List.cons_ne_nil _ _
    · exact nomatch hcps

/-- A device stands in a port map for one of its ports. -/
theorem contains_portsFor (h : portsFor t (portMap t) given = .ok ports) :
    ports.contains a = true ↔ ∃ cp, cp.device = a ∧ t.isAddDropPort cp = true ∧
      given.all (fun g => cp == g) = true := by
  simp only [← mem_portsFor h]
  rw [SortedMap.contains]
  cases hfind : ports.find? a with
  | none => simp
  | some cps =>
    obtain ⟨cp, hcp⟩ := List.exists_mem_of_ne_nil cps (ne_nil_of_find?_portsFor h hfind)
    exact iff_of_true rfl ⟨cp, hcp⟩

/-- A port map that has a device beside that of a port within it is the map of all ports. -/
theorem given_eq_none (h : portsFor t (portMap t) given = .ok ports)
    (hcp : given.all (fun g => cp == g) = true) (ha : ports.contains a = true)
    (hne : a ≠ cp.device) : given = none := by
  obtain ⟨cp', rfl, -, hcp'⟩ := (contains_portsFor h).1 ha
  cases given with
  | none => rfl
  | some g =>
    obtain rfl : cp = g := by simpa using hcp
    obtain rfl : cp' = cp := by simpa using hcp'
    exact absurd rfl hne

end PortsFor

/-! ## Device pairs -/

theorem mem_keys_iff {m : PortMap} {a : DeviceId} : a ∈ m.keys ↔ m.contains a = true := by
  rw [SortedMap.keys, List.mem_map, SortedMap.contains, Option.isSome_iff_exists]
  constructor
  · rintro ⟨⟨_, cps⟩, he, rfl⟩
    exact ⟨cps, SortedMap.find?_eq_some_iff.2 he⟩
  · rintro ⟨cps, h⟩
    exact ⟨(a, cps), SortedMap.mem_entries_of_find? h, rfl⟩

theorem mem_devicePairs {sources sinks : PortMap} {a b : DeviceId} :
    (a, b) ∈ devicePairs sources sinks ↔
      sources.contains a = true ∧ sinks.contains b = true ∧ a ≠ b ∧
        ¬ (sources.contains b = true ∧ sinks.contains a = true ∧ compare b a = .lt) := by
  simp only [devicePairs, List.mem_flatMap, List.mem_map, List.mem_filter, Prod.mk.injEq]
  simp only [mem_keys_iff, Bool.and_eq_true, bne_iff_ne, Bool.not_eq_true', Bool.and_eq_false_iff]
  constructor
  · rintro ⟨_, ha, _, ⟨hb, hne, hfirst⟩, rfl, rfl⟩
    refine ⟨ha, hb, hne, ?_⟩
    rintro ⟨hsource, hsink, hlt⟩
    simp [hsource, hsink, hlt] at hfirst
  · rintro ⟨ha, hb, hne, hfirst⟩
    refine ⟨a, ha, b, ⟨hb, hne, ?_⟩, rfl, rfl⟩
    by_contra hall
    simp only [not_or, Bool.not_eq_false, beq_iff_eq, and_assoc] at hall
    exact hfirst hall

/-- No pair of devices comes with its opposite. -/
theorem not_mem_devicePairs_swap {sources sinks : PortMap} {a b : DeviceId}
    (h : (a, b) ∈ devicePairs sources sinks) : (b, a) ∉ devicePairs sources sinks := by
  intro h'
  obtain ⟨ha, hb, hne, hfirst⟩ := mem_devicePairs.1 h
  obtain ⟨hb', ha', -, hfirst'⟩ := mem_devicePairs.1 h'
  cases hcompare : compare a b with
  | lt => exact hfirst' ⟨ha, hb, hcompare⟩
  | eq => exact hne (Std.LawfulEqOrd.eq_of_compare hcompare)
  | gt => exact hfirst ⟨hb', ha', Std.OrientedCmp.lt_of_gt hcompare⟩

theorem nodup_devicePairs (sources sinks : PortMap) : (devicePairs sources sinks).Nodup := by
  rw [devicePairs, List.nodup_flatMap]
  refine ⟨?_, ?_⟩
  · intro a _
    exact (sinks.nodup_keys.filter _).map fun b b' heq => (Prod.mk.inj heq).2
  · refine sources.nodup_keys.imp ?_
    intro a a' hne pair hpair hpair'
    obtain ⟨b, -, rfl⟩ := List.mem_map.1 hpair
    obtain ⟨b', -, heq⟩ := List.mem_map.1 hpair'
    exact hne (Prod.mk.inj heq).1.symm

theorem mem_portPairs {xs ys : List ConnectPoint} {e : Ends} :
    e ∈ portPairs xs ys ↔ e.src ∈ xs ∧ e.dst ∈ ys := by
  simp only [portPairs, List.mem_flatMap, List.mem_map]
  constructor
  · rintro ⟨a, ha, b, hb, rfl⟩
    exact ⟨ha, hb⟩
  · rintro ⟨ha, hb⟩
    exact ⟨e.src, ha, e.dst, hb, rfl⟩

theorem nodup_portPairs {xs ys : List ConnectPoint} (hxs : xs.Nodup) (hys : ys.Nodup) :
    (portPairs xs ys).Nodup := by
  rw [portPairs, List.nodup_flatMap]
  refine ⟨?_, ?_⟩
  · intro a _
    exact hys.map fun b b' heq => (Ends.mk.inj heq).2
  · refine hxs.imp ?_
    intro a a' hne e he he'
    obtain ⟨b, -, rfl⟩ := List.mem_map.1 he
    obtain ⟨b', -, heq⟩ := List.mem_map.1 he'
    exact hne (Ends.mk.inj heq).1.symm

/-! ## Trips -/

/-- The trips of planned routes. -/
def trips (plan : List PlannedRoute) : List Trip :=
  plan.flatMap fun p => p.joins.map fun e => ⟨e, p.route.hops⟩

/-- Different trips, none of them between the same ports as the opposite of another one, and no more
than `k` for each port pair. -/
structure SeparateTrips (k : Nat) (l : List Trip) : Prop where
  nodup : l.Nodup
  oneWay : ∀ x ∈ l, ∀ y ∈ l, x.ends ≠ y.ends.reversed
  atMost : ∀ e, (l.filter fun x => x.ends == e).length ≤ k

/-- Every trip followed by its opposite. -/
def roundTrips (l : List Trip) : List Trip := l.flatMap fun x => [x, x.reversed]

theorem mem_roundTrips {l : List Trip} {x : Trip} :
    x ∈ roundTrips l ↔ x ∈ l ∨ x.reversed ∈ l := by
  simp only [roundTrips, List.mem_flatMap, List.mem_cons, List.not_mem_nil, or_false]
  constructor
  · rintro ⟨y, hy, rfl | rfl⟩
    · exact .inl hy
    · exact .inr (y.reversed_reversed.symm ▸ hy)
  · rintro (h | h)
    · exact ⟨x, h, .inl rfl⟩
    · exact ⟨x.reversed, h, .inr x.reversed_reversed.symm⟩

/-- Different things, none of them the opposite of another one, are different from all opposites. -/
theorem nodup_withOpposites {α : Type} {opposite : α → α} {l : List α}
    (hopposite : ∀ x, opposite (opposite x) = x) (hnodup : l.Nodup)
    (hapart : ∀ x ∈ l, ∀ y ∈ l, x ≠ opposite y) :
    (l.flatMap fun x => [x, opposite x]).Nodup := by
  rw [List.nodup_flatMap]
  refine ⟨?_, ?_⟩
  · intro x hx
    exact List.nodup_cons.2 ⟨List.mem_singleton.not.2 (hapart x hx x hx), List.nodup_singleton _⟩
  · refine hnodup.imp_of_mem ?_
    intro x y hx hy hne z hzx hzy
    simp only [List.mem_cons, List.not_mem_nil, or_false] at hzx hzy
    rcases hzx with rfl | rfl <;> rcases hzy with heq | heq
    · exact hne heq
    · exact hapart _ hx _ hy heq
    · exact hapart _ hy _ hx heq.symm
    · exact hne (by rw [← hopposite x, heq, hopposite y])

theorem SeparateTrips.nodup_roundTrips {k : Nat} {l : List Trip} (h : SeparateTrips k l) :
    (roundTrips l).Nodup := by
  refine nodup_withOpposites Trip.reversed_reversed h.nodup ?_
  exact fun x hx y hy heq => h.oneWay x hx y hy (congrArg Trip.ends heq)

theorem length_filter_roundTrips (l : List Trip) (e : Ends) :
    ((roundTrips l).filter fun x => x.ends == e).length =
      (l.filter fun x => x.ends == e).length + (l.filter fun x => x.ends == e.reversed).length := by
  induction l with
  | nil => rfl
  | cons x rest ih =>
    have hback : (x.reversed.ends == e) = (x.ends == e.reversed) := by
      rw [Bool.eq_iff_iff, beq_iff_eq, beq_iff_eq]
      constructor
      · rintro rfl
        rfl
      · intro heq
        rw [Trip.reversed, heq]
        rfl
    show (([x, x.reversed] ++ roundTrips rest).filter fun x => x.ends == e).length = _
    rw [List.filter_append, List.length_append, ih]
    simp only [List.filter_cons, List.filter_nil, hback]
    cases x.ends == e <;> cases x.ends == e.reversed <;> simp <;> omega

theorem SeparateTrips.atMost_roundTrips {k : Nat} {l : List Trip} (h : SeparateTrips k l)
    (e : Ends) : ((roundTrips l).filter fun x => x.ends == e).length ≤ k := by
  rw [length_filter_roundTrips]
  -- the trips of a port pair are all planned in one direction
  by_cases hforth : (l.filter fun x => x.ends == e) = []
  · rw [hforth, List.length_nil, Nat.zero_add]
    exact h.atMost e.reversed
  · obtain ⟨x, hx⟩ := List.exists_mem_of_ne_nil _ hforth
    obtain ⟨hx, hends⟩ := List.mem_filter.1 hx
    have hback : (l.filter fun x => x.ends == e.reversed) = [] := by
      rw [List.filter_eq_nil_iff]
      intro y hy heq
      refine h.oneWay y hy x hx ?_
      rw [beq_iff_eq.1 heq, beq_iff_eq.1 hends]
    rw [hback, List.length_nil, Nat.add_zero]
    exact h.atMost e

/-! ## The cap -/

theorem timesServed_append (xs ys : List Ends) (e : Ends) :
    timesServed (xs ++ ys) e = timesServed xs e + timesServed ys e := by
  simp only [timesServed, List.filter_append, List.length_append]

/-- Port pairs that are served at most `k` times altogether are all under the cap. -/
theorem underCap_eq_self {k : Nat} {served pairs : List Ends}
    (h : ∀ e, timesServed (served ++ pairs) e ≤ k) : underCap k served pairs = pairs := by
  induction pairs generalizing served with
  | nil => rfl
  | cons e rest ih =>
    have hone : timesServed [e] e = 1 := by simp [timesServed]
    have hlt : timesServed served e < k := by
      have hall := h e
      rw [← List.singleton_append, timesServed_append, timesServed_append, hone] at hall
      omega
    have hrest : ∀ x, timesServed ((served ++ [e]) ++ rest) x ≤ k := by
      intro x
      rw [List.append_assoc]
      exact h x
    rw [underCap, if_pos hlt, ih hrest]

theorem capped_eq_self {k : Nat} {served : List Ends} {plan : List PlannedRoute}
    (h : ∀ e, timesServed (served ++ plan.flatMap PlannedRoute.joins) e ≤ k) :
    capped k served plan = plan := by
  induction plan generalizing served with
  | nil => rfl
  | cons p rest ih =>
    have hsplit : served ++ (p :: rest).flatMap PlannedRoute.joins =
        (served ++ p.joins) ++ rest.flatMap PlannedRoute.joins := by
      rw [List.flatMap_cons, List.append_assoc]
    rw [hsplit] at h
    have hjoins : underCap k served p.joins = p.joins := by
      refine underCap_eq_self fun e => ?_
      have hall := h e
      rw [timesServed_append] at hall
      omega
    rw [capped, hjoins, ih h]

/-- Trips serve a port pair as often as they and their opposites lead from one port to the other. -/
theorem timesServed_map_ends (l : List Trip) (e : Ends) :
    timesServed (l.map Trip.ends) e ≤ ((roundTrips l).filter fun x => x.ends == e).length := by
  rw [length_filter_roundTrips]
  induction l with
  | nil => exact Nat.le_refl 0
  | cons x rest ih =>
    rw [List.map_cons, ← List.singleton_append, timesServed_append]
    simp only [timesServed, List.filter_cons, List.filter_nil] at ih ⊢
    cases x.ends == e <;> cases x.ends == e.reversed <;> simp <;> omega

/-! ## Planned trips -/

/-- Within one topology a list of links is determined by its connect points. -/
theorem eq_of_hopsOf_eq {t : Topology} {xs ys : List Link} (hxs : ∀ l ∈ xs, l ∈ t.links)
    (hys : ∀ l ∈ ys, l ∈ t.links) (h : Route.hopsOf xs = Route.hopsOf ys) : xs = ys := by
  induction xs generalizing ys with
  | nil =>
    cases ys with
    | nil => rfl
    | cons m rest => exact nomatch h
  | cons l xs ih =>
    cases ys with
    | nil => exact nomatch h
    | cons m ys =>
      have hhops : l.src :: l.dst :: Route.hopsOf xs = m.src :: m.dst :: Route.hopsOf ys := h
      simp only [List.cons.injEq] at hhops
      obtain ⟨hsrc, hdst, hrest⟩ := hhops
      have hends : l.ends = m.ends := by rw [Link.ends, Link.ends, hsrc, hdst]
      obtain rfl : l = m := t.links_keyed.eq_of_mem_values (hxs l List.mem_cons_self)
        (hys m List.mem_cons_self) hends
      rw [ih (fun x hx => hxs x (List.mem_cons_of_mem _ hx))
        (fun x hx => hys x (List.mem_cons_of_mem _ hx)) hrest]

section Plan

variable {t : Topology} {weigh : Weigher Float} {k : Nat} {sources sinks : PortMap}
  {ingress egress : Option ConnectPoint}

theorem mem_plan {p : PlannedRoute} : p ∈ plan t weigh k sources sinks ↔
    ∃ a b, (a, b) ∈ devicePairs sources sinks ∧ p.route ∈ t.rankedRoutes weigh a b k ∧
      p.joins = portPairs ((sources.find? a).getD []) ((sinks.find? b).getD []) := by
  simp only [plan, List.mem_flatMap, List.mem_map, Prod.exists]
  constructor
  · rintro ⟨a, b, hpair, r, hr, rfl⟩
    exact ⟨a, b, hpair, hr, rfl⟩
  · rintro ⟨a, b, hpair, hr, hjoins⟩
    exact ⟨a, b, hpair, p.route, hr, by rw [← hjoins]⟩

/-- Where a planned trip comes from: a ranked route between the devices of its ports. -/
theorem of_mem_trips (hsources : Serves t ingress sources) (hsinks : Serves t egress sinks)
    {x : Trip} (hx : x ∈ trips (plan t weigh k sources sinks)) :
    (x.ends.src.device, x.ends.dst.device) ∈ devicePairs sources sinks ∧
      ∃ r ∈ t.rankedRoutes weigh x.ends.src.device x.ends.dst.device k, r.hops = x.hops := by
  obtain ⟨p, hp, hx⟩ := List.mem_flatMap.1 hx
  obtain ⟨e, he, rfl⟩ := List.mem_map.1 hx
  obtain ⟨a, b, hpair, hr, hjoins⟩ := mem_plan.1 hp
  rw [hjoins, mem_portPairs] at he
  obtain rfl := (hsources.of_mem_getD he.1).1
  obtain rfl := (hsinks.of_mem_getD he.2).1
  exact ⟨hpair, p.route, hr, rfl⟩

theorem nodup_trips (hsources : Serves t ingress sources) (hsinks : Serves t egress sinks) :
    (trips (plan t weigh k sources sinks)).Nodup := by
  rw [trips, plan, List.flatMap_assoc, List.nodup_flatMap]
  refine ⟨?_, ?_⟩
  · rintro ⟨a, b⟩ hpair
    obtain ⟨-, -, hne, -⟩ := mem_devicePairs.1 hpair
    obtain ⟨-, hdistinct, hsound⟩ := t.rankedRoutes_sound weigh hne k
    rw [List.flatMap_map, List.nodup_flatMap]
    refine ⟨?_, ?_⟩
    · intro r _
      exact (nodup_portPairs (hsources.nodup_getD a) (hsinks.nodup_getD b)).map
        fun e e' heq => (Trip.mk.inj heq).1
    · refine (List.pairwise_map.1 hdistinct).imp_of_mem ?_
      intro r r' hr hr' hlinks x hx hx'
      obtain ⟨e, -, rfl⟩ := List.mem_map.1 hx
      obtain ⟨e', -, heq⟩ := List.mem_map.1 hx'
      refine hlinks (eq_of_hopsOf_eq (t := t) ?_ ?_ (Trip.mk.inj heq).2.symm)
      · exact fun l hl => ((hsound r hr).viable l hl).1
      · exact fun l hl => ((hsound r' hr').viable l hl).1
  · refine (nodup_devicePairs sources sinks).imp ?_
    rintro ⟨a, b⟩ ⟨a', b'⟩ hne x hx hx'
    have hdevices (a b : DeviceId) (hx : x ∈ ((t.rankedRoutes weigh a b k).map fun r =>
        (⟨r, portPairs ((sources.find? a).getD []) ((sinks.find? b).getD [])⟩ : PlannedRoute)).flatMap
          fun p => p.joins.map fun e => ⟨e, p.route.hops⟩) :
        x.ends.src.device = a ∧ x.ends.dst.device = b := by
      obtain ⟨p, hp, hx⟩ := List.mem_flatMap.1 hx
      obtain ⟨r, -, rfl⟩ := List.mem_map.1 hp
      obtain ⟨e, he, rfl⟩ := List.mem_map.1 hx
      obtain ⟨hsrc, hdst⟩ := mem_portPairs.1 he
      exact ⟨(hsources.of_mem_getD hsrc).1, (hsinks.of_mem_getD hdst).1⟩
    obtain ⟨rfl, rfl⟩ := hdevices a b hx
    obtain ⟨hsrc, hdst⟩ := hdevices a' b' hx'
    exact hne (Prod.ext hsrc hdst)

/-- Planned trips are separate. -/
theorem separateTrips (hsources : Serves t ingress sources) (hsinks : Serves t egress sinks) :
    SeparateTrips k (trips (plan t weigh k sources sinks)) where
  nodup := nodup_trips hsources hsinks
  oneWay := by
    intro x hx y hy heq
    obtain ⟨hpair, -⟩ := of_mem_trips hsources hsinks hx
    obtain ⟨hpair', -⟩ := of_mem_trips hsources hsinks hy
    rw [heq] at hpair
    exact not_mem_devicePairs_swap hpair hpair'
  atMost := by
    intro e
    -- the trips of a port pair differ in their connect points, which are those of ranked routes
    generalize hl : (trips (plan t weigh k sources sinks)).filter (fun x => x.ends == e) = l
    have hmem : ∀ x ∈ l, x ∈ trips (plan t weigh k sources sinks) ∧ x.ends = e := by
      intro x hx
      rw [← hl, List.mem_filter, beq_iff_eq] at hx
      exact hx
    have hnodup : (l.map Trip.hops).Nodup := by
      refine List.Nodup.map_on ?_ (hl ▸ (nodup_trips hsources hsinks).filter _)
      intro x hx y hy hhops
      exact Trip.mk.injEq .. ▸ ⟨(hmem x hx).2.trans (hmem y hy).2.symm, hhops⟩
    cases l with
    | nil => exact Nat.zero_le k
    | cons x rest =>
      obtain ⟨hx, rfl⟩ := hmem x List.mem_cons_self
      obtain ⟨hpair, -⟩ := of_mem_trips hsources hsinks hx
      obtain ⟨-, -, hne, -⟩ := mem_devicePairs.1 hpair
      have hsubset : (x :: rest).map Trip.hops ⊆
          (t.rankedRoutes weigh x.ends.src.device x.ends.dst.device k).map Route.hops := by
        intro hops hhops
        obtain ⟨y, hy, rfl⟩ := List.mem_map.1 hhops
        obtain ⟨hy, hends⟩ := hmem y hy
        obtain ⟨-, r, hr, heq⟩ := of_mem_trips hsources hsinks hy
        rw [hends] at hr
        exact List.mem_map.2 ⟨r, hr, heq⟩
      have hlength := hnodup.length_le_of_subset hsubset
      rw [List.length_map, List.length_map] at hlength
      exact hlength.trans (t.rankedRoutes_sound weigh hne k).1

/-- The planned routes serve the port pairs of their trips. -/
theorem flatMap_joins (plan : List PlannedRoute) :
    plan.flatMap PlannedRoute.joins = (trips plan).map Trip.ends := by
  rw [trips, List.map_flatMap]
  simp only [List.map_map]
  exact congrArg (fun f => plan.flatMap f) (funext fun p => (List.map_id p.joins).symm)

/-- Neither too many routes of a device pair nor a port that is listed twice let the cap take a port pair
from a planned route. -/
theorem capped_plan (hsources : Serves t ingress sources) (hsinks : Serves t egress sinks) :
    capped k [] (plan t weigh k sources sinks) = plan t weigh k sources sinks := by
  refine capped_eq_self fun e => ?_
  rw [List.nil_append, flatMap_joins]
  refine (timesServed_map_ends _ e).trans ?_
  exact (separateTrips hsources hsinks).atMost_roundTrips e

end Plan

/-! ## Assembled paths -/

theorem of_mem_assemble {plan : List PlannedRoute} {osnr : List OsnrMap} {p : WdmPath}
    (h : p ∈ assemble plan osnr) : ∃ q ∈ plan, ∃ e ∈ q.joins,
      p.ends = e ∧ p.route = q.route ∨ p.ends = e.reversed ∧ p.route = q.route.reverse := by
  induction plan, osnr using assemble.induct with
  | case1 q plan forth back osnr ih =>
    rw [assemble] at h
    rcases List.mem_append.1 h with h | h
    · obtain ⟨e, he, h⟩ := List.mem_flatMap.1 h
      refine ⟨q, List.mem_cons_self, e, he, ?_⟩
      simp only [List.mem_cons, List.not_mem_nil, or_false] at h
      rcases h with rfl | rfl
      · exact .inl ⟨rfl, rfl⟩
      · exact .inr ⟨rfl, rfl⟩
    · obtain ⟨q', hq', hp⟩ := ih h
      exact ⟨q', List.mem_cons_of_mem _ hq', hp⟩
  | case2 plan osnr hother =>
    rw [assemble] at h
    · exact nomatch h
    · exact hother

theorem length_bothWays (plan : List PlannedRoute) : (bothWays plan).length = 2 * plan.length := by
  induction plan with
  | nil => rfl
  | cons p rest ih =>
    rw [bothWays, List.flatMap_cons, List.length_append, ← bothWays, ih, List.length_cons]
    simp only [List.length_cons, List.length_nil]
    omega

/-- What a method gives for all routes: one OSNR map for each. It is not asked when there are none. -/
def Answers (method : OsnrMethod) (routes : List Route) (osnr : List OsnrMap) : Prop :=
  osnr.length = routes.length ∧ (routes = [] ∨ method routes = .ok osnr)

/-- A plan has paths if the method gives the OSNR of all routes, and these are the paths. -/
theorem evaluate_eq_ok_iff {method : OsnrMethod} {plan : List PlannedRoute} {paths : List WdmPath} :
    evaluate method plan = .ok paths ↔
      ∃ osnr, Answers method (bothWays plan) osnr ∧ paths = assemble plan osnr := by
  cases plan with
  | nil =>
    constructor
    · intro h
      cases h
      exact ⟨[], ⟨rfl, .inl rfl⟩, rfl⟩
    · rintro ⟨osnr, -, rfl⟩
      rfl
  | cons q rest =>
    have hsome : bothWays (q :: rest) ≠ [] := List.cons_ne_nil _ _
    simp only [Answers, hsome, false_or, evaluate, List.isEmpty_cons, Bool.false_eq_true, if_false]
    cases method (bothWays (q :: rest)) with
    | error f => simp
    | ok osnr =>
      by_cases hlength : osnr.length = (bothWays (q :: rest)).length
      · simp [hlength, eq_comm]
      · simp [hlength]

/-- With the OSNR of every route each planned route serves each of its port pairs in both directions. -/
theorem map_assemble {α : Type} (f : Ends → Route → α) {plan : List PlannedRoute}
    {osnr : List OsnrMap} (h : osnr.length = (bothWays plan).length) :
    (assemble plan osnr).map (fun p => f p.ends p.route) =
      plan.flatMap fun q => q.joins.flatMap fun e => [f e q.route, f e.reversed q.route.reverse] := by
  rw [length_bothWays] at h
  induction plan, osnr using assemble.induct with
  | case1 q plan forth back osnr ih =>
    simp only [List.length_cons] at h
    rw [assemble, List.map_append, ih (by omega), List.map_flatMap, List.flatMap_cons]
    rfl
  | case2 plan osnr hother =>
    cases plan with
    | nil =>
      rw [assemble]
      · rfl
      · exact hother
    | cons q plan =>
      -- there is an OSNR for the first route and for its mirror
      match osnr, h with
      | [], h => simp at h
      | [_], h =>
        simp only [List.length_cons, List.length_nil] at h
        omega
      | forth :: back :: osnr, _ => exact absurd rfl (hother q plan forth back osnr rfl)

/-- Each planned trip becomes a path in each direction. -/
theorem map_trip_assemble {plan : List PlannedRoute} {osnr : List OsnrMap}
    (h : osnr.length = (bothWays plan).length) :
    (assemble plan osnr).map WdmPath.trip = roundTrips (trips plan) := by
  refine (map_assemble (fun e r => (⟨e, r.hops⟩ : Trip)) h).trans ?_
  rw [roundTrips, trips, List.flatMap_assoc]
  simp only [List.flatMap_map, Route.hops_reverse]
  rfl

/-- What a calculation gives: different paths in mirrored pairs within the scope, no more than `k` for
each port pair, which join add/drop ports of the topology. -/
structure IsOutput (t : Topology) (k : Nat) (ingress egress : Option ConnectPoint)
    (paths : List WdmPath) : Prop where
  distinct : (paths.map WdmPath.trip).Nodup
  mirrored : ∀ p ∈ paths, ∃ q ∈ paths, q.trip = p.trip.reversed
  atMost : ∀ e, (paths.filter fun p => p.ends == e).length ≤ k
  inside : ∀ p ∈ paths, p.inScope ingress egress = true
  ports : ∀ p ∈ paths, p.JoinsAddDropPorts t

variable {t : Topology} {weigh : Weigher Float} {k : Nat} {ingress egress : Option ConnectPoint}

/-- Routes are planned if there are devices with add/drop ports and the given ports are such ports. -/
theorem planned_eq_ok_iff {plan : List PlannedRoute} :
    planned t weigh k ingress egress = .ok plan ↔
      t.devices.isEmpty = false ∧ (portMap t).isEmpty = false ∧
        ∃ sources sinks, portsFor t (portMap t) ingress = .ok sources ∧
          portsFor t (portMap t) egress = .ok sinks ∧
          plan = Planner.plan t weigh k sources sinks := by
  unfold planned
  simp only
  cases t.devices.isEmpty with
  | true => simp
  | false =>
    cases (portMap t).isEmpty with
    | true => simp
    | false =>
      cases hsources : portsFor t (portMap t) ingress with
      | error f => simp
      | ok sources =>
        cases hsinks : portsFor t (portMap t) egress with
        | error f => simp
        | ok sinks =>
          have hcap : capped k [] (Planner.plan t weigh k sources sinks) =
              Planner.plan t weigh k sources sinks :=
            capped_plan (serves_portsFor hsources) (serves_portsFor hsinks)
          constructor
          · intro h
            have hplan : capped k [] (Planner.plan t weigh k sources sinks) = plan := Except.ok.inj h
            exact ⟨rfl, rfl, sources, sinks, rfl, rfl, hplan.symm.trans hcap⟩
          · rintro ⟨-, -, _, _, hsources', hsinks', rfl⟩
            cases hsources'
            cases hsinks'
            exact congrArg Except.ok hcap

/-- Planned routes are planned between port maps. -/
theorem planned_eq_ok {plan : List PlannedRoute} (h : planned t weigh k ingress egress = .ok plan) :
    ∃ sources sinks, Serves t ingress sources ∧ Serves t egress sinks ∧
      plan = Planner.plan t weigh k sources sinks := by
  obtain ⟨-, -, sources, sinks, hsources, hsinks, rfl⟩ := planned_eq_ok_iff.1 h
  exact ⟨sources, sinks, serves_portsFor hsources, serves_portsFor hsinks, rfl⟩

/-- A path of a calculation runs over a ranked route or its mirror. -/
theorem of_mem_assemble_planned {plan : List PlannedRoute} {osnr : List OsnrMap} {p : WdmPath}
    (h : planned t weigh k ingress egress = .ok plan) (hp : p ∈ assemble plan osnr) :
    ∃ e : Ends, ∃ r ∈ t.rankedRoutes weigh e.src.device e.dst.device k,
      e.src.device ≠ e.dst.device ∧ t.isAddDropPort e.src = true ∧ t.isAddDropPort e.dst = true ∧
      ingress.all (fun g => e.src == g) = true ∧ egress.all (fun g => e.dst == g) = true ∧
        (p.ends = e ∧ p.route = r ∨ p.ends = e.reversed ∧ p.route = r.reverse) := by
  obtain ⟨sources, sinks, hsources, hsinks, rfl⟩ := planned_eq_ok h
  obtain ⟨q, hq, e, he, hcases⟩ := of_mem_assemble hp
  obtain ⟨a, b, hpair, hr, hjoins⟩ := mem_plan.1 hq
  rw [hjoins, mem_portPairs] at he
  obtain ⟨rfl, hadd, hgiven⟩ := hsources.of_mem_getD he.1
  obtain ⟨rfl, hdrop, hgiven'⟩ := hsinks.of_mem_getD he.2
  obtain ⟨-, -, hne, -⟩ := mem_devicePairs.1 hpair
  exact ⟨e, q.route, hr, hne, hadd, hdrop, hgiven, hgiven', hcases⟩

/-- A path of a calculation is within its scope. -/
theorem inScope_of_mem_assemble {plan : List PlannedRoute} {osnr : List OsnrMap} {p : WdmPath}
    (h : planned t weigh k ingress egress = .ok plan) (hp : p ∈ assemble plan osnr) :
    p.inScope ingress egress = true := by
  obtain ⟨e, r, -, -, -, -, hgiven, hgiven', hcases⟩ := of_mem_assemble_planned h hp
  rw [WdmPath.inScope, Bool.or_eq_true]
  rcases hcases with ⟨hends, -⟩ | ⟨hends, -⟩
  · left
    rw [WdmPath.runs, hends, hgiven, hgiven']
    rfl
  · right
    rw [WdmPath.runs, hends, Bool.and_eq_true]
    exact ⟨hgiven', hgiven⟩

/-- A path of a calculation joins add/drop ports of two devices. -/
theorem joinsAddDropPorts_of_mem_assemble {plan : List PlannedRoute} {osnr : List OsnrMap}
    {p : WdmPath} (h : planned t weigh k ingress egress = .ok plan) (hp : p ∈ assemble plan osnr) :
    p.JoinsAddDropPorts t := by
  obtain ⟨e, r, hr, hne, hadd, hdrop, -, -, hcases⟩ := of_mem_assemble_planned h hp
  have hroute := (t.rankedRoutes_sound weigh hne k).2.2 r hr
  rcases hcases with ⟨rfl, rfl⟩ | ⟨hends, hreverse⟩
  · exact WdmPath.joinsAddDropPorts_of_joins hadd hdrop hne hroute.joins hroute.loopFree
  · apply WdmPath.joinsAddDropPorts_of_joins
    · rw [hends]
      exact hdrop
    · rw [hends]
      exact hadd
    · rw [hends]
      exact hne.symm
    · rw [hends, hreverse]
      exact hroute.joins.mirrored
    · rw [hends, hreverse]
      exact hroute.joins.loopFree_mirrored hroute.loopFree

theorem isOutput_assemble {plan : List PlannedRoute} {osnr : List OsnrMap}
    (h : planned t weigh k ingress egress = .ok plan)
    (hosnr : osnr.length = (bothWays plan).length) :
    IsOutput t k ingress egress (assemble plan osnr) := by
  have htrips := map_trip_assemble hosnr
  have hseparate : SeparateTrips k (trips plan) := by
    obtain ⟨sources, sinks, hsources, hsinks, rfl⟩ := planned_eq_ok h
    exact separateTrips hsources hsinks
  constructor
  case distinct =>
    rw [htrips]
    exact hseparate.nodup_roundTrips
  case mirrored =>
    intro p hp
    have hmem : p.trip ∈ roundTrips (trips plan) := htrips ▸ List.mem_map.2 ⟨p, hp, rfl⟩
    have hback : p.trip.reversed ∈ roundTrips (trips plan) := by
      rw [mem_roundTrips, Trip.reversed_reversed]
      exact (mem_roundTrips.1 hmem).symm
    rw [← htrips] at hback
    exact List.mem_map.1 hback
  case atMost =>
    intro e
    have hlength : (assemble plan osnr).filter (fun p => p.ends == e) =
        (assemble plan osnr).filter ((fun x : Trip => x.ends == e) ∘ WdmPath.trip) := rfl
    rw [hlength, ← List.length_map WdmPath.trip, ← List.filter_map, htrips]
    exact hseparate.atMost_roundTrips e
  case inside => exact fun p hp => inScope_of_mem_assemble h hp
  case ports => exact fun p hp => joinsAddDropPorts_of_mem_assemble h hp

end Planner

end Lightpath

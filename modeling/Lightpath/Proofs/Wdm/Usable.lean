import Lightpath.Proofs.Wdm.Lines
import Lightpath.Wdm.Planner

/-!
# Usable links — what a calculation searches

A calculation searches the links between different devices that have a length for routes, and starts
and ends at the add/drop ports (`Topology.usableLinks`, `Planner.portMap`). A change of the topology
that concerns no line leaves both as they are. A link that is reported as changed has no line port
left, so it was not usable before: one of its ends still stands on the same device.
-/

namespace Lightpath

namespace Topology

/-- The links between different devices that routes may use, with their lengths, in the order of the
links. -/
def usableLinks (t : Topology) (d : LinkDetails) : List (Link × Float) :=
  (Graph.ofLinks (fiberKm t d) t.links).edges.filter fun e => e.1.src.device != e.1.dst.device

/-- A link with its length, if it is usable. -/
def usable? (t : Topology) (d : LinkDetails) (l : Link) : Option (Link × Float) :=
  if l.src.device = l.dst.device then none else (fiberKm t d l).map fun km => (l, km)

variable {t t' : Topology} {d : LinkDetails}

theorem usableLinks_eq_values (t : Topology) (d : LinkDetails) :
    t.usableLinks d = (t.linkMap.filterMap fun _ l => t.usable? d l).values := by
  show List.filter _ ((t.linkMap.entries.map Prod.snd).filterMap _) =
    (t.linkMap.entries.filterMap _).map Prod.snd
  rw [List.filterMap_map, List.filter_filterMap, List.map_filterMap]
  congr 1
  funext e
  unfold usable?
  by_cases hloop : e.2.src.device = e.2.dst.device
  · cases hkm : fiberKm t d e.2 <;> simp [hkm, hloop]
  · cases hkm : fiberKm t d e.2 <;> simp [hkm, hloop]

/-- Topologies have the same usable links if they have the same between every two ends. -/
theorem usableLinks_congr
    (h : ∀ e, (t'.link? e).bind (t'.usable? d) = (t.link? e).bind (t.usable? d)) :
    t'.usableLinks d = t.usableLinks d := by
  rw [usableLinks_eq_values, usableLinks_eq_values]
  refine congrArg SortedMap.values (SortedMap.ext_find? ?_)
  intro e
  rw [SortedMap.find?_filterMap, SortedMap.find?_filterMap]
  exact h e

/-! ## Single links -/

/-- A link with an end at no line port is not usable. -/
theorem usable?_eq_none {l : Link}
    (h : t.isLinePort l.src = false ∨ t.isLinePort l.dst = false) : t.usable? d l = none := by
  unfold usable? fiberKm
  rcases h with h | h <;> simp [h]

/-- A link is as usable as before if the devices at its ends are as before. -/
theorem usable?_congr {l : Link} (hsrc : t'.device? l.src.device = t.device? l.src.device)
    (hdst : t'.device? l.dst.device = t.device? l.dst.device) : t'.usable? d l = t.usable? d l := by
  unfold usable? fiberKm
  rw [isLinePort_congr hsrc, isLinePort_congr hdst]

/-- A link whose change concerns no line was not usable before, if the device at one of its ends is as
before. -/
theorem usable?_eq_none_of_reported {l : Link} (hreported : t'.isLineLink l = false)
    (hkept : t'.device? l.src.device = t.device? l.src.device ∨
      t'.device? l.dst.device = t.device? l.dst.device) : t.usable? d l = none := by
  obtain ⟨hsrc, hdst⟩ := Bool.or_eq_false_iff.1 hreported
  refine usable?_eq_none (hkept.imp ?_ ?_)
  · intro hdevice
    exact (isLinePort_congr hdevice).symm.trans hsrc
  · intro hdevice
    exact (isLinePort_congr hdevice).symm.trans hdst

/-! ## Changes that concern no line -/

theorem usableLinks_setLinkState {ends : Ends} {state : LinkState} {event : TopologyEvent}
    (hset : t.setLinkState ends state = .ok (t', event)) (hquiet : event.concernsLines t' = false)
    (d : LinkDetails) : t'.usableLinks d = t.usableLinks d := by
  obtain ⟨hdevices, l, hl, rfl, hlink⟩ := setLinkState_eq_ok hset
  refine usableLinks_congr fun e => ?_
  rw [hlink]
  split
  next heq =>
    -- neither the link as it was nor the link as it is now has a line port
    have hbefore : t.usable? d l = none :=
      usable?_eq_none_of_reported hquiet (.inl (device?_congr hdevices _))
    have hafter : t'.usable? d { l with state := state } = none :=
      usable?_eq_none (.inl (Bool.or_eq_false_iff.1 hquiet).1)
    rw [heq, hl]
    exact hafter.trans hbefore.symm
  next =>
    refine congrArg _ (funext fun l' => ?_)
    exact usable?_congr (device?_congr hdevices _) (device?_congr hdevices _)

theorem usableLinks_removeLink {ends : Ends} {event : TopologyEvent}
    (hremove : t.removeLink ends = .ok (t', event)) (hquiet : event.concernsLines t' = false)
    (d : LinkDetails) : t'.usableLinks d = t.usableLinks d := by
  obtain ⟨hdevices, l, hl, rfl, hlink⟩ := removeLink_eq_ok hremove
  refine usableLinks_congr fun e => ?_
  rw [hlink]
  split
  next heq =>
    have hbefore : t.usable? d l = none :=
      usable?_eq_none_of_reported hquiet (.inl (device?_congr hdevices _))
    rw [heq, hl]
    exact hbefore.symm
  next =>
    refine congrArg _ (funext fun l' => ?_)
    exact usable?_congr (device?_congr hdevices _) (device?_congr hdevices _)

theorem usableLinks_removeDevice {id : DeviceId} {events : List TopologyEvent}
    (hremove : t.removeDevice id = .ok (t', events))
    (hquiet : events.any (TopologyEvent.concernsLines t') = false) (d : LinkDetails) :
    t'.usableLinks d = t.usableLinks d := by
  obtain ⟨hdevice, hlink, hreported⟩ := removeDevice_eq_ok hremove
  obtain ⟨-, -, hgone⟩ := removed_of_removeDevice hremove
  refine usableLinks_congr ?_
  intro e
  by_cases hattached : isAttached id e = true
  · rw [hgone e hattached]
    cases hl : t.link? e with
    | none => rfl
    | some l =>
      have hends : l.ends = e := t.links_keyed.of_find? hl
      have hevent : t'.isLineLink l = false :=
        Bool.eq_false_iff.2 (List.any_eq_false.1 hquiet _ (hreported e l hattached hl))
      show none = t.usable? d l
      by_cases hloop : l.src.device = l.dst.device
      · exact (if_pos hloop).symm
      · -- one of two different devices is not the one that is removed
        refine (usable?_eq_none_of_reported hevent ?_).symm
        by_cases hsrc : l.src.device = id
        · exact .inr (hdevice _ (hsrc ▸ Ne.symm hloop))
        · exact .inl (hdevice _ hsrc)
  · have hkept : isAttached id e = false := Bool.eq_false_iff.2 hattached
    rw [hlink e hkept]
    cases hl : t.link? e with
    | none => rfl
    | some l =>
      obtain rfl : l.ends = e := t.links_keyed.of_find? hl
      rw [isAttached, Bool.or_eq_false_iff, beq_eq_false_iff_ne, beq_eq_false_iff_ne] at hkept
      exact usable?_congr (hdevice _ hkept.1) (hdevice _ hkept.2)

end Topology

/-! ## Add/drop ports -/

namespace Planner

variable {t t' : Topology}

theorem portMap_congr (h : t'.deviceMap = t.deviceMap) : portMap t' = portMap t := by
  unfold portMap
  rw [h]

/-- Only devices that carry routes have add/drop ports. -/
theorem addDropPorts_eq_nil {x : Device} (h : x.kind.carriesRoutes = false) : x.addDropPorts = [] := by
  have hroadm : x.kind.isRoadm = false := by
    cases hkind : x.kind <;> simp_all [DeviceKind.carriesRoutes, DeviceKind.isRoadm]
  rw [Device.addDropPorts, hroadm]
  rfl

theorem portMap_removeDevice {id : DeviceId} {events : List TopologyEvent}
    (hremove : t.removeDevice id = .ok (t', events))
    (hquiet : events.any (TopologyEvent.concernsLines t') = false) : portMap t' = portMap t := by
  obtain ⟨hdevice, -, -⟩ := Topology.removeDevice_eq_ok hremove
  obtain ⟨⟨x, hx, hevent⟩, hgone, -⟩ := Topology.removed_of_removeDevice hremove
  have hports : x.addDropPorts = [] :=
    addDropPorts_eq_nil (Bool.eq_false_iff.2 (List.any_eq_false.1 hquiet _ hevent))
  refine SortedMap.ext_find? ?_
  intro a
  rw [portMap, portMap, SortedMap.find?_filter, SortedMap.find?_filter, SortedMap.find?_map,
    SortedMap.find?_map]
  show ((t'.device? a).map Device.addDropPorts).filter _ =
    ((t.device? a).map Device.addDropPorts).filter _
  by_cases ha : a = id
  · rw [ha, hgone, hx, Option.map_none, Option.map_some, hports]
    rfl
  · rw [hdevice a ha]

end Planner

end Lightpath

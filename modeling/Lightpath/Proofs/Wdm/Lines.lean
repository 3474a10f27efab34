import Lightpath.Proofs.Network.Changes
import Lightpath.Routing.Graph
import Lightpath.Wdm.Path
import Lightpath.Wdm.Staleness

/-!
# Lines — what computed paths run over

A line is an active link between line ports of two devices (`Topology.IsLine`); the routes of computed
paths run over nothing else. A change of the topology that takes a line away concerns lines, so a
change that concerns none keeps every line (`IsLine.quietStep`).
-/

namespace Lightpath

/-! ## Lines -/

/-- Whether there is an active link between two ends. -/
def Topology.hasActiveLink (t : Topology) (e : Ends) : Bool := (t.link? e).any Link.isActive

/-- There is an active link between line ports of two devices. -/
structure Topology.IsLine (t : Topology) (e : Ends) : Prop where
  active : t.hasActiveLink e = true
  src : t.isLinePort e.src = true
  dst : t.isLinePort e.dst = true
  apart : e.src.device ≠ e.dst.device

namespace Topology

variable {t t' : Topology} {e : Ends}

theorem device?_isSome_of_isLinePort {cp : ConnectPoint} (h : t.isLinePort cp = true) :
    (t.device? cp.device).isSome := by
  unfold isLinePort port? at h
  cases hdevice : t.device? cp.device with
  | none =>
    rw [hdevice] at h
    exact nomatch h
  | some d => rfl

/-- A port is a line port in any topology that has its device as it is. -/
theorem isLinePort_congr {cp : ConnectPoint} (h : t'.device? cp.device = t.device? cp.device) :
    t'.isLinePort cp = t.isLinePort cp := by
  unfold isLinePort port?
  rw [h]

/-- A line stays if its link and the devices at its ends do. -/
theorem IsLine.of_eq (h : t.IsLine e) (hlink : t'.link? e = t.link? e)
    (hsrc : t'.device? e.src.device = t.device? e.src.device)
    (hdst : t'.device? e.dst.device = t.device? e.dst.device) : t'.IsLine e where
  active := by
    rw [hasActiveLink, hlink]
    exact h.active
  src := (isLinePort_congr hsrc).trans h.src
  dst := (isLinePort_congr hdst).trans h.dst
  apart := h.apart

/-- A change of a line link concerns lines if one of its ends is still a line port. -/
theorem isLineLink_of_ends {l : Link} (hends : l.ends = e)
    (h : t.isLinePort e.src = true ∨ t.isLinePort e.dst = true) : t.isLineLink l = true := by
  subst hends
  rw [isLineLink, Bool.or_eq_true]
  exact h

/-- Setting the state of another link keeps a line. -/
theorem IsLine.setLinkState (h : t.IsLine e) {ends : Ends} {state : LinkState} {event : TopologyEvent}
    (hset : t.setLinkState ends state = .ok (t', event))
    (hfresh : event.concernsLines t' = false) : t'.IsLine e := by
  obtain ⟨hdevices, l, hl, rfl, hlink⟩ := setLinkState_eq_ok hset
  have hends : l.ends = ends := t.links_keyed.of_find? hl
  by_cases heq : e = ends
  · have hport : t'.isLinePort e.src = true :=
      (isLinePort_congr (device?_congr hdevices _)).trans h.src
    have hline : t'.isLineLink { l with state := state } = true :=
      isLineLink_of_ends (hends.trans heq.symm) (.inl hport)
    exact absurd (hfresh.symm.trans hline) Bool.false_ne_true
  · exact h.of_eq ((hlink e).trans (if_neg heq)) (device?_congr hdevices _)
      (device?_congr hdevices _)

/-- Removing another link keeps a line. -/
theorem IsLine.removeLink (h : t.IsLine e) {ends : Ends} {event : TopologyEvent}
    (hremove : t.removeLink ends = .ok (t', event))
    (hfresh : event.concernsLines t' = false) : t'.IsLine e := by
  obtain ⟨hdevices, l, hl, rfl, hlink⟩ := removeLink_eq_ok hremove
  have hends : l.ends = ends := t.links_keyed.of_find? hl
  by_cases heq : e = ends
  · have hport : t'.isLinePort e.src = true :=
      (isLinePort_congr (device?_congr hdevices _)).trans h.src
    have hline : t'.isLineLink l = true := isLineLink_of_ends (hends.trans heq.symm) (.inl hport)
    exact absurd (hfresh.symm.trans hline) Bool.false_ne_true
  · exact h.of_eq ((hlink e).trans (if_neg heq)) (device?_congr hdevices _)
      (device?_congr hdevices _)

theorem IsLine.exists_link (h : t.IsLine e) : ∃ l, t.link? e = some l := by
  have hactive := h.active
  rw [hasActiveLink] at hactive
  cases hlink : t.link? e with
  | none =>
    rw [hlink] at hactive
    exact nomatch hactive
  | some l => exact ⟨l, rfl⟩

/-- Removing a device that is not at its ends keeps a line. -/
theorem IsLine.removeDevice (h : t.IsLine e) {id : DeviceId} {events : List TopologyEvent}
    (hremove : t.removeDevice id = .ok (t', events))
    (hfresh : events.any (TopologyEvent.concernsLines t') = false) : t'.IsLine e := by
  obtain ⟨hdevice, hlink, hreported⟩ := removeDevice_eq_ok hremove
  by_cases hattached : isAttached id e = true
  · -- the link is reported as removed, and the port at its other end is still a line port
    obtain ⟨l, hl⟩ := h.exists_link
    have hends : l.ends = e := t.links_keyed.of_find? hl
    have hport : t'.isLinePort e.src = true ∨ t'.isLinePort e.dst = true := by
      by_cases hsrc : e.src.device = id
      · right
        rw [isLinePort_congr (hdevice _ (hsrc ▸ h.apart.symm))]
        exact h.dst
      · left
        rw [isLinePort_congr (hdevice _ hsrc)]
        exact h.src
    have hconcerns := List.any_eq_false.1 hfresh _ (hreported e l hattached hl)
    exact absurd (isLineLink_of_ends hends hport) hconcerns
  · have hkept : isAttached id e = false := Bool.eq_false_iff.2 hattached
    have hends := hkept
    rw [isAttached, Bool.or_eq_false_iff, beq_eq_false_iff_ne, beq_eq_false_iff_ne] at hends
    exact h.of_eq (hlink e hkept) (hdevice _ hends.1) (hdevice _ hends.2)

/-- The topology stays as it is, or changes by one call whose events concern no line. -/
inductive QuietStep (t t' : Topology) : Prop
  | unchanged (h : t' = t)
  | linkState {ends : Ends} {state : LinkState} {event : TopologyEvent}
      (h : t.setLinkState ends state = .ok (t', event)) (hquiet : event.concernsLines t' = false)
  | linkGone {ends : Ends} {event : TopologyEvent} (h : t.removeLink ends = .ok (t', event))
      (hquiet : event.concernsLines t' = false)
  | deviceGone {id : DeviceId} {events : List TopologyEvent}
      (h : t.removeDevice id = .ok (t', events))
      (hquiet : events.any (TopologyEvent.concernsLines t') = false)

theorem IsLine.quietStep (h : t.IsLine e) (hstep : t.QuietStep t') : t'.IsLine e := by
  cases hstep with
  | unchanged hsame => exact hsame ▸ h
  | linkState hset hquiet => exact h.setLinkState hset hquiet
  | linkGone hremove hquiet => exact h.removeLink hremove hquiet
  | deviceGone hremove hquiet => exact h.removeDevice hremove hquiet

end Topology

/-! ## Valid paths -/

/-- Every device that the path visits exists, and all its links are active, or all their mirrors if
the path is a mirrored one. -/
structure WdmPath.Valid (t : Topology) (p : WdmPath) : Prop where
  devices : ∀ l ∈ p.route.links,
    (t.device? l.src.device).isSome = true ∧ (t.device? l.dst.device).isSome = true
  active : (∀ l ∈ p.route.links, t.hasActiveLink l.ends = true) ∨
    ∀ l ∈ p.route.links, t.hasActiveLink l.ends.reversed = true

instance (t : Topology) (p : WdmPath) : Decidable (p.Valid t) :=
  decidable_of_iff
    ((∀ l ∈ p.route.links,
        (t.device? l.src.device).isSome = true ∧ (t.device? l.dst.device).isSome = true) ∧
      ((∀ l ∈ p.route.links, t.hasActiveLink l.ends = true) ∨
        ∀ l ∈ p.route.links, t.hasActiveLink l.ends.reversed = true))
    ⟨fun h => ⟨h.1, h.2⟩, fun h => ⟨h.devices, h.active⟩⟩

/-- All links of the path are lines, or all their mirrors. -/
def WdmPath.OverLines (t : Topology) (p : WdmPath) : Prop :=
  (∀ l ∈ p.route.links, t.IsLine l.ends) ∨ ∀ l ∈ p.route.links, t.IsLine l.ends.reversed

theorem WdmPath.OverLines.mono {t t' : Topology} {p : WdmPath} (h : p.OverLines t)
    (hlines : ∀ e, t.IsLine e → t'.IsLine e) : p.OverLines t' :=
  h.imp (fun h l hl => hlines _ (h l hl)) fun h l hl => hlines _ (h l hl)

theorem WdmPath.OverLines.valid {t : Topology} {p : WdmPath} (h : p.OverLines t) : p.Valid t := by
  rcases h with h | h
  · refine ⟨?_, .inl fun l hl => (h l hl).active⟩
    intro l hl
    exact ⟨Topology.device?_isSome_of_isLinePort (h l hl).src,
      Topology.device?_isSome_of_isLinePort (h l hl).dst⟩
  · refine ⟨?_, .inr fun l hl => (h l hl).active⟩
    intro l hl
    exact ⟨Topology.device?_isSome_of_isLinePort (h l hl).dst,
      Topology.device?_isSome_of_isLinePort (h l hl).src⟩

/-- The links that a search for fiber may use are lines. -/
theorem isLine_of_fiberKm {t : Topology} {d : LinkDetails} {l : Link} (hl : l ∈ t.links)
    (hviable : (fiberKm t d l).isSome) (hne : l.src.device ≠ l.dst.device) : t.IsLine l.ends := by
  have hfound : t.link? l.ends = some l := t.links_keyed.find?_of_mem_values hl
  unfold fiberKm at hviable
  split at hviable
  next hif =>
    rw [Bool.and_eq_true, Bool.and_eq_true] at hif
    refine ⟨?_, hif.1.2, hif.2, hne⟩
    rw [Topology.hasActiveLink, hfound]
    exact hif.1.1
  next => exact nomatch hviable

end Lightpath

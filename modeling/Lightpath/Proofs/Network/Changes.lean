import Lightpath.Network.Topology

/-!
# Changes of the topology — what each of them leaves as it is

One lemma for each change that succeeds tells what it reports and every look-up afterwards:
`setLinkState_eq_ok`, `removeLink_eq_ok`, and `removeDevice_eq_ok` with `removed_of_removeDevice`.
Anything else is as before.
-/

namespace Lightpath

namespace Topology

variable {t t' : Topology}

theorem device?_congr (h : t'.deviceMap = t.deviceMap) (id : DeviceId) :
    t'.device? id = t.device? id := by
  rw [device?, h]
  rfl

/-- Setting the state of a link changes and reports that link only. -/
theorem setLinkState_eq_ok {ends : Ends} {state : LinkState} {event : TopologyEvent}
    (h : t.setLinkState ends state = .ok (t', event)) :
    t'.deviceMap = t.deviceMap ∧ ∃ l, t.link? ends = some l ∧
      event = .linkUpdated { l with state := state } ∧
      ∀ e, t'.link? e = if e = ends then some { l with state := state } else t.link? e := by
  unfold Topology.setLinkState at h
  split at h
  next => cases h
  next l hl =>
    obtain ⟨rfl, rfl⟩ := Prod.mk.inj (Except.ok.inj h)
    refine ⟨rfl, l, hl, rfl, fun e => ?_⟩
    rw [← show l.ends = ends from t.links_keyed.of_find? hl]
    exact SortedMap.find?_insert t.linkMap l.ends e { l with state := state }

theorem deviceMap_setLinkState {ends : Ends} {state : LinkState} {event : TopologyEvent}
    (h : t.setLinkState ends state = .ok (t', event)) : t'.deviceMap = t.deviceMap :=
  (setLinkState_eq_ok h).1

/-- Removing a link takes that link away, reports it and leaves the others. -/
theorem removeLink_eq_ok {ends : Ends} {event : TopologyEvent}
    (h : t.removeLink ends = .ok (t', event)) :
    t'.deviceMap = t.deviceMap ∧ ∃ l, t.link? ends = some l ∧ event = .linkRemoved l ∧
      ∀ e, t'.link? e = if e = ends then none else t.link? e := by
  unfold Topology.removeLink at h
  split at h
  next => cases h
  next l hl =>
    obtain ⟨rfl, rfl⟩ := Prod.mk.inj (Except.ok.inj h)
    exact ⟨rfl, l, hl, rfl, fun e => SortedMap.find?_erase t.linkMap ends e⟩

theorem deviceMap_removeLink {ends : Ends} {event : TopologyEvent}
    (h : t.removeLink ends = .ok (t', event)) : t'.deviceMap = t.deviceMap :=
  (removeLink_eq_ok h).1

/-- Removing a device keeps the others and the links between them, and reports every link attached to
it. -/
theorem removeDevice_eq_ok {id : DeviceId} {events : List TopologyEvent}
    (h : t.removeDevice id = .ok (t', events)) :
    (∀ a, a ≠ id → t'.device? a = t.device? a) ∧
      (∀ e, isAttached id e = false → t'.link? e = t.link? e) ∧
      ∀ e l, isAttached id e = true → t.link? e = some l → .linkRemoved l ∈ events := by
  unfold Topology.removeDevice at h
  simp only at h
  split at h
  next => cases h
  next d hd =>
    obtain ⟨hnew, hevents⟩ := Prod.mk.inj (Except.ok.inj h)
    refine ⟨?_, ?_, ?_⟩
    · intro a ha
      rw [← hnew, device?, SortedMap.find?_erase, if_neg ha]
      rfl
    · intro e he
      rw [← hnew]
      show (t.linkMap.filter fun ends _ => !isAttached id ends).find? e = t.linkMap.find? e
      rw [SortedMap.find?_filter, he]
      cases t.linkMap.find? e <;> rfl
    · intro e l he hl
      rw [← hevents]
      refine List.mem_append_left _ (List.mem_map.2 ⟨l, ?_, rfl⟩)
      rw [SortedMap.mem_values_iff]
      refine ⟨e, ?_⟩
      rw [SortedMap.find?_filter, show t.linkMap.find? e = some l from hl]
      exact (Option.filter_eq_some_iff).2 ⟨rfl, he⟩

/-- Removing a device takes it and the links attached to it away, and reports it. -/
theorem removed_of_removeDevice {id : DeviceId} {events : List TopologyEvent}
    (h : t.removeDevice id = .ok (t', events)) :
    (∃ x, t.device? id = some x ∧ .deviceRemoved x ∈ events) ∧ t'.device? id = none ∧
      ∀ e, isAttached id e = true → t'.link? e = none := by
  unfold Topology.removeDevice at h
  simp only at h
  split at h
  next => cases h
  next x hx =>
    obtain ⟨rfl, rfl⟩ := Prod.mk.inj (Except.ok.inj h)
    refine ⟨⟨x, hx, List.mem_append_right _ (List.mem_singleton_self _)⟩, ?_, ?_⟩
    · exact (SortedMap.find?_erase _ _ _).trans (if_pos rfl)
    · intro e he
      show (t.linkMap.filter fun ends _ => !isAttached id ends).find? e = none
      rw [SortedMap.find?_filter, he]
      cases t.linkMap.find? e <;> rfl

end Topology

end Lightpath

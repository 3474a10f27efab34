import Lightpath.Proofs.Network.Changes

/-!
# Export — a topology and its document

A topology that was read from a document is `Topology.Linked`: its devices have ids and its links end at
ports. Every change keeps this (`Topology.Linked.after`), also the removal of a device, which takes the
links attached to it away. The document of a linked topology is accepted again and gives the same
topology (`Topology.Linked.ofDocument_toDocument`).
-/

namespace Lightpath

/-! ## Devices and their records -/

/-- A device with an id is read back from its record. -/
theorem Device.ofEntry_toEntry {d : Device} (hid : d.id ≠ "") : Device.ofEntry d.toEntry = .ok d := by
  obtain ⟨id, kind, manufacturer, ports, capability, hports⟩ := d
  have hid' : id.isEmpty = false := by simpa using hid
  unfold Device.ofEntry Device.toEntry
  simp only [hid', Bool.false_eq_true, if_false]
  split
  next number hrepeat =>
    rw [firstRepeat?_eq_none_iff.2 hports] at hrepeat
    cases hrepeat
  next =>
    cases capability with
    | none => rfl
    | some c => simp [SortedSet.ofList_toList]

/-- A device read from a record has an id. -/
theorem Device.id_ne_of_ofEntry {e : DeviceEntry} {d : Device} (h : Device.ofEntry e = .ok d) :
    d.id ≠ "" := by
  unfold Device.ofEntry at h
  split at h
  next => cases h
  next hid =>
    split at h
    next => cases h
    next =>
      cases h
      simpa using hid

section Results

variable {ε α β σ : Type}

theorem exists_eq_ok_of_map_fst {x : Except ε (α × β)} {a : α} (h : x.map Prod.fst = .ok a) :
    ∃ b, x = .ok (a, b) := by
  cases x with
  | error e => cases h
  | ok y =>
    cases h
    exact ⟨y.2, rfl⟩

/-- What every step keeps holds after steps that all succeed. -/
theorem foldlM_preserves {f : σ → α → Except ε σ} {P : σ → Prop}
    (hstep : ∀ s a s', P s → f s a = .ok s' → P s') {l : List α} {s s' : σ} (hs : P s)
    (h : l.foldlM f s = .ok s') : P s' := by
  induction l generalizing s with
  | nil =>
    cases h
    exact hs
  | cons a rest ih =>
    rw [List.foldlM_cons] at h
    cases ha : f s a with
    | error e =>
      rw [ha] at h
      cases h
    | ok s₁ =>
      rw [ha] at h
      exact ih (hstep s a s₁ hs ha) h

end Results

namespace Topology

/-! ## Changes and runs of changes -/

/-- A change of the topology. -/
inductive Change where
  | setLinkState (ends : Ends) (state : LinkState)
  | removeLink (ends : Ends)
  | removeDevice (id : DeviceId)

/-- The topology that a change gives. -/
def Change.apply (t : Topology) : Change → Except Failure Topology
  | .setLinkState ends state => (t.setLinkState ends state).map Prod.fst
  | .removeLink ends => (t.removeLink ends).map Prod.fst
  | .removeDevice id => (t.removeDevice id).map Prod.fst

/-- The topology after a change; one that fails leaves it as it is. -/
def Change.run (t : Topology) (c : Change) : Topology :=
  match c.apply t with
  | .ok t' => t'
  | .error _ => t

/-- The topology after a list of changes. -/
def after (t : Topology) (changes : List Change) : Topology := changes.foldl Change.run t

/-- Every device has an id, and both ends of every link are ports of devices. -/
structure Linked (t : Topology) : Prop where
  named : ∀ d ∈ t.devices, d.id ≠ ""
  src : ∀ l ∈ t.links, (t.port? l.src).isSome
  dst : ∀ l ∈ t.links, (t.port? l.dst).isSome

variable {t t' : Topology}

theorem mem_devices_iff {d : Device} : d ∈ t.devices ↔ ∃ id, t.device? id = some d :=
  SortedMap.mem_values_iff

theorem mem_links_iff {l : Link} : l ∈ t.links ↔ ∃ e, t.link? e = some l :=
  SortedMap.mem_values_iff

theorem port?_congr {cp : ConnectPoint} (h : t'.device? cp.device = t.device? cp.device) :
    t'.port? cp = t.port? cp := by
  rw [port?, port?, h]

/-- A topology stays linked if its devices stay and its links end where links ended before. -/
theorem Linked.of_deviceMap_eq (h : t.Linked) (hdevices : t'.deviceMap = t.deviceMap)
    (hlinks : ∀ l ∈ t'.links, ∃ m ∈ t.links, l.ends = m.ends) : t'.Linked := by
  have hport (cp : ConnectPoint) : t'.port? cp = t.port? cp :=
    port?_congr (device?_congr hdevices cp.device)
  constructor
  case named =>
    intro d hd
    rw [devices, hdevices] at hd
    exact h.named d hd
  case src =>
    intro l hl
    obtain ⟨m, hm, hends⟩ := hlinks l hl
    rw [hport, show l.src = m.src from congrArg Ends.src hends]
    exact h.src m hm
  case dst =>
    intro l hl
    obtain ⟨m, hm, hends⟩ := hlinks l hl
    rw [hport, show l.dst = m.dst from congrArg Ends.dst hends]
    exact h.dst m hm

/-- Removing a device keeps a topology linked: what is left of the links ends on other devices. -/
theorem Linked.removeDevice (h : t.Linked) {id : DeviceId} {events : List TopologyEvent}
    (hremove : t.removeDevice id = .ok (t', events)) : t'.Linked := by
  obtain ⟨hdevice, hlink, -⟩ := removeDevice_eq_ok hremove
  obtain ⟨-, hgone, hlost⟩ := removed_of_removeDevice hremove
  have hkept {l : Link} (hl : l ∈ t'.links) : l ∈ t.links ∧ isAttached id l.ends = false := by
    obtain ⟨e, he⟩ := mem_links_iff.1 hl
    obtain rfl : l.ends = e := t'.links_keyed.of_find? he
    cases hattached : isAttached id l.ends with
    | true =>
      rw [hlost _ hattached] at he
      cases he
    | false => exact ⟨mem_links_iff.2 ⟨l.ends, (hlink _ hattached).symm.trans he⟩, rfl⟩
  have happart {l : Link} (hl : l ∈ t'.links) : l.src.device ≠ id ∧ l.dst.device ≠ id := by
    have hattached := (hkept hl).2
    simpa [isAttached, Link.ends] using hattached
  constructor
  case named =>
    intro d hd
    obtain ⟨a, ha⟩ := mem_devices_iff.1 hd
    have hne : a ≠ id := by
      rintro rfl
      rw [hgone] at ha
      cases ha
    exact h.named d (mem_devices_iff.2 ⟨a, (hdevice a hne).symm.trans ha⟩)
  case src =>
    intro l hl
    rw [port?_congr (hdevice _ (happart hl).1)]
    exact h.src l (hkept hl).1
  case dst =>
    intro l hl
    rw [port?_congr (hdevice _ (happart hl).2)]
    exact h.dst l (hkept hl).1

/-- Every change that succeeds keeps a topology linked. -/
theorem Linked.apply (h : t.Linked) {c : Change} (happly : c.apply t = .ok t') : t'.Linked := by
  cases c with
  | setLinkState ends state =>
    obtain ⟨event, hset⟩ := exists_eq_ok_of_map_fst happly
    obtain ⟨hdevices, l, hl, -, hlink⟩ := setLinkState_eq_ok hset
    refine h.of_deviceMap_eq hdevices fun m hm => ?_
    obtain ⟨e, he⟩ := mem_links_iff.1 hm
    rw [hlink] at he
    split at he
    next =>
      cases he
      exact ⟨l, mem_links_iff.2 ⟨ends, hl⟩, rfl⟩
    next => exact ⟨m, mem_links_iff.2 ⟨e, he⟩, rfl⟩
  | removeLink ends =>
    obtain ⟨event, hremove⟩ := exists_eq_ok_of_map_fst happly
    obtain ⟨hdevices, -, -, -, hlink⟩ := removeLink_eq_ok hremove
    refine h.of_deviceMap_eq hdevices fun m hm => ?_
    obtain ⟨e, he⟩ := mem_links_iff.1 hm
    rw [hlink] at he
    split at he
    next => cases he
    next => exact ⟨m, mem_links_iff.2 ⟨e, he⟩, rfl⟩
  | removeDevice id =>
    obtain ⟨events, hremove⟩ := exists_eq_ok_of_map_fst happly
    exact h.removeDevice hremove

theorem Linked.run (h : t.Linked) (c : Change) : (c.run t).Linked := by
  unfold Change.run
  split
  next t' happly => exact h.apply happly
  next => exact h

theorem Linked.after (h : t.Linked) (changes : List Change) : (t.after changes).Linked := by
  induction changes generalizing t with
  | nil => exact h
  | cons c rest ih => exact ih (h.run c)

/-! ## Reading a document -/

theorem linked_empty : (∅ : Topology).Linked where
  named := fun _ hd => nomatch hd
  src := fun _ hl => nomatch hl
  dst := fun _ hl => nomatch hl

/-- A new device takes no port away. -/
theorem Linked.addDeviceEntry (h : t.Linked) {e : DeviceEntry}
    (hadd : t.addDeviceEntry e = .ok t') : t'.Linked := by
  unfold Topology.addDeviceEntry at hadd
  split at hadd
  next => cases hadd
  next d hd =>
    split at hadd
    next => cases hadd
    next hnew =>
      cases hadd
      have hdevice (id : DeviceId) :
          (t.addDevice d).device? id = if id = d.id then some d else t.device? id :=
        SortedMap.find?_insert t.deviceMap d.id id d
      have hport {cp : ConnectPoint} (hcp : (t.port? cp).isSome) : ((t.addDevice d).port? cp).isSome := by
        have hne : cp.device ≠ d.id := by
          intro heq
          rw [port?, heq, Option.not_isSome_iff_eq_none.1 hnew] at hcp
          cases hcp
        rw [port?_congr ((hdevice cp.device).trans (if_neg hne))]
        exact hcp
      constructor
      case named =>
        intro d' hd'
        obtain ⟨id, hid⟩ := mem_devices_iff.1 hd'
        rw [hdevice] at hid
        split at hid
        next =>
          cases hid
          exact Device.id_ne_of_ofEntry hd
        next => exact h.named d' (mem_devices_iff.2 ⟨id, hid⟩)
      case src => exact fun l hl => hport (h.src l hl)
      case dst => exact fun l hl => hport (h.dst l hl)

/-- A link is only added between ports. -/
theorem addKnownLink_eq_ok_iff {l : Link} : t.addKnownLink l = .ok t' ↔
    (t.port? l.src).isSome ∧ (t.port? l.dst).isSome ∧ t.addLink l = t' := by
  unfold addKnownLink
  cases hsrc : t.port? l.src <;> cases hdst : t.port? l.dst <;> simp [hsrc, hdst]

theorem Linked.addKnownLink (h : t.Linked) {l : Link} (hadd : t.addKnownLink l = .ok t') :
    t'.Linked := by
  obtain ⟨hsrc, hdst, rfl⟩ := addKnownLink_eq_ok_iff.1 hadd
  have hlinks {m : Link} (hm : m ∈ (t.addLink l).links) : m = l ∨ m ∈ t.links := by
    obtain ⟨e, he⟩ := mem_links_iff.1 hm
    rw [show (t.addLink l).link? e = _ from SortedMap.find?_insert t.linkMap l.ends e l] at he
    split at he
    next => exact .inl (Option.some.inj he).symm
    next => exact .inr (mem_links_iff.2 ⟨e, he⟩)
  constructor
  case named => exact h.named
  case src =>
    intro m hm
    rcases hlinks hm with rfl | hm
    · exact hsrc
    · exact h.src m hm
  case dst =>
    intro m hm
    rcases hlinks hm with rfl | hm
    · exact hdst
    · exact h.dst m hm

/-- The topology of a document is linked. -/
theorem linked_ofDocument {n : NetworkDocument} (h : ofDocument n = .ok t) : t.Linked := by
  unfold ofDocument at h
  split at h
  next => cases h
  next s hs =>
    have hlinked : s.Linked :=
      foldlM_preserves (P := Linked) (fun _ _ _ h hadd => h.addDeviceEntry hadd) linked_empty hs
    exact foldlM_preserves (P := Linked) (fun _ _ _ h hadd => h.addKnownLink hadd) hlinked h

/-! ## Writing a document and reading it again -/

theorem ext_maps (hdevices : t.deviceMap = t'.deviceMap) (hlinks : t.linkMap = t'.linkMap) :
    t = t' := by
  cases t
  cases t'
  cases hdevices
  cases hlinks
  rfl

/-- New devices with ids are all added. -/
theorem foldlM_addDeviceEntry {ds : List Device} (hnamed : ∀ d ∈ ds, d.id ≠ "")
    (hnodup : (ds.map Device.id).Nodup) (hnew : ∀ d ∈ ds, t.device? d.id = none) :
    (ds.map Device.toEntry).foldlM addDeviceEntry t = .ok (ds.foldl addDevice t) := by
  induction ds generalizing t with
  | nil => rfl
  | cons d rest ih =>
    obtain ⟨hdifferent, hnodup⟩ := List.nodup_cons.1 hnodup
    have hadd : t.addDeviceEntry d.toEntry = .ok (t.addDevice d) := by
      rw [addDeviceEntry, Device.ofEntry_toEntry (hnamed d List.mem_cons_self)]
      simp [hnew d List.mem_cons_self]
    rw [List.map_cons, List.foldlM_cons, hadd]
    refine ih (fun x hx => hnamed x (List.mem_cons_of_mem _ hx)) hnodup fun x hx => ?_
    have hne : x.id ≠ d.id := fun heq => hdifferent (List.mem_map.2 ⟨x, hx, heq⟩)
    exact (SortedMap.find?_insert t.deviceMap d.id x.id d).trans
      ((if_neg hne).trans (hnew x (List.mem_cons_of_mem _ hx)))

/-- Links between ports are all added. -/
theorem foldlM_addKnownLink {ls : List Link} (hsrc : ∀ l ∈ ls, (t.port? l.src).isSome)
    (hdst : ∀ l ∈ ls, (t.port? l.dst).isSome) :
    ls.foldlM addKnownLink t = .ok (ls.foldl addLink t) := by
  induction ls generalizing t with
  | nil => rfl
  | cons l rest ih =>
    have hadd : t.addKnownLink l = .ok (t.addLink l) :=
      addKnownLink_eq_ok_iff.2 ⟨hsrc l List.mem_cons_self, hdst l List.mem_cons_self, rfl⟩
    rw [List.foldlM_cons, hadd]
    exact ih (fun m hm => hsrc m (List.mem_cons_of_mem _ hm))
      fun m hm => hdst m (List.mem_cons_of_mem _ hm)

theorem maps_foldl_addDevice (ds : List Device) (t : Topology) :
    (ds.foldl addDevice t).deviceMap = ds.foldl (fun m d => m.insert d.id d) t.deviceMap ∧
      (ds.foldl addDevice t).linkMap = t.linkMap := by
  induction ds generalizing t with
  | nil => exact ⟨rfl, rfl⟩
  | cons d rest ih => exact ih (t.addDevice d)

theorem maps_foldl_addLink (ls : List Link) (t : Topology) :
    (ls.foldl addLink t).linkMap = ls.foldl (fun m l => m.insert l.ends l) t.linkMap ∧
      (ls.foldl addLink t).deviceMap = t.deviceMap := by
  induction ls generalizing t with
  | nil => exact ⟨rfl, rfl⟩
  | cons l rest ih => exact ih (t.addLink l)

/-- The document of a linked topology stands for that topology. -/
theorem Linked.ofDocument_toDocument (h : t.Linked) : ofDocument t.toDocument = .ok t := by
  have hids : (t.devices.map Device.id).Nodup := by
    have hkeys := t.deviceMap.nodup_keys
    rw [SortedMap.keys, ← t.devices_keyed.map_values, List.map_map] at hkeys
    exact hkeys
  have hlist : (t.links.map fun l => (⟨l, false⟩ : LinkEntry)).flatMap linksOfEntry = t.links := by
    rw [List.flatMap_map]
    exact List.flatMap_singleton' t.links
  obtain ⟨hdevices, hnone⟩ := maps_foldl_addDevice t.devices ∅
  have hdevices' : (t.devices.foldl addDevice ∅).deviceMap = t.deviceMap :=
    hdevices.trans t.devices_keyed.foldl_insert_values
  obtain ⟨hlinks, hsame⟩ := maps_foldl_addLink t.links (t.devices.foldl addDevice ∅)
  have hport (cp : ConnectPoint) : (t.devices.foldl addDevice ∅).port? cp = t.port? cp :=
    port?_congr (device?_congr hdevices' cp.device)
  unfold ofDocument toDocument
  rw [foldlM_addDeviceEntry h.named hids fun d _ => rfl]
  show List.foldlM Topology.addKnownLink _ _ = _
  rw [hlist, foldlM_addKnownLink (fun l hl => hport l.src ▸ h.src l hl)
    (fun l hl => hport l.dst ▸ h.dst l hl)]
  refine congrArg Except.ok (ext_maps (hsame.trans hdevices') ?_)
  rw [hlinks, hnone]
  exact t.links_keyed.foldl_insert_values

/-- Whatever changes are made to a topology that was read from a document, both ends of every link
remain ports of devices, and the document of the topology is read back as the same topology. -/
theorem ofDocument_toDocument_after {n : NetworkDocument} (h : ofDocument n = .ok t)
    (changes : List Change) :
    (∀ l ∈ (t.after changes).links,
      ((t.after changes).port? l.src).isSome ∧ ((t.after changes).port? l.dst).isSome) ∧
    ofDocument (t.after changes).toDocument = .ok (t.after changes) := by
  have hlinked : (t.after changes).Linked := (linked_ofDocument h).after changes
  exact ⟨fun l hl => ⟨hlinked.src l hl, hlinked.dst l hl⟩, hlinked.ofDocument_toDocument⟩

/-- Three devices in a row; the line between the first two goes both ways. -/
def sampleDocument : NetworkDocument where
  devices :=
    [⟨"C", .roadm, "", [⟨1, none, .oms, .line, true⟩], none⟩,
      ⟨"A", .terminalDevice, "V", [⟨2, some "east", .och, .client, true⟩, ⟨1, none, .oms, .line, false⟩],
        some ⟨[.r200G, .r100G], [.dpQpsk]⟩⟩,
      ⟨"B", .roadm, "", [⟨1, none, .oms, .line, true⟩, ⟨2, none, .oms, .line, true⟩], none⟩]
  links :=
    [⟨{ src := ⟨"A", 1⟩, dst := ⟨"B", 1⟩, annotations := SortedMap.empty.insert "note" "old" }, true⟩,
      ⟨.between ⟨"B", 2⟩ ⟨"C", 1⟩, false⟩]
  details := []
  spectrum := none

/-- The topology of the document. -/
def sampleTopology : Topology :=
  match ofDocument sampleDocument with
  | .ok t => t
  | .error _ => ∅

/-- A link goes down, a device and then the way back are removed, and one call fails. -/
def sampleChanges : List Change :=
  [.setLinkState ⟨⟨"A", 1⟩, ⟨"B", 1⟩⟩ .inactive, .removeDevice "C", .removeDevice "C",
    .removeLink ⟨⟨"B", 1⟩, ⟨"A", 1⟩⟩]

/-- One link is left of three. -/
theorem ofDocument_toDocument_after_sample : ofDocument sampleDocument = .ok sampleTopology ∧
    ((∀ l ∈ (sampleTopology.after sampleChanges).links,
      ((sampleTopology.after sampleChanges).port? l.src).isSome ∧
        ((sampleTopology.after sampleChanges).port? l.dst).isSome) ∧
    ofDocument (sampleTopology.after sampleChanges).toDocument =
      .ok (sampleTopology.after sampleChanges)) ∧
    sampleTopology.links.length = 3 ∧ (sampleTopology.after sampleChanges).links.length = 1 := by
  have hread : ofDocument sampleDocument = .ok sampleTopology := by rfl
  exact ⟨hread, ofDocument_toDocument_after hread sampleChanges, by decide +kernel, by decide +kernel⟩

end Topology

end Lightpath

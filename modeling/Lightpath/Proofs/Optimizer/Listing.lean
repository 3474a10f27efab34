import Lightpath.Optimizer.Listing
import Lightpath.Proofs.Optimizer.Exclusion
import Lightpath.Proofs.Optimizer.Numbering

/-!
# Listings — a filter finds what it selects, whichever index it goes through

A filter asks one index of the store and applies its parts to what the index finds. In every state that a
run reaches this lists the stored paths that the filter selects, by group and id, with one exception: a
filter that names a port twice, and neither an id nor a group, lists nothing
(`wavelengthPaths_afterTurns`). It asks for paths between the port and itself, and no path ends where it
starts (`Consistent.src_ne_dst`), while the same filter with a group lists the paths at the port
(`port_named_twice_lists_nothing`).
-/

namespace Lightpath

namespace PathFilter

variable {f : PathFilter} {p : WavelengthPath}

/-- A path has the given id and group, starts or ends at each given port, and is in a stage that is not
left out. -/
structure Selects (f : PathFilter) (p : WavelengthPath) : Prop where
  id : ∀ id, f.id = some id → p.id = id
  group : ∀ g, f.group = some g → p.group = g
  ingress : ∀ cp, f.ingress = some cp → p.leg.src = cp ∨ p.leg.dst = cp
  egress : ∀ cp, f.egress = some cp → p.leg.src = cp ∨ p.leg.dst = cp
  reserved : f.reservedOnly = true → p.submitted = false
  submitted : f.submittedOnly = true → p.submitted = true

/-- The filter gives one port twice, and neither an id nor a group. -/
def NamesPortTwice (f : PathFilter) : Prop :=
  f.id = none ∧ f.group = none ∧ ∃ cp, f.ingress = some cp ∧ f.egress = some cp

/-- A filter with two ports and neither an id nor a group names a port twice if they are the same. -/
theorem namesPortTwice_between_iff {i e : ConnectPoint} {reservedOnly submittedOnly : Bool} :
    NamesPortTwice ⟨none, none, some i, some e, reservedOnly, submittedOnly⟩ ↔ i = e := by
  constructor
  · rintro ⟨-, -, cp, hcp, hcp'⟩
    exact (Option.some.inj hcp).trans (Option.some.inj hcp').symm
  · rintro rfl
    exact ⟨rfl, rfl, i, rfl, rfl⟩

theorem admits_iff : f.admits p = true ↔ f.Selects p := by
  simp only [admits, Bool.and_eq_true, Bool.or_eq_true, Bool.not_eq_true', Option.all_eq_true,
    beq_iff_eq, WavelengthPath.terminatesAt_iff]
  constructor
  · rintro ⟨⟨⟨⟨⟨hid, hgroup⟩, hingress⟩, hegress⟩, hreserved⟩, hsubmitted⟩
    refine ⟨hid, hgroup, hingress, hegress, fun hr => ?_, fun hs => ?_⟩
    · exact hreserved.resolve_left (by simp [hr])
    · exact hsubmitted.resolve_left (by simp [hs])
  · intro h
    refine ⟨⟨⟨⟨⟨h.id, h.group⟩, h.ingress⟩, h.egress⟩, ?_⟩, ?_⟩
    · cases hr : f.reservedOnly with
      | false => exact .inl rfl
      | true => exact .inr (h.reserved hr)
    · cases hs : f.submittedOnly with
      | false => exact .inl rfl
      | true => exact .inr (h.submitted hs)

end PathFilter

/-- A leg between two ports that starts or ends at `i` and at `e` joins them, unless they are the same. -/
theorem Leg.ends_between_iff {l : Leg} {i e : ConnectPoint} (hne : l.src ≠ l.dst)
    (hi : l.src = i ∨ l.dst = i) (he : l.src = e ∨ l.dst = e) :
    l.ends = ⟨i, e⟩ ∨ l.ends = ⟨e, i⟩ ↔ i ≠ e := by
  rw [Leg.ends, Ends.mk.injEq, Ends.mk.injEq]
  constructor
  · rintro (⟨hsrc, hdst⟩ | ⟨hsrc, hdst⟩) rfl
    · exact hne (hsrc.trans hdst.symm)
    · exact hne (hsrc.trans hdst.symm)
  · intro hdiffer
    rcases hi with rfl | rfl
    · exact .inl ⟨rfl, he.resolve_left hdiffer⟩
    · exact .inr ⟨he.resolve_right hdiffer, rfl⟩

/-! ## The order of listings -/

namespace WavelengthPath

/-- A path is listed before another one. -/
def ListedBefore (p q : WavelengthPath) : Prop :=
  p.group < q.group ∨ p.group = q.group ∧ p.id < q.id

theorem isLE_listingOrder_iff {p q : WavelengthPath} : (p.listingOrder q).isLE = true ↔
    p.group < q.group ∨ p.group = q.group ∧ p.id ≤ q.id := by
  rw [listingOrder, Ordering.isLE_then_iff_or, Nat.compare_eq_lt, Nat.compare_eq_eq, Nat.isLE_compare]

/-- Sorting paths with different ids lists each before the next one. -/
theorem pairwise_listedBefore {paths : List WavelengthPath}
    (h : paths.Pairwise fun p q => p.id ≠ q.id) :
    (paths.mergeSort fun p q => (p.listingOrder q).isLE).Pairwise ListedBefore := by
  have htrans (p q r : WavelengthPath) (hpq : (p.listingOrder q).isLE = true)
      (hqr : (q.listingOrder r).isLE = true) : (p.listingOrder r).isLE = true := by
    rw [isLE_listingOrder_iff] at hpq hqr ⊢
    omega
  have htotal (p q : WavelengthPath) :
      ((p.listingOrder q).isLE || (q.listingOrder p).isLE) = true := by
    rw [Bool.or_eq_true, isLE_listingOrder_iff, isLE_listingOrder_iff]
    omega
  have hsorted := List.pairwise_mergeSort htrans htotal paths
  have hperm := List.mergeSort_perm paths fun p q => (p.listingOrder q).isLE
  have hdistinct := hperm.symm.pairwise h fun hne => Ne.symm hne
  refine (hsorted.and hdistinct).imp fun ⟨hle, hne⟩ => ?_
  rw [isLE_listingOrder_iff] at hle
  unfold ListedBefore
  omega

end WavelengthPath

namespace Optimizer

variable {o : Optimizer} {f : PathFilter}

/-! ## Indexes -/

/-- In every state that a run reaches the indexes of the store list what they should. -/
theorem indexed_afterTurns {start : Optimizer} (h : start.Idle) (turns : List Turn) :
    (start.afterTurns turns).paths.Indexed := by
  obtain ⟨calls, hpaths, -⟩ := (start.storeSteps_afterTurns turns).paths
  rw [hpaths, h.paths]
  exact (PathStore.indexed_empty.after calls).1

/-- A stored path joins two different ports: its group holds both of them, and nothing twice. -/
theorem Consistent.src_ne_dst {reservedOn : Nat → Topology → Prop} (h : o.Consistent reservedOn)
    {p : WavelengthPath} (hp : p ∈ o.paths.toList) : p.leg.src ≠ p.leg.dst := by
  obtain ⟨t, -, htaken⟩ := h.taken_of_mem hp
  have hnodup := h.exact.nodup (intentKey p.group)
  rw [show o.ledger.allocations (intentKey p.group) = _ from htaken.inUse.resources] at hnodup
  have hown := (List.nodup_flatMap.1 hnodup).1 p (PathStore.mem_legs.2 ⟨hp, rfl⟩)
  intro heq
  simp [WavelengthPath.resources, Leg.boundary, heq] at hown

/-- One path has the id of a stored path. -/
theorem filter_id_eq (hstore : o.paths.Indexed) {p : WavelengthPath} (hp : p ∈ o.paths.toList) :
    (o.paths.toList.filter fun q => q.id == p.id) = [p] := by
  have hnodup : o.paths.toList.Nodup :=
    hstore.toList_ascending.imp fun hlt heq => Nat.ne_of_lt hlt (congrArg WavelengthPath.id heq)
  refine List.perm_singleton.1 ((List.perm_ext_iff_of_nodup (hnodup.filter _)
    (List.nodup_singleton p)).2 fun q => ?_)
  rw [List.mem_filter, List.mem_singleton, beq_iff_eq]
  constructor
  · rintro ⟨hq, hid⟩
    exact hstore.eq_of_id_eq hq hp hid
  · rintro rfl
    exact ⟨hp, rfl⟩

/-- What a filter goes through finds every stored path that the filter selects, unless the filter names a
port twice. -/
theorem selection_eq (hstore : o.paths.Indexed)
    (hends : ∀ p ∈ o.paths.toList, p.leg.src ≠ p.leg.dst)
    (hid : ∀ id, f.id = some id → ∃ p ∈ o.paths.toList, p.id = id) :
    ∃ base : WavelengthPath → Bool, o.selection f = .ok (o.paths.toList.filter base) ∧
      ∀ p ∈ o.paths.toList, f.Selects p → (base p = true ↔ ¬ f.NamesPortTwice) := by
  obtain ⟨id?, group?, ingress?, egress?, reservedOnly, submittedOnly⟩ := f
  cases id? with
  | some id =>
    obtain ⟨p, hp, rfl⟩ := hid id rfl
    refine ⟨fun q => q.id == p.id, ?_, fun q _ hq => ?_⟩
    · simp only [selection, hstore.get?_of_mem hp, filter_id_eq hstore hp]
    · refine iff_of_true (beq_iff_eq.2 (hq.id p.id rfl)) ?_
      rintro ⟨hnone, -⟩
      cases hnone
  | none =>
    cases group? with
    | some g =>
      refine ⟨fun q => q.group == g, congrArg Except.ok (hstore.getGroup_eq_legs g), ?_⟩
      intro q _ hq
      refine iff_of_true (beq_iff_eq.2 (hq.group g rfl)) ?_
      rintro ⟨-, hnone, -⟩
      cases hnone
    | none =>
      -- without an id and a group the index depends on the ports
      cases ingress? with
      | none =>
        cases egress? with
        | none =>
          refine ⟨fun _ => true, congrArg Except.ok (List.filter_true _).symm, fun q _ _ => ?_⟩
          refine iff_of_true rfl ?_
          rintro ⟨-, -, cp, hnone, -⟩
          cases hnone
        | some e =>
          refine ⟨fun q => q.terminatesAt e, congrArg Except.ok (hstore.getTerminal e), ?_⟩
          intro q _ hq
          refine iff_of_true (WavelengthPath.terminatesAt_iff.2 (hq.egress e rfl)) ?_
          rintro ⟨-, -, cp, hnone, -⟩
          cases hnone
      | some i =>
        cases egress? with
        | none =>
          refine ⟨fun q => q.terminatesAt i, congrArg Except.ok (hstore.getTerminal i), ?_⟩
          intro q _ hq
          refine iff_of_true (WavelengthPath.terminatesAt_iff.2 (hq.ingress i rfl)) ?_
          rintro ⟨-, -, cp, -, hnone⟩
          cases hnone
        | some e =>
          refine ⟨fun q => q.leg.ends = ⟨i, e⟩ ∨ q.leg.ends = ⟨e, i⟩,
            congrArg Except.ok (hstore.getBetween i e), ?_⟩
          intro q hmem hq
          rw [PathFilter.namesPortTwice_between_iff, decide_eq_true_iff]
          exact Leg.ends_between_iff (hends q hmem) (hq.ingress i rfl) (hq.egress e rfl)

/-! ## Whole runs -/

/-- In every state that a run reaches, a filter whose id is not given or stored lists the stored paths
that it selects by group and id, each once; but one that names a port twice lists nothing. -/
theorem wavelengthPaths_afterTurns {start : Optimizer} (h : start.Idle) (turns : List Turn)
    (hid : ∀ id, f.id = some id → ∃ p ∈ (start.afterTurns turns).paths.toList, p.id = id) :
    ∃ listed, (start.afterTurns turns).wavelengthPaths f = .ok listed ∧
      (∀ p, p ∈ listed ↔
        p ∈ (start.afterTurns turns).paths.toList ∧ f.Selects p ∧ ¬ f.NamesPortTwice) ∧
      listed.Pairwise WavelengthPath.ListedBefore := by
  have hstore := indexed_afterTurns h turns
  have hconsistent := consistent_afterTurns h turns
  obtain ⟨base, hselection, hbase⟩ :=
    selection_eq hstore (fun p hp => hconsistent.src_ne_dst hp) hid
  refine ⟨_, by rw [wavelengthPaths, hselection], fun p => ?_, ?_⟩
  · rw [List.mem_mergeSort, List.mem_filter, List.mem_filter, PathFilter.admits_iff]
    constructor
    · rintro ⟨⟨hp, hfound⟩, hselects⟩
      exact ⟨hp, hselects, (hbase p hp hselects).1 hfound⟩
    · rintro ⟨hp, hselects, honce⟩
      exact ⟨⟨hp, (hbase p hp hselects).2 honce⟩, hselects⟩
  · apply WavelengthPath.pairwise_listedBefore
    exact ((hstore.toList_ascending.filter _).filter _).imp fun hlt => Nat.ne_of_lt hlt

/-- The ids that a filter lists after the sample run, in their order. -/
def sampleListing (f : PathFilter) : Option (List Nat) :=
  ((sampleStart.afterTurns (sampleRun.map .call)).wavelengthPaths f).toOption.map
    (List.map WavelengthPath.id)

/-- The filter by an id lists the path with the id. -/
theorem wavelengthPaths_sample :
    sampleListing { id := some 2 } = some [2] ∧
      ∃ listed, (sampleStart.afterTurns (sampleRun.map .call)).wavelengthPaths { id := some 2 } =
          .ok listed ∧
        (∀ p, p ∈ listed ↔ p ∈ (sampleStart.afterTurns (sampleRun.map .call)).paths.toList ∧
          PathFilter.Selects { id := some 2 } p ∧ ¬ PathFilter.NamesPortTwice { id := some 2 }) ∧
        listed.Pairwise WavelengthPath.ListedBefore := by
  have hcomputed : (∃ p ∈ (sampleStart.afterTurns (sampleRun.map .call)).paths.toList, p.id = 2) ∧
      sampleListing { id := some 2 } = some [2] := by
    decide +kernel
  have hid : ∀ id, some 2 = some id →
      ∃ p ∈ (sampleStart.afterTurns (sampleRun.map .call)).paths.toList, p.id = id := by
    intro id heq
    cases heq
    exact hcomputed.1
  exact ⟨hcomputed.2,
    wavelengthPaths_afterTurns (idle_ofNetwork ofNetwork_sample) (sampleRun.map .call) hid⟩

/-- A filter that names the first transponder port of `X` as both ports. -/
def twiceNamed : PathFilter := { ingress := some ⟨"X", 1⟩, egress := some ⟨"X", 1⟩ }

/-- A filter that names a port twice selects the path that starts there, but does not list it; with the
group of the path, it does. -/
theorem port_named_twice_lists_nothing :
    (∃ p ∈ (sampleStart.afterTurns (sampleRun.map .call)).paths.toList, twiceNamed.Selects p) ∧
      sampleListing twiceNamed = some [] ∧
      sampleListing { twiceNamed with group := some 1 } = some [1] := by
  have hcomputed : (∃ p ∈ (sampleStart.afterTurns (sampleRun.map .call)).paths.toList,
      twiceNamed.admits p = true) ∧ sampleListing twiceNamed = some [] ∧
        sampleListing { twiceNamed with group := some 1 } = some [1] := by
    decide +kernel
  obtain ⟨⟨p, hp, hadmits⟩, hlistings⟩ := hcomputed
  exact ⟨⟨p, hp, PathFilter.admits_iff.1 hadmits⟩, hlistings⟩

end Optimizer

end Lightpath

import Lightpath.Proofs.Routing.Traces

/-!
# Searches — a search ends, and finds a way if there is one

The devices whose links have been tried are done. `Search.Inv` is what holds whenever a device is
taken from the queue: the label of a device tells a loop-free way to it over devices that are done,
a device that is not done waits in the queue at the cost of its label, and the queue holds nothing
cheaper than a device that is done. The label of a device that is done therefore never changes
again.

Every step either drops a queue entry or makes a device done, whose links are the only ones to give
new entries; so a search ends after no more steps than there are edges, and one for its source
(`Graph.Weighed.run_ends`).
-/

namespace Lightpath

open LawfulCost

/-! ## The queue -/

section Queue

variable {W : Type} [Cost W]

theorem mem_enqueue {e x : W × DeviceId} {queue : List (W × DeviceId)} :
    x ∈ enqueue e queue ↔ x = e ∨ x ∈ queue := by
  induction queue with
  | nil => rw [enqueue, List.mem_singleton, or_iff_left List.not_mem_nil]
  | cons y rest ih =>
    unfold enqueue
    split
    · rw [List.mem_cons]
    · rw [List.mem_cons, ih, List.mem_cons, or_left_comm]

theorem length_enqueue (e : W × DeviceId) (queue : List (W × DeviceId)) :
    (enqueue e queue).length = queue.length + 1 := by
  induction queue with
  | nil => rfl
  | cons y rest ih =>
    unfold enqueue
    split
    · rfl
    · rw [List.length_cons, ih, List.length_cons]

variable [LawfulCost W]

/-- The first entry is not dearer than the second, and cheaper if both are of one device. -/
def Precedes (e e' : W × DeviceId) : Prop :=
  key e.1 ≤ key e'.1 ∧ (e.2 = e'.2 → key e.1 < key e'.1)

theorem pairwise_enqueue {e : W × DeviceId} {queue : List (W × DeviceId)}
    (h : queue.Pairwise Precedes) (he : IsSum e.1) (hsums : ∀ x ∈ queue, IsSum x.1)
    (hnew : ∀ x ∈ queue, x.2 = e.2 → key e.1 < key x.1) : (enqueue e queue).Pairwise Precedes := by
  induction queue with
  | nil => exact List.pairwise_singleton _ _
  | cons x rest ih =>
    obtain ⟨hhead, hrest⟩ := List.pairwise_cons.1 h
    have horder := order_eq he (hsums x List.mem_cons_self)
    unfold enqueue
    split
    next hlt =>
      have hlt : key e.1 < key x.1 := compare_lt_iff_lt.1 (horder ▸ hlt)
      refine List.pairwise_cons.2 ⟨?_, h⟩
      intro y hy
      have hey : key e.1 < key y.1 := by
        rcases List.mem_cons.1 hy with rfl | hy
        · exact hlt
        · exact lt_of_lt_of_le hlt (hhead y hy).1
      exact ⟨hey.le, fun _ => hey⟩
    next hge =>
      have hge : key x.1 ≤ key e.1 := by
        rw [horder, compare_lt_iff_lt] at hge
        exact not_lt.1 hge
      have hrest' := ih hrest (fun y hy => hsums y (List.mem_cons_of_mem _ hy))
        (fun y hy => hnew y (List.mem_cons_of_mem _ hy))
      refine List.pairwise_cons.2 ⟨?_, hrest'⟩
      intro y hy
      rcases mem_enqueue.1 hy with rfl | hy
      · -- no entry of the same device stands before the new one
        exact ⟨hge, fun hsame => absurd (hnew x List.mem_cons_self hsame) (not_lt.2 hge)⟩
      · exact hhead y hy

end Queue

namespace Search

variable {W : Type}

/-! ## The invariant -/

variable [Cost W]

/-- The label of a device tells this way to it. -/
structure Told (g : Graph W) (closed : Closed) (src : DeviceId) (done : List DeviceId)
    (labels : SortedMap DeviceId (Label W)) (id : DeviceId) (cost : W) (links : List Link) :
    Prop where
  traced : Traced labels src id links
  way : g.IsWay closed src id links
  cost : g.Costs links cost
  loopFree : LoopFree src links
  through : ∀ l ∈ links, l.src.device ∈ done

section Told

variable {g : Graph W} {closed : Closed} {src : DeviceId} {done : List DeviceId}
  {labels labels' : SortedMap DeviceId (Label W)} {id : DeviceId} {cost : W} {links : List Link}

theorem Told.mono (h : Told g closed src done labels id cost links) (id' : DeviceId) :
    Told g closed src (id' :: done) labels id cost links :=
  ⟨h.traced, h.way, h.cost, h.loopFree, fun l hl => List.mem_cons_of_mem _ (h.through l hl)⟩

/-- A way over devices that keep their labels stays told. -/
theorem Told.frame (h : Told g closed src done labels id cost links)
    (hid : labels'.find? id = labels.find? id)
    (hkept : ∀ id ∈ done, labels'.find? id = labels.find? id) :
    Told g closed src done labels' id cost links :=
  ⟨h.traced.frame hid fun l hl => hkept _ (h.through l hl), h.way, h.cost, h.loopFree, h.through⟩

/-- A label over a further edge to a device that is not done tells the way with that edge. -/
theorem Told.snoc {e : Link × W} (h : Told g closed src done labels id cost links)
    (he : e ∈ g.edges) (hsrc : e.1.src.device = id) (hdone : id ∈ done)
    (huse : mayUse closed src e.1 = true) (hnew : e.1.dst.device ∉ done)
    (hlabel : labels'.find? e.1.dst.device = some ⟨Cost.add cost e.2, some e.1⟩)
    (hkept : ∀ id ∈ done, labels'.find? id = labels.find? id) :
    Told g closed src done labels' e.1.dst.device (Cost.add cost e.2) (links ++ [e.1]) := by
  subst hsrc
  have htold := h.frame (hkept _ hdone) hkept
  constructor
  case traced => exact .via (mayUse_iff.1 huse).2.1 hlabel rfl htold.traced
  case way => exact h.way.snoc he rfl huse
  case cost => exact h.cost.snoc he
  case loopFree =>
    refine h.loopFree.snoc h.way.joins (fun heq => hnew (heq ▸ hdone)) ?_
    intro l hl heq
    exact hnew (heq ▸ h.through l hl)
  case through =>
    intro l hl
    rcases List.mem_append.1 hl with hl | hl
    · exact h.through l hl
    · exact List.mem_singleton.1 hl ▸ hdone

end Told

variable [LawfulCost W]

/-- Both devices of an edge have labels, and the edge improves on neither. -/
def Relaxed (labels : SortedMap DeviceId (Label W)) (e : Link × W) : Prop :=
  ∃ a b, labels.find? e.1.src.device = some a ∧ labels.find? e.1.dst.device = some b ∧
    key b.cost ≤ key (Cost.add a.cost e.2)

/-- The state of a search whose finished devices are `done`, of which the last one was reached at
`level` and still has the edges `pending` to try. -/
structure Inv (g : Graph W) (closed : Closed) (src : DeviceId) (done : List DeviceId)
    (pending : List (Link × W)) (level : Key W) (s : Search W) : Prop where
  source : (s.labels.find? src).isSome
  told : ∀ {id label}, s.labels.find? id = some label →
    ∃ links, Told g closed src done s.labels id label.cost links
  waiting : ∀ {id label}, s.labels.find? id = some label →
    id ∈ done ∨ (label.cost, id) ∈ s.queue
  /-- An entry of a device that is done is outdated. -/
  queued : ∀ e ∈ s.queue, IsSum e.1 ∧ ∃ label, s.labels.find? e.2 = some label ∧
    key label.cost ≤ key e.1 ∧ (e.2 ∈ done → key label.cost < key e.1)
  ordered : s.queue.Pairwise Precedes
  ahead : ∀ e ∈ s.queue, level ≤ key e.1
  settled : ∀ id ∈ done, ∃ label, s.labels.find? id = some label ∧ key label.cost ≤ level
  relaxed : ∀ e ∈ g.edges, e.1.src.device ∈ done → mayUse closed src e.1 = true →
    e ∈ pending ∨ Relaxed s.labels e

variable {g : Graph W} {closed : Closed} {src : DeviceId} {done : List DeviceId}
  {pending : List (Link × W)} {level : Key W} {s : Search W}

theorem inv_start (g : Graph W) (closed : Closed) (src : DeviceId) :
    Inv g closed src [] [] (key (Cost.zero : W)) (start src) := by
  have hfind (id : DeviceId) (label : Label W)
      (h : (start src : Search W).labels.find? id = some label) :
      id = src ∧ label = ⟨Cost.zero, none⟩ := by
    rw [start, SortedMap.find?_insert] at h
    split at h
    next hid => exact ⟨hid, (Option.some.inj h).symm⟩
    next => cases h
  have hself : (start src : Search W).labels.find? src = some ⟨Cost.zero, none⟩ :=
    SortedMap.find?_insert_self _ _ _
  constructor
  case source => rw [hself, Option.isSome_some]
  case told =>
    intro id label h
    obtain ⟨rfl, rfl⟩ := hfind id label h
    exact ⟨[], .source, Graph.isWay_nil, .nil, loopFree_nil _, by simp⟩
  case waiting =>
    intro id label h
    obtain ⟨rfl, rfl⟩ := hfind id label h
    exact .inr (List.mem_singleton_self _)
  case queued =>
    intro e he
    obtain rfl := List.mem_singleton.1 he
    exact ⟨isSum_zero, _, hself, le_rfl, by simp⟩
  case ordered => exact List.pairwise_singleton _ _
  case ahead =>
    intro e he
    obtain rfl := List.mem_singleton.1 he
    exact le_rfl
  case settled =>
    intro id hid
    cases hid
  case relaxed =>
    intro e _ hdone
    cases hdone

/-! ## Steps -/

/-- An outdated entry can be dropped. -/
theorem Inv.drop {cost : W} {id : DeviceId} {rest : List (W × DeviceId)}
    (h : Inv g closed src done [] level s) (hqueue : s.queue = (cost, id) :: rest)
    (hout : s.outdated id cost = true) :
    Inv g closed src done [] (key cost) { s with queue := rest } := by
  obtain ⟨hhead, hrest⟩ := List.pairwise_cons.1 (hqueue ▸ h.ordered)
  obtain ⟨hsum, label, hlabel, hle, -⟩ := h.queued (cost, id) (hqueue ▸ List.mem_cons_self)
  have hlevel : level ≤ key cost := h.ahead (cost, id) (hqueue ▸ List.mem_cons_self)
  constructor
  case source => exact h.source
  case told => exact h.told
  case waiting =>
    intro id' label' hlabel'
    refine (h.waiting hlabel').imp_right ?_
    intro hmem
    rw [hqueue] at hmem
    refine (List.mem_cons.1 hmem).resolve_left ?_
    intro heq
    -- the label of the device is below the entry, so it is not its cost
    obtain ⟨rfl, rfl⟩ := Prod.mk.inj heq
    rw [outdated, hlabel', Option.any_some] at hout
    exact absurd ((less_iff hsum hsum).1 hout) (lt_irrefl _)
  case queued =>
    intro e he
    exact h.queued e (hqueue ▸ List.mem_cons_of_mem _ he)
  case ordered => exact hrest
  case ahead =>
    intro e he
    exact (hhead e he).1
  case settled =>
    intro id' hid'
    obtain ⟨label', hlabel', hle'⟩ := h.settled id' hid'
    exact ⟨label', hlabel', hle'.trans hlevel⟩
  case relaxed => exact h.relaxed

theorem Inv.isSum (h : Inv g closed src done pending level s) (hg : g.Weighed) {id : DeviceId}
    {label : Label W} (hlabel : s.labels.find? id = some label) : IsSum label.cost := by
  obtain ⟨links, hlinks⟩ := h.told hlabel
  exact hlinks.cost.isSum hg

/-- An entry that is not outdated is the label of a device that is not done yet. -/
theorem Inv.current {cost : W} {id : DeviceId} {rest : List (W × DeviceId)}
    (h : Inv g closed src done [] level s) (hg : g.Weighed) (hqueue : s.queue = (cost, id) :: rest)
    (hin : s.outdated id cost = false) :
    id ∉ done ∧ ∃ label, s.labels.find? id = some label ∧ label.cost = cost := by
  obtain ⟨hhead, -⟩ := List.pairwise_cons.1 (hqueue ▸ h.ordered)
  obtain ⟨hsum, label, hlabel, hle, hdone⟩ := h.queued (cost, id) (hqueue ▸ List.mem_cons_self)
  have hge : ¬ key label.cost < key cost := fun hlt => by
    rw [outdated, hlabel, Option.any_some, (less_iff (h.isSum hg hlabel) hsum).2 hlt] at hin
    exact nomatch hin
  have hnew : id ∉ done := fun hid => hge (hdone hid)
  refine ⟨hnew, label, hlabel, ?_⟩
  have hmem := (h.waiting hlabel).resolve_left hnew
  rw [hqueue] at hmem
  rcases List.mem_cons.1 hmem with heq | hmem
  · exact (Prod.mk.inj heq).1
  · -- a later entry of the same device is dearer
    exact absurd ((hhead _ hmem).2 rfl) (not_lt.2 hle)

/-- A device taken from the queue at its label is done once its edges have been tried. -/
theorem Inv.settle {id : DeviceId} {label : Label W} {rest : List (W × DeviceId)}
    (h : Inv g closed src done [] level s) (hqueue : s.queue = (label.cost, id) :: rest)
    (hlabel : s.labels.find? id = some label) :
    Inv g closed src (id :: done) (g.leaving id) (key label.cost) { s with queue := rest } := by
  obtain ⟨hhead, hrest⟩ := List.pairwise_cons.1 (hqueue ▸ h.ordered)
  have hlevel : level ≤ key label.cost := h.ahead (label.cost, id) (hqueue ▸ List.mem_cons_self)
  constructor
  case source => exact h.source
  case told =>
    intro id' label' hlabel'
    obtain ⟨links, hlinks⟩ := h.told hlabel'
    exact ⟨links, hlinks.mono id⟩
  case waiting =>
    intro id' label' hlabel'
    rcases h.waiting hlabel' with hdone | hmem
    · exact .inl (List.mem_cons_of_mem _ hdone)
    · rw [hqueue] at hmem
      rcases List.mem_cons.1 hmem with heq | hmem
      · exact .inl ((Prod.mk.inj heq).2 ▸ List.mem_cons_self)
      · exact .inr hmem
  case queued =>
    intro e he
    obtain ⟨hsum, label', hlabel', hle, hdone⟩ := h.queued e (hqueue ▸ List.mem_cons_of_mem _ he)
    refine ⟨hsum, label', hlabel', hle, ?_⟩
    intro hmem
    rcases List.mem_cons.1 hmem with hid | hmem
    · -- behind the entry taken from the queue those of the same device are dearer
      rw [hid] at hlabel'
      obtain rfl := Option.some.inj (hlabel.symm.trans hlabel')
      exact (hhead e he).2 hid.symm
    · exact hdone hmem
  case ordered => exact hrest
  case ahead =>
    intro e he
    exact (hhead e he).1
  case settled =>
    intro id' hid'
    rcases List.mem_cons.1 hid' with rfl | hid'
    · exact ⟨label, hlabel, le_rfl⟩
    · obtain ⟨label', hlabel', hle⟩ := h.settled id' hid'
      exact ⟨label', hlabel', hle.trans hlevel⟩
  case relaxed =>
    intro e he hdone huse
    rcases List.mem_cons.1 hdone with hid | hdone
    · exact .inl (List.mem_filter.2 ⟨he, beq_iff_eq.2 hid⟩)
    · exact .inr ((h.relaxed e he hdone huse).resolve_left List.not_mem_nil)

/-- An edge that cannot be used, or that improves on nothing, is tried without effect. -/
theorem Inv.skip {e : Link × W} (h : Inv g closed src done (e :: pending) level s)
    (hskip : mayUse closed src e.1 = true → Relaxed s.labels e) :
    Inv g closed src done pending level s where
  source := h.source
  told := h.told
  waiting := h.waiting
  queued := h.queued
  ordered := h.ordered
  ahead := h.ahead
  settled := h.settled
  relaxed := by
    intro e' he' hdone huse
    rcases h.relaxed e' he' hdone huse with hmem | hrelaxed
    · rcases List.mem_cons.1 hmem with rfl | hmem
      · exact .inr (hskip huse)
      · exact .inl hmem
    · exact .inr hrelaxed

/-- An improvement is below the label that it replaces. -/
theorem Inv.key_lt_of_improves (h : Inv g closed src done pending level s) (hg : g.Weighed)
    {id : DeviceId} {cost : W} (hcost : IsSum cost) (himp : s.improves id cost = true)
    {label : Label W} (hlabel : s.labels.find? id = some label) : key cost < key label.cost := by
  rw [improves, hlabel] at himp
  exact (less_iff hcost (h.isSum hg hlabel)).1 himp

/-- A device that is done keeps its label. -/
theorem Inv.not_done_of_improves (h : Inv g closed src done pending level s) (hg : g.Weighed)
    {id : DeviceId} {cost : W} (hcost : IsSum cost) (hlevel : level ≤ key cost)
    (himp : s.improves id cost = true) : id ∉ done := by
  intro hid
  obtain ⟨label, hlabel, hle⟩ := h.settled id hid
  have hlt := h.key_lt_of_improves hg hcost himp hlabel
  exact absurd (hle.trans hlevel) (not_le.2 hlt)

/-- An edge that improves on the label of its destination replaces it. -/
theorem Inv.improve {e : Link × W} {label : Label W}
    (h : Inv g closed src done (e :: pending) (key label.cost) s) (hg : g.Weighed)
    (he : e ∈ g.edges) (hdone : e.1.src.device ∈ done)
    (hlabel : s.labels.find? e.1.src.device = some label) (huse : mayUse closed src e.1 = true)
    (himp : s.improves e.1.dst.device (Cost.add label.cost e.2) = true) :
    Inv g closed src done pending (key label.cost)
      ⟨s.labels.insert e.1.dst.device ⟨Cost.add label.cost e.2, some e.1⟩,
        enqueue (Cost.add label.cost e.2, e.1.dst.device) s.queue⟩ := by
  have hsum : IsSum (Cost.add label.cost e.2) := isSum_add (h.isSum hg hlabel) (hg e he)
  have hlevel : key label.cost ≤ key (Cost.add label.cost e.2) :=
    key_le_add (h.isSum hg hlabel) (hg e he)
  -- the destination is not done, so every way told goes on over labels that stay
  have hnew : e.1.dst.device ∉ done := h.not_done_of_improves hg hsum hlevel himp
  have hbelow {label' : Label W} (hlabel' : s.labels.find? e.1.dst.device = some label') :
      key (Cost.add label.cost e.2) < key label'.cost := h.key_lt_of_improves hg hsum himp hlabel'
  generalize hcost : Cost.add label.cost e.2 = cost at hsum hlevel hbelow
  generalize hlabels : s.labels.insert e.1.dst.device ⟨cost, some e.1⟩ = labels
  have hself : labels.find? e.1.dst.device = some ⟨cost, some e.1⟩ :=
    hlabels ▸ SortedMap.find?_insert_self _ _ _
  have hother {id : DeviceId} (hid : id ≠ e.1.dst.device) :
      labels.find? id = s.labels.find? id := by
    rw [← hlabels, SortedMap.find?_insert, if_neg hid]
  have hkept {id : DeviceId} (hid : id ∈ done) : labels.find? id = s.labels.find? id :=
    hother fun heq => hnew (heq ▸ hid)
  have hqueued : ∀ x ∈ s.queue, x.2 = e.1.dst.device → key cost < key x.1 := by
    intro x hx hxid
    obtain ⟨-, label', hlabel', hle, -⟩ := h.queued x hx
    exact lt_of_lt_of_le (hbelow (hxid ▸ hlabel')) hle
  constructor
  case source =>
    rw [hother (mayUse_iff.1 huse).2.1.symm]
    exact h.source
  case told =>
    intro id label' hlabel'
    by_cases hid : id = e.1.dst.device
    · subst hid
      obtain rfl := Option.some.inj (hself.symm.trans hlabel')
      obtain ⟨links, hlinks⟩ := h.told hlabel
      have hvia := hlinks.snoc he rfl hdone huse hnew (hcost ▸ hself) fun id hid => hkept hid
      exact ⟨links ++ [e.1], hcost ▸ hvia⟩
    · obtain ⟨links, hlinks⟩ := h.told ((hother hid).symm.trans hlabel')
      exact ⟨links, hlinks.frame (hother hid) fun id hid => hkept hid⟩
  case waiting =>
    intro id label' hlabel'
    by_cases hid : id = e.1.dst.device
    · subst hid
      obtain rfl := Option.some.inj (hself.symm.trans hlabel')
      exact .inr (mem_enqueue.2 (.inl rfl))
    · rw [hother hid] at hlabel'
      exact (h.waiting hlabel').imp_right fun hmem => mem_enqueue.2 (.inr hmem)
  case queued =>
    intro x hx
    rcases mem_enqueue.1 hx with rfl | hx
    · exact ⟨hsum, _, hself, le_rfl, fun hmem => absurd hmem hnew⟩
    · -- older entries of the same device are outdated by the new label
      obtain ⟨hxsum, label', hlabel', hle, hlt⟩ := h.queued x hx
      by_cases hid : x.2 = e.1.dst.device
      · exact ⟨hxsum, _, hid ▸ hself, (hqueued x hx hid).le, fun hmem => absurd (hid ▸ hmem) hnew⟩
      · exact ⟨hxsum, label', (hother hid).trans hlabel', hle, hlt⟩
  case ordered => exact pairwise_enqueue h.ordered hsum (fun x hx => (h.queued x hx).1) hqueued
  case ahead =>
    intro x hx
    rcases mem_enqueue.1 hx with rfl | hx
    · exact hlevel
    · exact h.ahead x hx
  case settled =>
    intro id hid
    obtain ⟨label', hlabel', hle⟩ := h.settled id hid
    exact ⟨label', (hkept hid).trans hlabel', hle⟩
  case relaxed =>
    intro e' he' hdone' huse'
    rcases h.relaxed e' he' hdone' huse' with hmem | ⟨a, b, ha, hb, hle⟩
    · rcases List.mem_cons.1 hmem with rfl | hmem
      · exact .inr ⟨label, _, (hkept hdone).trans hlabel, hself, hcost ▸ le_rfl⟩
      · exact .inl hmem
    · have ha' := (hkept hdone').trans ha
      by_cases hid : e'.1.dst.device = e.1.dst.device
      · exact .inr ⟨a, _, ha', hid ▸ hself, (hbelow (hid ▸ hb)).le.trans hle⟩
      · exact .inr ⟨a, b, ha', (hother hid).trans hb, hle⟩

/-- Trying an edge of a device that is done leaves one edge less to try. -/
theorem Inv.relax {e : Link × W} {label : Label W}
    (h : Inv g closed src done (e :: pending) (key label.cost) s) (hg : g.Weighed)
    (he : e ∈ g.edges) (hdone : e.1.src.device ∈ done)
    (hlabel : s.labels.find? e.1.src.device = some label) :
    Inv g closed src done pending (key label.cost) (relax closed src label.cost s e) ∧
      (relax closed src label.cost s e).labels.find? e.1.src.device = some label ∧
      (relax closed src label.cost s e).queue.length ≤ s.queue.length + 1 := by
  unfold Search.relax
  simp only
  split
  next hif =>
    obtain ⟨huse, himp⟩ := Bool.and_eq_true_iff.1 hif
    have hsum := h.isSum hg hlabel
    have hnew : e.1.dst.device ∉ done :=
      h.not_done_of_improves hg (isSum_add hsum (hg e he))
        (key_le_add hsum (hg e he)) himp
    refine ⟨h.improve hg he hdone hlabel huse himp, ?_, (length_enqueue _ _).le⟩
    have hne : e.1.src.device ≠ e.1.dst.device := fun heq => hnew (heq ▸ hdone)
    rw [SortedMap.find?_insert, if_neg hne, hlabel]
  next hif =>
    refine ⟨h.skip ?_, hlabel, Nat.le_succ _⟩
    intro huse
    -- the edge may be used, so what it lacks is the improvement
    have himp : s.improves e.1.dst.device (Cost.add label.cost e.2) = false := by
      rw [huse, Bool.true_and] at hif
      exact Bool.eq_false_iff.2 hif
    unfold improves at himp
    split at himp
    next => exact absurd himp.symm Bool.false_ne_true
    next label' hlabel' =>
      have hsum := isSum_add (h.isSum hg hlabel) (hg e he)
      have hless := less_iff hsum (h.isSum hg hlabel')
      rw [himp] at hless
      have hle : ¬ key (Cost.add label.cost e.2) < key label'.cost := by
        intro hlt
        exact absurd (hless.2 hlt) Bool.false_ne_true
      exact ⟨label, label', hlabel, hlabel', not_lt.1 hle⟩

/-- Trying all edges of a device that is done leaves none to try. -/
theorem Inv.relaxAll {id : DeviceId} {label : Label W}
    (h : Inv g closed src done pending (key label.cost) s) (hg : g.Weighed)
    (hpending : ∀ e ∈ pending, e ∈ g.edges ∧ e.1.src.device = id) (hdone : id ∈ done)
    (hlabel : s.labels.find? id = some label) :
    Inv g closed src done [] (key label.cost)
        (pending.foldl (Search.relax closed src label.cost) s) ∧
      (pending.foldl (Search.relax closed src label.cost) s).queue.length ≤
        s.queue.length + pending.length := by
  induction pending generalizing s with
  | nil => exact ⟨h, le_rfl⟩
  | cons e rest ih =>
    obtain ⟨he, rfl⟩ := hpending e List.mem_cons_self
    obtain ⟨hinv, hkept, hlength⟩ := h.relax hg he hdone hlabel
    obtain ⟨hall, hlengths⟩ :=
      ih hinv (fun e' he' => hpending e' (List.mem_cons_of_mem _ he')) hkept
    refine ⟨hall, hlengths.trans ?_⟩
    rw [List.length_cons]
    omega

/-! ## The end of a search -/

/-- The number of edges that leave devices which are not done. -/
def untried (g : Graph W) (done : List DeviceId) : Nat :=
  (g.edges.filter fun e => e.1.src.device ∉ done).length

omit [Cost W] [LawfulCost W] in
theorem untried_cons {id : DeviceId} (hid : id ∉ done) :
    untried g (id :: done) + (g.leaving id).length = untried g done := by
  unfold untried Graph.leaving
  induction g.edges with
  | nil => rfl
  | cons e rest ih =>
    by_cases heq : e.1.src.device = id
    · have hnew : e.1.src.device ∉ done := heq ▸ hid
      simp [heq, hid] at ih ⊢
      omega
    · by_cases hmem : e.1.src.device ∈ done
      · simp [heq, hmem] at ih ⊢
        exact ih
      · simp [heq, hmem] at ih ⊢
        omega

/-- A step keeps the invariant, and leaves fewer queue entries and untried edges. -/
theorem Inv.step {dst : DeviceId} {s' : Search W} (h : Inv g closed src done [] level s)
    (hg : g.Weighed) (hstep : s.step? g closed src dst = some s') :
    ∃ done' level', Inv g closed src done' [] level' s' ∧
      s'.queue.length + untried g done' < s.queue.length + untried g done := by
  obtain ⟨cost, id, rest, hqueue, -, hcases⟩ := step_cases hstep
  have hlength : s.queue.length = rest.length + 1 := by rw [hqueue, List.length_cons]
  rcases hcases with ⟨hout, rfl⟩ | ⟨hin, rfl⟩
  · refine ⟨done, key cost, h.drop hqueue hout, ?_⟩
    show rest.length + untried g done < s.queue.length + untried g done
    omega
  · -- the edges that are tried now make room for the entries they give
    obtain ⟨hnew, label, hlabel, rfl⟩ := h.current hg hqueue hin
    obtain ⟨hinv, hlengths⟩ := (h.settle hqueue hlabel).relaxAll hg
      (fun e he => ⟨(List.mem_filter.1 he).1, beq_iff_eq.1 (List.mem_filter.1 he).2⟩)
      List.mem_cons_self hlabel
    have huntried := untried_cons (g := g) hnew
    refine ⟨id :: done, key label.cost, hinv, ?_⟩
    unfold expand
    simp only at hlengths
    omega

/-- A search with fuel for all its queue entries and untried edges comes to its end. -/
theorem Inv.run_ends (h : Inv g closed src done [] level s) (hg : g.Weighed) (dst : DeviceId)
    {fuel : Nat} (hfuel : s.queue.length + untried g done ≤ fuel) :
    (s.run g closed src dst fuel).step? g closed src dst = none ∧
      ∃ done level, Inv g closed src done [] level (s.run g closed src dst fuel) := by
  induction fuel generalizing done level s with
  | zero =>
    -- without fuel there is no queue entry left
    have hqueue : s.queue = [] := List.eq_nil_of_length_eq_zero (by omega)
    refine ⟨?_, done, level, h⟩
    rw [run, step?, hqueue]
  | succ fuel ih =>
    unfold run
    split
    next hstep => exact ⟨hstep, done, level, h⟩
    next s' hstep =>
      obtain ⟨done', level', hinv, hlt⟩ := h.step hg hstep
      exact ih hinv (by omega)

omit [LawfulCost W] in
/-- What is left in the queue when there is no further step. -/
theorem queue_of_step?_eq_none {dst : DeviceId} (h : s.step? g closed src dst = none) :
    s.queue = [] ∨ ∃ cost rest, s.queue = (cost, dst) :: rest := by
  unfold step? at h
  split at h
  next hqueue => exact .inl hqueue
  next cost id rest hqueue =>
    split at h
    next hid => exact .inr ⟨cost, rest, hid ▸ hqueue⟩
    next =>
      simp only at h
      split at h <;> exact nomatch h

/-- A way that a label tells visits only devices with labels, so tracing them does not run out of
fuel. -/
theorem Inv.trace?_eq (h : Inv g closed src done pending level s) {id : DeviceId} {cost : W}
    {links : List Link} (htold : Told g closed src done s.labels id cost links) :
    s.trace? src s.labels.size id [] = some links := by
  have hnodup := (htold.way.joins.loopFree_iff.1 htold.loopFree).1
  have hsubset : links.map (fun l => l.src.device) ⊆ s.labels.keys := by
    intro x hx
    obtain ⟨l, hl, rfl⟩ := List.mem_map.1 hx
    obtain ⟨label, hlabel, -⟩ := h.settled _ (htold.through l hl)
    exact List.mem_map.2 ⟨_, SortedMap.mem_entries_of_find? hlabel, rfl⟩
  have hlength := hnodup.length_le_of_subset hsubset
  rw [List.length_map, SortedMap.keys, List.length_map] at hlength
  exact (htold.traced.trace?_eq hlength []).trans (congrArg some (List.append_nil links))

/-- When no step is left, a device that a way leads to has a label. -/
theorem Inv.labelled_of_isWay (h : Inv g closed src done [] level s) {dst : DeviceId}
    (hstep : s.step? g closed src dst = none) {links : List Link}
    (hway : g.IsWay closed src dst links) : ∃ label, s.labels.find? dst = some label := by
  rcases queue_of_step?_eq_none hstep with hqueue | ⟨cost, rest, hqueue⟩
  · -- the queue is empty, so every device with a label is done, and so is its successor
    suffices hall : ∀ a, (∃ label, s.labels.find? a = some label) → Joins a links dst →
        ∃ label, s.labels.find? dst = some label from
      hall src (Option.isSome_iff_exists.1 h.source) hway.joins
    have hedges := hway.edges
    have husable := hway.usable
    clear hway
    induction links with
    | nil =>
      rintro a ha rfl
      exact ha
    | cons l rest ih =>
      rintro _ ⟨label, hlabel⟩ ⟨rfl, hjoins⟩
      obtain ⟨w, hw⟩ := hedges l List.mem_cons_self
      have hdone : l.src.device ∈ done := by
        refine (h.waiting hlabel).resolve_right ?_
        intro hmem
        exact List.not_mem_nil (hqueue ▸ hmem)
      have hrelaxed := h.relaxed (l, w) hw hdone (husable l List.mem_cons_self)
      obtain ⟨-, b, -, hb, -⟩ := hrelaxed.resolve_left List.not_mem_nil
      exact ih (fun m hm => hedges m (List.mem_cons_of_mem _ hm))
        (fun m hm => husable m (List.mem_cons_of_mem _ hm)) _ ⟨b, hb⟩ hjoins
  · obtain ⟨-, label, hlabel, -⟩ := h.queued (cost, dst) (hqueue ▸ List.mem_cons_self)
    exact ⟨label, hlabel⟩

end Search

/-! ## Whole searches -/

namespace Search

variable {W : Type} [Cost W] {g : Graph W} {closed : Closed} {src dst : DeviceId} {s : Search W}

/-- Once there is no step left, more fuel changes nothing. -/
theorem run_of_ends {fuel fuel' : Nat} (hle : fuel ≤ fuel')
    (h : (s.run g closed src dst fuel).step? g closed src dst = none) :
    s.run g closed src dst fuel' = s.run g closed src dst fuel := by
  induction fuel generalizing s fuel' with
  | zero =>
    have hstep : s.step? g closed src dst = none := h
    cases fuel' with
    | zero => rfl
    | succ fuel' => simp only [run, hstep]
  | succ fuel ih =>
    obtain ⟨fuel', rfl⟩ := Nat.exists_eq_succ_of_ne_zero (Nat.ne_zero_of_lt hle)
    unfold run at h ⊢
    cases hstep : s.step? g closed src dst with
    | none => rfl
    | some s' =>
      rw [hstep] at h
      exact ih (Nat.le_of_succ_le_succ hle) h

end Search

namespace Graph

variable {W : Type} [Cost W] [LawfulCost W] {g : Graph W}

/-- A search takes at most one queue entry for each edge, and the source. -/
theorem Weighed.run_ends (hg : g.Weighed) (closed : Closed) (src dst : DeviceId) {fuel : Nat}
    (hfuel : g.edges.length < fuel) :
    ((Search.start src).run g closed src dst fuel).step? g closed src dst = none ∧
      ∃ done level,
        Search.Inv g closed src done [] level ((Search.start src).run g closed src dst fuel) := by
  refine (Search.inv_start g closed src).run_ends hg dst ?_
  have huntried : Search.untried g [] ≤ g.edges.length := List.length_filter_le _ _
  show 1 + Search.untried g [] ≤ fuel
  omega

/-- A search comes to its end. -/
theorem Weighed.explore_ends (hg : g.Weighed) (closed : Closed) (src dst : DeviceId) :
    (g.explore closed src dst).step? g closed src dst = none ∧
      ∃ done level, Search.Inv g closed src done [] level (g.explore closed src dst) :=
  hg.run_ends closed src dst Nat.lt_two_pow_self

/-- A search stops by itself, and the label of its destination leads back to the source. -/
structure SearchEnds (g : Graph W) (closed : Closed) (src dst : DeviceId) : Prop where
  stops : (g.explore closed src dst).step? g closed src dst = none
  traces : ∀ label, (g.explore closed src dst).labels.find? dst = some label →
    ∃ links, (g.explore closed src dst).trace? src (g.explore closed src dst).labels.size dst [] =
      some links

theorem Weighed.searchEnds (hg : g.Weighed) (closed : Closed) (src dst : DeviceId) :
    g.SearchEnds closed src dst := by
  obtain ⟨hstep, done, level, hinv⟩ := hg.explore_ends closed src dst
  refine ⟨hstep, ?_⟩
  intro label hlabel
  obtain ⟨links, htold⟩ := hinv.told hlabel
  exact ⟨links, hinv.trace?_eq htold⟩

/-- What a search finds comes with its cost. -/
theorem Weighed.costs_of_shortest? (hg : g.Weighed) {closed : Closed} {src dst : DeviceId}
    {r : Weighted W} (h : g.shortest? closed src dst = some r) : g.Costs r.links r.cost := by
  obtain ⟨-, done, level, hinv⟩ := hg.explore_ends closed src dst
  obtain ⟨label, hlabel, htrace, hcost⟩ := shortest?_eq_some_iff.1 h
  obtain ⟨links, htold⟩ := hinv.told hlabel
  rw [hinv.trace?_eq htold] at htrace
  obtain rfl : links = r.links := Option.some.inj htrace
  exact hcost ▸ htold.cost

theorem Lawful.cost_of_shortest? (hg : g.Lawful) {closed : Closed} {src dst : DeviceId}
    {r : Weighted W} (h : g.shortest? closed src dst = some r) : r.cost = g.costOfAll r.links :=
  (hg.costOfAll_eq (hg.weights.costs_of_shortest? h)).symm

/-- A search finds something if there is a way. -/
theorem Weighed.shortest?_isSome (hg : g.Weighed) {closed : Closed} {src dst : DeviceId}
    {links : List Link} (h : g.IsWay closed src dst links) :
    (g.shortest? closed src dst).isSome := by
  obtain ⟨hstep, done, level, hinv⟩ := hg.explore_ends closed src dst
  obtain ⟨label, hlabel⟩ := hinv.labelled_of_isWay hstep h
  obtain ⟨links', htold⟩ := hinv.told hlabel
  have hfound : g.shortest? closed src dst = some ⟨links', label.cost⟩ :=
    shortest?_eq_some_iff.2 ⟨label, hlabel, hinv.trace?_eq htold, rfl⟩
  rw [hfound, Option.isSome_some]

end Graph

end Lightpath

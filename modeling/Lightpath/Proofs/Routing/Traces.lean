import Lightpath.Proofs.Routing.Ways

/-!
# Traces — what is read off the labels of a search

`Search.Traced` relates a device to the links that its label leads back over. Every device has one
label, so there is only one such list of links, and it visits no device twice. Labels are only set
by edges that may be used (`Search.Grown`). What a search finds is therefore a loop-free way,
whatever the costs are (`Graph.isWay_of_shortest?`, `Graph.loopFree_of_shortest?`).
-/

namespace Lightpath

namespace Search

variable {W : Type}

/-- The labels lead from a device back to the source over these links. -/
inductive Traced (labels : SortedMap DeviceId (Label W)) (src : DeviceId) :
    DeviceId → List Link → Prop
  | source : Traced labels src src []
  | via {id : DeviceId} {label : Label W} {l : Link} {links : List Link} (hne : id ≠ src)
      (hlabel : labels.find? id = some label) (hvia : label.via = some l)
      (hrest : Traced labels src l.src.device links) : Traced labels src id (links ++ [l])

/-! ## Tracing -/

/-- Tracing labels gives the way behind them if the fuel lasts. -/
theorem Traced.trace?_eq {s : Search W} {src id : DeviceId} {links : List Link}
    (h : Traced s.labels src id links) {fuel : Nat} (hfuel : links.length ≤ fuel)
    (after : List Link) : s.trace? src fuel id after = some (links ++ after) := by
  induction h generalizing fuel after with
  | source =>
    unfold trace?
    rw [if_pos rfl, List.nil_append]
  | @via id label l links hne hlabel hvia _ ih =>
    rw [List.length_append, List.length_singleton] at hfuel
    cases fuel with
    | zero => omega
    | succ fuel =>
      unfold trace?
      simp only [if_neg hne, hlabel, Option.bind_some, hvia]
      rw [ih (by omega), List.append_assoc, List.singleton_append]

/-- Tracing gives nothing but the way behind the labels. -/
theorem traced_of_trace? {s : Search W} {src id : DeviceId} {fuel : Nat} {after found : List Link}
    (h : s.trace? src fuel id after = some found) :
    ∃ links, Traced s.labels src id links ∧ found = links ++ after := by
  induction fuel generalizing id after with
  | zero =>
    unfold trace? at h
    split at h
    next hid =>
      obtain rfl := Option.some.inj h
      exact ⟨[], hid ▸ .source, rfl⟩
    next => exact nomatch h
  | succ fuel ih =>
    unfold trace? at h
    split at h
    next hid =>
      obtain rfl := Option.some.inj h
      exact ⟨[], hid ▸ .source, rfl⟩
    next hne =>
      split at h
      next l hfuel hlabel =>
        obtain rfl := Nat.succ.inj hfuel
        obtain ⟨label, hlabel, hvia⟩ := Option.bind_eq_some_iff.1 hlabel
        obtain ⟨links, htraced, rfl⟩ := ih h
        refine ⟨links ++ [l], .via hne hlabel hvia htraced, ?_⟩
        rw [List.append_assoc, List.singleton_append]
      next => exact nomatch h

/-- A change to the label of a device that is not on the way does not change the way. -/
theorem Traced.frame {labels labels' : SortedMap DeviceId (Label W)} {src id : DeviceId}
    {links : List Link} (h : Traced labels src id links)
    (hid : labels'.find? id = labels.find? id)
    (hlinks : ∀ l ∈ links, labels'.find? l.src.device = labels.find? l.src.device) :
    Traced labels' src id links := by
  induction h with
  | source => exact .source
  | @via id label l links hne hlabel hvia _ ih =>
    refine .via hne (hid.trans hlabel) hvia (ih ?_ ?_)
    · exact hlinks l (List.mem_append_right _ (List.mem_singleton_self l))
    · intro m hm
      exact hlinks m (List.mem_append_left _ hm)

/-! ## The only way to a device -/

section Traced

variable {labels : SortedMap DeviceId (Label W)} {src id : DeviceId} {links links' : List Link}

/-- Labels lead back in one way only. -/
theorem Traced.unique (h : Traced labels src id links) (h' : Traced labels src id links') :
    links = links' := by
  induction h generalizing links' with
  | source =>
    cases h' with
    | source => rfl
    | via hne _ _ _ => exact absurd rfl hne
  | @via id label l links hne hlabel hvia _ ih =>
    cases h' with
    | source => exact absurd rfl hne
    | via _ hlabel' hvia' hrest' =>
      obtain rfl := Option.some.inj (hlabel.symm.trans hlabel')
      obtain rfl := Option.some.inj (hvia.symm.trans hvia')
      rw [ih hrest']

/-- The devices on the way are reached over a part of it. -/
theorem Traced.of_mem (h : Traced labels src id links) {l : Link} (hl : l ∈ links) :
    ∃ before, Traced labels src l.src.device before ∧ before.length < links.length := by
  induction h with
  | source => exact nomatch hl
  | @via id label last links _ _ _ hrest ih =>
    rw [List.length_append, List.length_singleton]
    rcases List.mem_append.1 hl with hl | hl
    · obtain ⟨before, htraced, hlt⟩ := ih hl
      exact ⟨before, htraced, by omega⟩
    · exact ⟨links, List.mem_singleton.1 hl ▸ hrest, by omega⟩

/-- Labels are set by edges that may be used. -/
def Grown (g : Graph W) (closed : Closed) (src : DeviceId)
    (labels : SortedMap DeviceId (Label W)) : Prop :=
  ∀ id label, labels.find? id = some label → ∀ l, label.via = some l →
    l.dst.device = id ∧ (∃ w, (l, w) ∈ g.edges) ∧ mayUse closed src l = true

variable {g : Graph W} {closed : Closed}

theorem Traced.isWay (h : Traced labels src id links) (hgrown : Grown g closed src labels) :
    g.IsWay closed src id links := by
  induction h with
  | source => exact Graph.isWay_nil
  | @via id label l links _ hlabel hvia _ ih =>
    obtain ⟨rfl, ⟨w, hedge⟩, huse⟩ := hgrown id label hlabel l hvia
    exact ih.snoc hedge rfl huse

/-- A way that came back to a device would be longer than itself. -/
theorem Traced.loopFree (h : Traced labels src id links) (hgrown : Grown g closed src labels) :
    LoopFree src links := by
  induction h with
  | source => exact loopFree_nil _
  | @via id label l links hne hlabel hvia hrest ih =>
    obtain ⟨hdst, -⟩ := hgrown id label hlabel l hvia
    have hway : Traced labels src id (links ++ [l]) := .via hne hlabel hvia hrest
    refine ih.snoc (hrest.isWay hgrown).joins ?_ ?_
    · intro heq
      rw [← heq, hdst] at hrest
      exact absurd (hrest.unique hway) (by simp)
    · intro m hm heq
      obtain ⟨before, hbefore, hlt⟩ := hrest.of_mem hm
      rw [heq, hdst] at hbefore
      have hlength := congrArg List.length (hbefore.unique hway)
      rw [List.length_append] at hlength
      omega

end Traced

/-! ## Labels along a search -/

variable [Cost W] {g : Graph W} {closed : Closed} {src : DeviceId} {s : Search W}

/-- A step takes the first device from the queue, which is not the destination. It drops the device
if its cost is outdated, and tries its links otherwise. -/
theorem step_cases {dst : DeviceId} {s' : Search W} (h : s.step? g closed src dst = some s') :
    ∃ cost id rest, s.queue = (cost, id) :: rest ∧ id ≠ dst ∧
      ((s.outdated id cost = true ∧ s' = { s with queue := rest }) ∨
        (s.outdated id cost = false ∧
          s' = ({ s with queue := rest } : Search W).expand g closed src id cost)) := by
  unfold step? at h
  split at h
  next => exact nomatch h
  next cost id rest hqueue =>
    split at h
    next => exact nomatch h
    next hne =>
      refine ⟨cost, id, rest, hqueue, hne, ?_⟩
      simp only at h
      split at h
      next hout => exact .inl ⟨hout, (Option.some.inj h).symm⟩
      next hin => exact .inr ⟨Bool.eq_false_iff.2 hin, (Option.some.inj h).symm⟩

theorem grown_start (g : Graph W) (closed : Closed) (src : DeviceId) :
    Grown g closed src (start src : Search W).labels := by
  intro id label hlabel l hvia
  rw [start, SortedMap.find?_insert] at hlabel
  split at hlabel
  next =>
    obtain rfl := Option.some.inj hlabel
    exact nomatch hvia
  next => exact nomatch hlabel

theorem Grown.relax {cost : W} {e : Link × W} (h : Grown g closed src s.labels)
    (he : e ∈ g.edges) : Grown g closed src (relax closed src cost s e).labels := by
  unfold Search.relax
  simp only
  split
  next hif =>
    intro id label hlabel l hvia
    rw [SortedMap.find?_insert] at hlabel
    split at hlabel
    next hid =>
      obtain rfl := Option.some.inj hlabel
      obtain rfl := Option.some.inj hvia
      exact ⟨hid.symm, ⟨e.2, he⟩, (Bool.and_eq_true_iff.1 hif).1⟩
    next => exact h id label hlabel l hvia
  next => exact h

theorem Grown.expand {id : DeviceId} {cost : W} (h : Grown g closed src s.labels) :
    Grown g closed src (s.expand g closed src id cost).labels := by
  have hedges : ∀ e ∈ g.leaving id, e ∈ g.edges := fun e he => (List.mem_filter.1 he).1
  unfold Search.expand
  generalize g.leaving id = edges at hedges
  induction edges generalizing s with
  | nil => exact h
  | cons e rest ih =>
    exact ih (h.relax (hedges e List.mem_cons_self)) fun e' he' =>
      hedges e' (List.mem_cons_of_mem _ he')

theorem Grown.step {dst : DeviceId} {s' : Search W} (h : Grown g closed src s.labels)
    (hstep : s.step? g closed src dst = some s') : Grown g closed src s'.labels := by
  obtain ⟨cost, id, rest, -, -, ⟨-, rfl⟩ | ⟨-, rfl⟩⟩ := step_cases hstep
  · exact h
  · exact Grown.expand (s := { s with queue := rest }) h

theorem Grown.run {dst : DeviceId} (h : Grown g closed src s.labels) (fuel : Nat) :
    Grown g closed src (s.run g closed src dst fuel).labels := by
  induction fuel generalizing s with
  | zero => exact h
  | succ fuel ih =>
    unfold Search.run
    split
    next => exact h
    next s' hstep => exact ih (h.step hstep)

end Search

namespace Graph

variable {W : Type} [Cost W] {g : Graph W} {closed : Closed} {src dst : DeviceId} {r : Weighted W}

theorem grown_explore (g : Graph W) (closed : Closed) (src dst : DeviceId) :
    Search.Grown g closed src (g.explore closed src dst).labels :=
  (Search.grown_start g closed src).run _

/-- A search finds the links that the label of its destination leads back over, at the cost of that
label. -/
theorem shortest?_eq_some_iff : g.shortest? closed src dst = some r ↔
    ∃ label, (g.explore closed src dst).labels.find? dst = some label ∧
      (g.explore closed src dst).trace? src (g.explore closed src dst).labels.size dst [] =
        some r.links ∧ label.cost = r.cost := by
  unfold shortest?
  simp only
  cases (g.explore closed src dst).labels.find? dst with
  | none => simp
  | some label =>
    rw [Option.map_eq_some_iff]
    constructor
    · rintro ⟨links, htrace, rfl⟩
      exact ⟨label, rfl, htrace, rfl⟩
    · rintro ⟨_, heq, htrace, hcost⟩
      obtain rfl := Option.some.inj heq
      exact ⟨r.links, htrace, hcost ▸ rfl⟩

/-- What a search finds is read off its labels. -/
theorem traced_of_shortest? (h : g.shortest? closed src dst = some r) :
    Search.Traced (g.explore closed src dst).labels src dst r.links := by
  obtain ⟨label, -, htrace, -⟩ := shortest?_eq_some_iff.1 h
  obtain ⟨links, htraced, heq⟩ := Search.traced_of_trace? htrace
  rw [heq, List.append_nil]
  exact htraced

theorem isWay_of_shortest? (h : g.shortest? closed src dst = some r) :
    g.IsWay closed src dst r.links :=
  (traced_of_shortest? h).isWay (g.grown_explore closed src dst)

theorem loopFree_of_shortest? (h : g.shortest? closed src dst = some r) : LoopFree src r.links :=
  (traced_of_shortest? h).loopFree (g.grown_explore closed src dst)

end Graph

end Lightpath

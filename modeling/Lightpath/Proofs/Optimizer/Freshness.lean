import Lightpath.Proofs.Optimizer.Turns
import Lightpath.Proofs.Wdm.Lines
import Mathlib.Data.List.Infix

/-!
# Freshness — which computed paths are valid while the flag is not set

The flag of an optimizer tells that an optical line has changed since the catalog was computed. As
long as it is not set, every line of the last calculation is still there (`Topology.IsLine`): a call
that takes a line away sets it.

A calculation restricted to some ports resets the flag as well, and leaves the paths of other ports
as they were. The paths that are not valid any more at this moment are `Unrefreshed` until a calculation
includes them or finds them valid again. Without forced planning all others run over lines (`UpToDate`),
so they are valid (`fresh_catalog_valid`).
-/

namespace Lightpath

namespace Optimizer

/-- A calculation gives paths over lines. -/
theorem Computes.overLines {o : Optimizer} {c : Call} {ingress egress : Option ConnectPoint}
    {paths : List WdmPath} (h : o.Computes c ingress egress paths) :
    ∀ p ∈ paths, p.OverLines o.topology := by
  obtain ⟨plan, osnr, hplan, -, rfl⟩ := h.assembled
  intro p hp
  obtain ⟨e, r, hr, hne, -, -, -, -, hcases⟩ := Planner.of_mem_assemble_planned hplan hp
  have hroute := (o.topology.rankedRoutes_sound o.weigher hne o.settings.k).2.2 r hr
  have hlines : ∀ l ∈ r.links, o.topology.IsLine l.ends := by
    intro l hl
    obtain ⟨hmem, hviable⟩ := hroute.viable l hl
    exact isLine_of_fiberKm hmem hviable (hroute.joins.ends_apart hroute.loopFree l hl)
  rcases hcases with ⟨-, hforth⟩ | ⟨-, hback⟩
  · left
    rw [hforth]
    exact hlines
  · right
    rw [hback]
    intro l hl
    obtain ⟨m, hm, rfl⟩ := List.mem_map.1 (List.mem_reverse.1 hl)
    exact hlines m hm

/-! ## Ports of computed paths -/

/-- The links of a path join line ports of different devices. -/
def OnLinePorts (t : Topology) (p : WdmPath) : Prop :=
  ∀ l ∈ p.route.links, t.isLinePort l.src = true ∧ t.isLinePort l.dst = true ∧
    l.src.device ≠ l.dst.device

/-- A line port of a device that was there before was one before. -/
theorem DevicesWithin.isLinePort {t t' : Topology} (h : DevicesWithin t t') {cp : ConnectPoint}
    (hport : t.isLinePort cp = true) : t'.isLinePort cp = true := by
  obtain ⟨d, hd⟩ := Option.isSome_iff_exists.1 (Topology.device?_isSome_of_isLinePort hport)
  rwa [Topology.isLinePort_congr ((h _ _ hd).trans hd.symm)]

/-- A path over lines joined line ports before, too. -/
theorem onLinePorts_of_overLines {t t' : Topology} (h : DevicesWithin t t') {p : WdmPath}
    (hp : p.OverLines t) : OnLinePorts t' p := by
  intro l hl
  rcases hp with hp | hp
  · exact ⟨h.isLinePort (hp l hl).src, h.isLinePort (hp l hl).dst, (hp l hl).apart⟩
  · exact ⟨h.isLinePort (hp l hl).dst, h.isLinePort (hp l hl).src, (hp l hl).apart.symm⟩

/-- A path that joined line ports runs over lines as long as it is valid. -/
theorem overLines_of_valid {t t' : Topology} (h : DevicesWithin t t') {p : WdmPath}
    (hports : OnLinePorts t' p) (hp : p.Valid t) : p.OverLines t := by
  have hport {cp : ConnectPoint} (hdevice : (t.device? cp.device).isSome = true)
      (hbefore : t'.isLinePort cp = true) : t.isLinePort cp = true := by
    obtain ⟨d, hd⟩ := Option.isSome_iff_exists.1 hdevice
    rwa [Topology.isLinePort_congr (hd.trans (h _ _ hd).symm)]
  have hends (l : Link) (hl : l ∈ p.route.links) :
      t.isLinePort l.src = true ∧ t.isLinePort l.dst = true :=
    ⟨hport (hp.devices l hl).1 (hports l hl).1, hport (hp.devices l hl).2 (hports l hl).2.1⟩
  refine hp.active.imp ?_ ?_
  · intro hactive l hl
    exact ⟨hactive l hl, (hends l hl).1, (hends l hl).2, (hports l hl).2.2⟩
  · intro hactive l hl
    exact ⟨hactive l hl, (hends l hl).2, (hends l hl).1, (hports l hl).2.2.symm⟩

/-- Every path of the catalog joins ports that were line ports at the start. -/
theorem onLinePorts_after {start : Optimizer} (hempty : start.catalog = {}) (calls : List Call) :
    ∀ p ∈ (start.after calls).catalog.toList, OnLinePorts start.topology p := by
  intro p hp
  rw [← afterTurns_map_call] at hp
  obtain ⟨before, c, more, ingress, egress, paths, hturns, hcomputes, hmem, -⟩ :=
    (provides hempty _).added p hp
  -- the turns before the calculation that added the path are calls, too
  obtain ⟨calls', rest, rfl, rfl, -⟩ := List.map_eq_append_iff.1 hturns
  rw [afterTurns_map_call] at hcomputes
  exact onLinePorts_of_overLines (start.devicesWithin_after calls') (hcomputes.overLines p hmem)

end Optimizer

/-! ## Calls that keep the flag down -/

/-- Whether a call plans candidates although the catalog may be out of date. -/
def Call.isForced : Call → Bool
  | .calculateWavelengthPaths _ force => force
  | _ => false

namespace Optimizer

theorem stale_observe {o : Optimizer} {t : Topology} {events : List TopologyEvent}
    (h : (o.observe t events).stale = false) :
    o.stale = false ∧ events.any (TopologyEvent.concernsLines t) = false :=
  Bool.or_eq_false_iff.1 h

/-- After an unforced call that calculates nothing the flag is down only if it was before and the call
changed no line. -/
theorem fresh_before {c : Call} (hscope : c.scope? = none) (hforced : c.isForced = false)
    {o : Optimizer} (hfresh : (c.run o).optimizer.stale = false) :
    o.stale = false ∧ (c.run o).optimizer.details = o.details ∧
      o.topology.QuietStep (c.run o).optimizer.topology := by
  have hsame {o' : Optimizer} (h : SameNetwork o o') (hfresh : o'.stale = false) :
      o.stale = false ∧ o'.details = o.details ∧ o.topology.QuietStep o'.topology :=
    ⟨h.stale ▸ hfresh, h.details, .unchanged h.topology⟩
  cases c with
  | calculateWdmPaths => cases hscope
  | calculateWdmPathsBy => cases hscope
  | calculateWavelengthPaths pairs force =>
    obtain ⟨hnetwork, hstale⟩ := o.calculateWavelengthPaths_network pairs force
    have hkept : (o.calculateWavelengthPaths pairs force).optimizer.stale = o.stale := by
      refine hstale.resolve_right ?_
      rintro rfl
      exact nomatch hforced
    exact ⟨hkept ▸ hfresh, hnetwork.details, .unchanged hnetwork.topology⟩
  | reserve index ids names => exact hsame (o.sameNetwork_reserve index ids names) hfresh
  | submit group => exact hsame (o.sameNetwork_submit group) hfresh
  | remove group => exact hsame (o.sameNetwork_remove group) hfresh
  | install key => exact hsame (o.sameNetwork_install key) hfresh
  | withdraw key => exact hsame (o.sameNetwork_withdraw key) hfresh
  | setLinkState ends state =>
    simp only [Call.run, Optimizer.setLinkState] at hfresh ⊢
    split at hfresh
    next => exact ⟨hfresh, rfl, .unchanged rfl⟩
    next t event hset =>
      obtain ⟨hbefore, hevent⟩ := stale_observe hfresh
      rw [List.any_cons, List.any_nil, Bool.or_false] at hevent
      exact ⟨hbefore, rfl, .linkState hset hevent⟩
  | removeLink ends =>
    simp only [Call.run, Optimizer.removeLink] at hfresh ⊢
    split at hfresh
    next => exact ⟨hfresh, rfl, .unchanged rfl⟩
    next t event hremove =>
      obtain ⟨hbefore, hevent⟩ := stale_observe hfresh
      rw [List.any_cons, List.any_nil, Bool.or_false] at hevent
      exact ⟨hbefore, rfl, .linkGone hremove hevent⟩
  | removeDevice id =>
    simp only [Call.run, Optimizer.removeDevice] at hfresh ⊢
    split at hfresh
    next => exact ⟨hfresh, rfl, .unchanged rfl⟩
    next t events hremove =>
      obtain ⟨hbefore, hevents⟩ := stale_observe hfresh
      exact ⟨hbefore, rfl, .deviceGone hremove hevents⟩

/-! ## Whole runs -/

/-- The path was not valid any more when it stood in the catalog outside the scope of a successful
calculation that was called while the flag was set, and every successful calculation since then had
another scope and found it not valid either. -/
inductive Unrefreshed (start : Optimizer) (p : WdmPath) : List Call → Prop
  | skipped {calls : List Call} {c : Call} {ingress egress : Option ConnectPoint}
      (hscope : c.scope? = some (ingress, egress))
      (hsucceeds : (c.run (start.after calls)).result = .ok ())
      (hstale : (start.after calls).stale = true)
      (hmem : p ∈ (start.after calls).catalog.toList)
      (hout : p.inScope ingress egress = false)
      (hinvalid : ¬ p.Valid (start.after calls).topology) : Unrefreshed start p (calls ++ [c])
  | kept {calls : List Call} {c : Call} (h : Unrefreshed start p calls)
      (hout : ∀ ingress egress, c.scope? = some (ingress, egress) →
        (c.run (start.after calls)).result = .ok () →
          p.inScope ingress egress = false ∧ ¬ p.Valid (start.after calls).topology) :
      Unrefreshed start p (calls ++ [c])

/-- A path that is exempt was not valid at some time before. -/
theorem Unrefreshed.exists_invalid {start : Optimizer} {p : WdmPath} {calls : List Call}
    (h : Unrefreshed start p calls) :
    ∃ before ∈ calls.inits, ¬ p.Valid (start.after before).topology := by
  induction h with
  | @skipped calls c _ _ _ _ _ _ _ hinvalid =>
    exact ⟨calls, (List.mem_inits _ _).2 (List.prefix_append calls [c]), hinvalid⟩
  | @kept calls c _ _ ih =>
    obtain ⟨before, hbefore, hinvalid⟩ := ih
    have hprefix := ((List.mem_inits _ _).1 hbefore).trans (List.prefix_append calls [c])
    exact ⟨before, (List.mem_inits _ _).2 hprefix, hinvalid⟩

/-- If the flag is down, every path of the catalog runs over lines or is left from before. -/
def UpToDate (start : Optimizer) (calls : List Call) : Prop :=
  (start.after calls).stale = false → ∀ p ∈ (start.after calls).catalog.toList,
    p.OverLines (start.after calls).topology ∨ Unrefreshed start p calls

/-- A call that calculates nothing keeps the catalog up to date: the flag tells if a line is gone. -/
theorem UpToDate.other {start : Optimizer} {calls : List Call} (h : UpToDate start calls) {c : Call}
    (hscope : c.scope? = none) (hforced : c.isForced = false) : UpToDate start (calls ++ [c]) := by
  intro hfresh p hp
  rw [after_append_singleton] at hfresh hp ⊢
  obtain ⟨hdown, -, hstep⟩ := fresh_before hscope hforced hfresh
  rw [(run_of_scope?_eq_none hscope _).1] at hp
  refine (h hdown p hp).imp (fun h => h.mono fun _ he => he.quietStep hstep) fun h => h.kept ?_
  intro ingress egress hscope'
  rw [hscope] at hscope'
  exact nomatch hscope'

/-- A calculation keeps the catalog up to date: of the paths that it leaves, those that are valid run over
lines, and the others are exempt, as they were before if the flag was down. -/
theorem UpToDate.calculation {start : Optimizer} (hempty : start.catalog = {}) {calls : List Call}
    (h : UpToDate start calls) {c : Call} {ingress egress : Option ConnectPoint}
    (hscope : c.scope? = some (ingress, egress)) : UpToDate start (calls ++ [c]) := by
  intro hfresh p hp
  rw [after_append_singleton] at hfresh hp ⊢
  rcases calculation_cases (o := start.after calls) hscope with ⟨hsame, hfails⟩ | ⟨paths, hcomputes⟩
  · rw [hsame] at hfresh hp ⊢
    exact (h hfresh p hp).imp_right fun h => h.kept fun _ _ _ hok => absurd hok hfails
  · have hcoherent : (start.after calls).catalog.Coherent := by
      rw [← afterTurns_map_call]
      exact (provides hempty _).paired.coherent
    rw [hcomputes.state] at hp ⊢
    rw [(hcoherent.replace ingress egress paths).2] at hp
    rcases List.mem_append.1 hp with hp | hp
    · obtain ⟨hp, hout⟩ := List.mem_filter.1 hp
      rw [Bool.not_eq_true'] at hout
      by_cases hvalid : p.Valid (start.after calls).topology
      · exact .inl (overLines_of_valid (start.devicesWithin_after calls)
          (onLinePorts_after hempty calls p hp) hvalid)
      · right
        cases hstale : (start.after calls).stale with
        | true => exact .skipped hscope hcomputes.succeeds hstale hp hout hvalid
        | false =>
          have hbefore := (h hstale p hp).resolve_left fun hlines => hvalid hlines.valid
          refine hbefore.kept fun ingress' egress' hscope' _ => ?_
          obtain ⟨rfl, rfl⟩ := Prod.mk.inj (Option.some.inj (hscope.symm.trans hscope'))
          exact ⟨hout, hvalid⟩
    · exact .inl (hcomputes.overLines p hp)

/-- A run without forced planning keeps the catalog up to date. -/
theorem upToDate {start : Optimizer} (hempty : start.catalog = {}) {calls : List Call}
    (hunforced : ∀ c ∈ calls, c.isForced = false) : UpToDate start calls := by
  induction calls using List.reverseRecOn with
  | nil =>
    intro _ p hp
    change p ∈ start.catalog.toList at hp
    rw [hempty] at hp
    exact nomatch hp
  | append_singleton calls c ih =>
    have hbefore := ih fun c' hc' => hunforced c' (List.mem_append_left _ hc')
    have hforced := hunforced c (List.mem_append_right _ (List.mem_singleton_self c))
    cases hscope : c.scope? with
    | none => exact hbefore.other hscope hforced
    | some scope => exact hbefore.calculation hempty hscope

/-- Without forced planning, while the flag is down every path of the catalog is valid unless it was not
valid any more when calculations restricted to other ports left it out. -/
theorem fresh_catalog_valid (start : Optimizer) (hempty : start.catalog = {}) (calls : List Call)
    (hunforced : ∀ c ∈ calls, c.isForced = false) (hfresh : (start.after calls).stale = false) :
    ∀ p ∈ (start.after calls).catalog.toList,
      p.Valid (start.after calls).topology ∨ Unrefreshed start p calls :=
  fun p hp => (upToDate hempty hunforced hfresh p hp).imp_left fun h => h.valid

/-- After the whole catalog is calculated the only line goes down in both directions, and one port
pair is calculated again. -/
def sampleOutage : List Call :=
  [.calculateWdmPathsBy sampleMethod none none,
    .setLinkState ⟨⟨"A", 1⟩, ⟨"B", 1⟩⟩ .inactive, .setLinkState ⟨⟨"B", 1⟩, ⟨"A", 1⟩⟩ .inactive,
    .calculateWdmPathsBy sampleMethod (some ⟨"A", 2⟩) (some ⟨"B", 2⟩)]

/-- The flag is down although the paths of the other ports are not valid any more. -/
theorem outdated_path_while_fresh : (∀ c ∈ sampleOutage, c.isForced = false) ∧
    (sampleStart.after sampleOutage).stale = false ∧
      ¬ ∀ p ∈ (sampleStart.after sampleOutage).catalog.toList,
        p.Valid (sampleStart.after sampleOutage).topology := by
  decide +kernel

/-- The sample network with two more switches, joined by a line of their own. -/
def sampleSplitNetwork : NetworkDocument :=
  { sampleNetwork with
    devices := sampleNetwork.devices ++ [sampleSwitch "C", sampleSwitch "D"]
    links := sampleNetwork.links ++ [⟨.between ⟨"C", 1⟩ ⟨"D", 1⟩, true⟩]
    details := sampleNetwork.details ++
      [⟨⟨⟨"C", 1⟩, ⟨"D", 1⟩⟩, [.span "smf" 16.0 80000.0], true⟩] }

/-- The optimizer of this network. -/
def sampleSplitStart : Optimizer :=
  match ofNetwork sampleSplitNetwork sampleSettings default true with
  | .ok o => o
  | .error _ => default

/-- Of the paths that the restricted calculation leaves out, those over the other line stay valid and are
not exempt; those over the line that went down are not valid. -/
theorem fresh_catalog_valid_sample : sampleSplitStart.catalog = {} ∧
    (∀ c ∈ sampleOutage, c.isForced = false) ∧
    (sampleSplitStart.after sampleOutage).stale = false ∧
    (∃ p ∈ (sampleSplitStart.after sampleOutage).catalog.toList,
      p.inScope (some ⟨"A", 2⟩) (some ⟨"B", 2⟩) = false ∧
        p.Valid (sampleSplitStart.after sampleOutage).topology ∧
        ¬ Unrefreshed sampleSplitStart p sampleOutage) ∧
    (∃ p ∈ (sampleSplitStart.after sampleOutage).catalog.toList,
      ¬ p.Valid (sampleSplitStart.after sampleOutage).topology) ∧
    ∀ p ∈ (sampleSplitStart.after sampleOutage).catalog.toList,
      p.Valid (sampleSplitStart.after sampleOutage).topology ∨
        Unrefreshed sampleSplitStart p sampleOutage := by
  have hunforced : ∀ c ∈ sampleOutage, c.isForced = false := by decide
  have hfresh : (sampleSplitStart.after sampleOutage).stale = false := by decide +kernel
  obtain ⟨p, hp, hout, hvalid⟩ : ∃ p ∈ (sampleSplitStart.after sampleOutage).catalog.toList,
      p.inScope (some ⟨"A", 2⟩) (some ⟨"B", 2⟩) = false ∧
        ∀ before ∈ sampleOutage.inits, p.Valid (sampleSplitStart.after before).topology := by
    decide +kernel
  have hinvalid : ∃ p ∈ (sampleSplitStart.after sampleOutage).catalog.toList,
      ¬ p.Valid (sampleSplitStart.after sampleOutage).topology := by
    decide +kernel
  refine ⟨rfl, hunforced, hfresh, ⟨p, hp, hout, ?_, ?_⟩, hinvalid,
    fresh_catalog_valid sampleSplitStart rfl sampleOutage hunforced hfresh⟩
  · exact hvalid _ ((List.mem_inits _ _).2 (List.prefix_refl sampleOutage))
  · intro hexempt
    obtain ⟨before, hbefore, hnot⟩ := hexempt.exists_invalid
    exact hnot (hvalid before hbefore)

end Optimizer

end Lightpath
